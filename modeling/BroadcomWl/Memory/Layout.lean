import Mathlib.Data.Nat.Basic
import Mathlib.Tactic.Common

/-!
# Sizes and offsets of C objects

An extent is the size and the alignment of a C type. Structures place every member at
the next multiple of its alignment and are padded to a multiple of their own; an array
repeats its element; a flexible array member adds no size. The results say that a member
lies inside its structure and an element inside its array, so that bounds follow from
declarations.
-/

namespace BroadcomWl.Memory

/-- Size and alignment of a type. -/
structure Extent where
  size : ℕ
  align : ℕ
deriving DecidableEq, Repr

/-- The least multiple of `align` that is not below `n`. -/
def roundUp (align n : ℕ) : ℕ := (n + (align - 1)) / align * align

theorem le_roundUp {align : ℕ} (halign : 0 < align) (n : ℕ) : n ≤ roundUp align n := by
  have hdiv := Nat.div_add_mod (n + (align - 1)) align
  have hmod := Nat.mod_lt (n + (align - 1)) halign
  have hcomm := Nat.mul_comm align ((n + (align - 1)) / align)
  unfold roundUp
  omega

namespace Extent

/-- An array type `element[count]`. -/
def array (element : Extent) (count : ℕ) : Extent := ⟨count * element.size, element.align⟩

/-- A flexible array member `element[]`. -/
def flexible (element : Extent) : Extent := element.array 0

/-- Where the last of the members ends, when the first one starts at offset `start`. -/
def endFrom (start : ℕ) : List Extent → ℕ
  | [] => start
  | member :: members => endFrom (roundUp member.align start + member.size) members

/-- A structure type with the given members. -/
def struct (members : List Extent) : Extent :=
  let align := (members.map Extent.align).foldr max 1
  ⟨roundUp align (endFrom 0 members), align⟩

/-- Offset of the member that follows the given ones in a structure. -/
def offsetAfter (before : List Extent) (member : Extent) : ℕ :=
  roundUp member.align (endFrom 0 before)

theorem le_endFrom {members : List Extent} (halign : ∀ member ∈ members, 0 < member.align)
    (start : ℕ) : start ≤ endFrom start members := by
  induction members generalizing start with
  | nil => exact le_rfl
  | cons member members ih =>
    have hmember := le_roundUp (halign member List.mem_cons_self) start
    have hrest := ih (fun other hother ↦ halign other (List.mem_cons_of_mem _ hother))
      (roundUp member.align start + member.size)
    rw [endFrom]
    omega

theorem endFrom_append (start : ℕ) (before after : List Extent) :
    endFrom start (before ++ after) = endFrom (endFrom start before) after := by
  induction before generalizing start with
  | nil => rfl
  | cons member members ih => exact ih _

theorem one_le_foldr_max (aligns : List ℕ) : 1 ≤ aligns.foldr max 1 := by
  induction aligns with
  | nil => exact le_rfl
  | cons align aligns ih => exact le_trans ih (le_max_right _ _)

/-- A member lies inside its structure. -/
theorem member_within (before after : List Extent) (member : Extent)
    (halign : ∀ other ∈ member :: after, 0 < other.align) :
    offsetAfter before member + member.size ≤ (struct (before ++ member :: after)).size := by
  have hafter : ∀ other ∈ after, 0 < other.align := fun other hother ↦
    halign other (List.mem_cons_of_mem _ hother)
  calc
    offsetAfter before member + member.size
        ≤ endFrom (offsetAfter before member + member.size) after := le_endFrom hafter _
    _ = endFrom 0 (before ++ member :: after) := by rw [endFrom_append]; rfl
    _ ≤ _ := le_roundUp (one_le_foldr_max _) _

/-- An element lies inside its array. -/
theorem element_within (element : Extent) {count i : ℕ} (hi : i < count) :
    i * element.size + element.size ≤ (element.array count).size := by
  have hmul := Nat.mul_le_mul_right element.size hi
  rw [Nat.succ_mul] at hmul
  exact hmul

end Extent

/-- `length` bytes of an object from `offset` on. -/
structure Range where
  offset : ℕ
  length : ℕ
deriving DecidableEq, Repr

/-- The range lies inside an object of `size` bytes. -/
def Range.Within (range : Range) (size : ℕ) : Prop := range.offset + range.length ≤ size

instance (range : Range) (size : ℕ) : Decidable (range.Within size) :=
  inferInstanceAs (Decidable (range.offset + range.length ≤ size))

end BroadcomWl.Memory
