import BroadcomWl.Memory.Layout

/-!
# Logs of accesses

Code that reads and writes several objects leaves a log of the ranges it touched. The log is safe
when no byte of any range lies outside its object; an empty range touches no byte, wherever it
lies.
-/

namespace BroadcomWl.Memory

/-- No byte of the range lies outside an object of `size` bytes. -/
def Range.Inside (range : Range) (size : ℕ) : Prop := ∀ i < range.length, range.offset + i < size

theorem Range.inside_iff {range : Range} {size : ℕ} :
    range.Inside size ↔ range.length = 0 ∨ range.Within size := by
  unfold Range.Inside Range.Within
  constructor
  · intro h
    by_cases hlength : range.length = 0
    · exact .inl hlength
    · have hlast := h (range.length - 1) (by omega)
      exact .inr (by omega)
  · rintro (hlength | hwithin) i hi <;> omega

/-- For a range that is not empty. -/
theorem Range.inside_iff_within {range : Range} {size : ℕ} (h : range.length ≠ 0) :
    range.Inside size ↔ range.Within size :=
  Range.inside_iff.trans (or_iff_right h)

instance (range : Range) (size : ℕ) : Decidable (range.Inside size) :=
  decidable_of_iff _ Range.inside_iff.symm

/-- An access to some bytes of one of several objects. -/
structure Access (Object : Type*) where
  object : Object
  range : Range
deriving DecidableEq, Repr

variable {Object : Type*} {size : Object → ℕ}

def Access.Inside (size : Object → ℕ) (access : Access Object) : Prop :=
  access.range.Inside (size access.object)

instance (access : Access Object) : Decidable (access.Inside size) :=
  inferInstanceAs (Decidable (access.range.Inside _))

/-- Every access of the log stays inside its object. -/
def Safe (size : Object → ℕ) (log : List (Access Object)) : Prop :=
  ∀ access ∈ log, access.Inside size

instance (log : List (Access Object)) : Decidable (Safe size log) :=
  inferInstanceAs (Decidable (∀ access ∈ log, access.Inside size))

@[simp]
theorem safe_nil : Safe size [] := List.forall_mem_nil _

@[simp]
theorem safe_cons {access : Access Object} {log : List (Access Object)} :
    Safe size (access :: log) ↔ access.Inside size ∧ Safe size log := List.forall_mem_cons

@[simp]
theorem safe_append {first second : List (Access Object)} :
    Safe size (first ++ second) ↔ Safe size first ∧ Safe size second := List.forall_mem_append

end BroadcomWl.Memory
