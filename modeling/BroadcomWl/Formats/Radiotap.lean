import BroadcomWl.Memory.Stores
import Mathlib.Data.Nat.Bitwise

/-!
# Walking a radiotap header

A radiotap header gives its length and one or more words of presence bits, each but the last with
its extension bit set. A set bit stands for a field; the fields follow the words in bit order,
each at its natural alignment. Two bits change what the next word means: back to the standard
fields, or to a vendor's, whose data is skipped by the length its field gives.

The walk fails when a field is unknown or ends behind the header; otherwise it yields the place of
every field and the offset at which it ends.
-/

namespace BroadcomWl.Formats.Radiotap

open BroadcomWl.Memory

def namespaceBit : ℕ := 29
def vendorBit : ℕ := 30
def extBit : ℕ := 31

/-- The standard fields. -/
def fieldExtent : ℕ → Option Extent
  | 0 => some ⟨8, 8⟩
  | 1 => some ⟨1, 1⟩
  | 2 => some ⟨1, 1⟩
  | 3 => some ⟨4, 2⟩
  | 4 => some ⟨2, 2⟩
  | 5 => some ⟨1, 1⟩
  | 6 => some ⟨1, 1⟩
  | 7 => some ⟨2, 2⟩
  | 8 => some ⟨2, 2⟩
  | 9 => some ⟨2, 2⟩
  | 10 => some ⟨1, 1⟩
  | 11 => some ⟨1, 1⟩
  | 12 => some ⟨1, 1⟩
  | 13 => some ⟨1, 1⟩
  | 14 => some ⟨2, 2⟩
  | 15 => some ⟨2, 2⟩
  | 16 => some ⟨1, 1⟩
  | 17 => some ⟨1, 1⟩
  | 19 => some ⟨3, 1⟩
  | 20 => some ⟨8, 4⟩
  | 21 => some ⟨12, 2⟩
  | 22 => some ⟨12, 8⟩
  | _ => none

/-- What the bits of the current word stand for: the standard fields from a bit on, or data of a
vendor that was skipped. -/
inductive Namespace where
  | standard (firstBit : ℕ)
  | vendor
deriving DecidableEq

/-- Where the walk is, and the fields it has found, with the bit of each. -/
structure Cursor where
  offset : ℕ
  fields : List (ℕ × ℕ)

/-- Take one field. -/
def takeField (itLen : ℕ) (cursor : Cursor) (bit : ℕ) : Option Cursor := do
  let extent ← fieldExtent bit
  let start := roundUp extent.align cursor.offset
  if start + extent.size ≤ itLen then
    return ⟨start + extent.size, cursor.fields ++ [(bit, start)]⟩
  else none

/-- The bits of a word that stand for fields. -/
def fieldBits (word : ℕ) : List ℕ := (List.range namespaceBit).filter (word.testBit ·)

/-- Take the fields of a word. -/
def takeFields (itLen : ℕ) (ns : Namespace) (word : ℕ) (cursor : Cursor) : Option Cursor :=
  match ns with
  | .standard firstBit =>
      (fieldBits word).foldlM (fun cursor bit ↦ takeField itLen cursor (firstBit + bit)) cursor
  | .vendor => some cursor

/-- The vendor field: three bytes of OUI, one byte of sub-namespace, and the length of the data that
follows it. -/
def takeVendor (buffer : ℕ → UInt8) (itLen : ℕ) (cursor : Cursor) : Option Cursor :=
  let start := roundUp 2 cursor.offset
  let skipLen := load16 buffer (start + 4)
  if start + 6 + skipLen ≤ itLen then
    some ⟨start + 6 + skipLen, cursor.fields ++ [(vendorBit, start)]⟩
  else none

/-- The meaning of the next word. -/
def Namespace.next (ns : Namespace) (word : ℕ) : Namespace :=
  if word.testBit vendorBit then .vendor
  else if word.testBit namespaceBit then .standard 0
  else match ns with
    | .standard firstBit => .standard (firstBit + 32)
    | .vendor => .vendor

/-- One word of presence bits. -/
def takeWord (buffer : ℕ → UInt8) (itLen : ℕ) (ns : Namespace) (word : ℕ) (cursor : Cursor) :
    Option Cursor := do
  let cursor ← takeFields itLen ns word cursor
  if word.testBit vendorBit then takeVendor buffer itLen cursor else return cursor

def takeWords (buffer : ℕ → UInt8) (itLen : ℕ) : Namespace → List ℕ → Cursor → Option Cursor
  | _, [], cursor => some cursor
  | ns, word :: words, cursor => do
      let cursor ← takeWord buffer itLen ns word cursor
      takeWords buffer itLen (ns.next word) words cursor

/-- The words of presence bits from `start` on, and where they end. -/
def presentWords (buffer : ℕ → UInt8) (itLen : ℕ) : ℕ → ℕ → Option (List ℕ × ℕ)
  | 0, _ => none
  | fuel + 1, start =>
      if start + 4 ≤ itLen then
        let word := load32 buffer start
        if word.testBit extBit then do
          let (words, stop) ← presentWords buffer itLen fuel (start + 4)
          return (word :: words, stop)
        else some ([word], start + 4)
      else none

/-- `it_len`. -/
def itLen (buffer : ℕ → UInt8) : ℕ := load16 buffer 2

/-- The walk over a header; there are fewer words than bytes. -/
def walk (buffer : ℕ → UInt8) : Option Cursor := do
  let (words, start) ← presentWords buffer (itLen buffer) (itLen buffer) 4
  takeWords buffer (itLen buffer) (.standard 0) words ⟨start, []⟩

/-- The place of a field. -/
def Cursor.find (cursor : Cursor) (bit : ℕ) : Option ℕ := cursor.fields.lookup bit

/-! ## Reading the words -/

variable {buffer : ℕ → UInt8} {itLen fuel start : ℕ}

/-- The last word. -/
theorem presentWords_last (hstart : start + 4 ≤ itLen)
    (hword : (load32 buffer start).testBit extBit = false) :
    presentWords buffer itLen (fuel + 1) start = some ([load32 buffer start], start + 4) := by
  rw [presentWords, if_pos hstart]
  exact if_neg fun h ↦ Bool.noConfusion (hword.symm.trans h)

/-- A word with its extension bit set. -/
theorem presentWords_more (hstart : start + 4 ≤ itLen)
    (hword : (load32 buffer start).testBit extBit = true) :
    presentWords buffer itLen (fuel + 1) start =
      (presentWords buffer itLen fuel (start + 4)).map
        fun (words, stop) ↦ (load32 buffer start :: words, stop) := by
  rw [presentWords, if_pos hstart]
  refine (if_pos hword).trans ?_
  cases presentWords buffer itLen fuel (start + 4) <;> rfl

theorem lt_of_presentWords {words : List ℕ} {stop : ℕ}
    (h : presentWords buffer itLen fuel start = some (words, stop)) : start + 4 ≤ stop := by
  induction fuel generalizing start words with
  | zero => cases h
  | succ fuel ih =>
    rw [presentWords] at h
    obtain ⟨hstart, h⟩ := Option.ite_none_right_eq_some.mp h
    dsimp only at h
    split at h
    · obtain ⟨⟨rest, last⟩, hrest, hlast⟩ := Option.bind_eq_some_iff.mp h
      cases hlast
      have hle := ih hrest
      omega
    · cases h
      exact Nat.le_refl _

/-- Once the words are read, the fields follow them. -/
theorem walk_words {len : ℕ} {words : List ℕ} (hlen : Radiotap.itLen buffer = len)
    (hwords : presentWords buffer len len 4 = some (words, start)) :
    walk buffer = takeWords buffer len (.standard 0) words ⟨start, []⟩ := by
  unfold walk
  rw [hlen, hwords]
  rfl

theorem takeWords_cons (len word : ℕ) (words : List ℕ) (ns : Namespace) (cursor : Cursor) :
    takeWords buffer len ns (word :: words) cursor =
      (takeWord buffer len ns word cursor).bind (takeWords buffer len (ns.next word) words) :=
  rfl

theorem takeWords_singleton (len word : ℕ) (ns : Namespace) (cursor : Cursor) :
    takeWords buffer len ns [word] cursor = takeWord buffer len ns word cursor := by
  rw [takeWords_cons]
  cases takeWord buffer len ns word cursor <;> rfl

/-- A header with a single word. -/
theorem walk_one {len word : ℕ} (hlen : Radiotap.itLen buffer = len) (hroom : 8 ≤ len)
    (hword : load32 buffer 4 = word) (hlast : word.testBit extBit = false) :
    walk buffer = takeWord buffer len (.standard 0) word ⟨8, []⟩ := by
  obtain ⟨fuel, rfl⟩ : ∃ fuel, len = fuel + 1 := ⟨len - 1, by omega⟩
  subst hword
  have hwords : presentWords buffer (fuel + 1) (fuel + 1) 4 = some ([load32 buffer 4], 8) :=
    presentWords_last hroom hlast
  rw [walk_words hlen hwords, takeWords_singleton]

/-- A header with two words. -/
theorem walk_two {len first second : ℕ} (hlen : Radiotap.itLen buffer = len) (hroom : 12 ≤ len)
    (hfirst : load32 buffer 4 = first) (hmore : first.testBit extBit = true)
    (hsecond : load32 buffer 8 = second) (hlast : second.testBit extBit = false) :
    walk buffer = (takeWord buffer len (.standard 0) first ⟨12, []⟩).bind
      (takeWord buffer len (Namespace.next (.standard 0) first) second) := by
  obtain ⟨fuel, rfl⟩ : ∃ fuel, len = fuel + 2 := ⟨len - 2, by omega⟩
  subst hfirst hsecond
  have hwords : presentWords buffer (fuel + 2) (fuel + 1) 8 = some ([load32 buffer 8], 12) :=
    presentWords_last hroom hlast
  have hboth : presentWords buffer (fuel + 2) (fuel + 2) 4 =
      (presentWords buffer (fuel + 2) (fuel + 1) 8).map
        fun (words, stop) ↦ (load32 buffer 4 :: words, stop) :=
    presentWords_more (Nat.le_trans (by decide) hroom) hmore
  rw [hwords] at hboth
  rw [walk_words hlen hboth, takeWords_cons]
  exact congrArg _ (funext fun cursor ↦ takeWords_singleton ..)

/-! ## Taking fields -/

theorem fieldExtent_size {bit : ℕ} {extent : Extent} (h : fieldExtent bit = some extent) :
    0 < extent.size ∧ 0 < extent.align := by
  unfold fieldExtent at h
  split at h <;> cases h <;> decide

theorem takeField_eq_some {cursor next : Cursor} {bit : ℕ}
    (h : takeField itLen cursor bit = some next) :
    ∃ extent, fieldExtent bit = some extent ∧
      next.offset = roundUp extent.align cursor.offset + extent.size := by
  obtain ⟨extent, hextent, h⟩ := Option.bind_eq_some_iff.mp h
  obtain ⟨-, h⟩ := Option.ite_none_right_eq_some.mp h
  cases h
  exact ⟨extent, hextent, rfl⟩

/-- The size of a field. -/
def fieldSize (bit : ℕ) : ℕ := (fieldExtent bit).elim 0 Extent.size

theorem le_takeField {cursor next : Cursor} {bit : ℕ}
    (h : takeField itLen cursor bit = some next) :
    cursor.offset + fieldSize bit ≤ next.offset := by
  obtain ⟨extent, hextent, hoffset⟩ := takeField_eq_some h
  have hle := le_roundUp (fieldExtent_size hextent).2 cursor.offset
  rw [fieldSize, hextent, hoffset]
  exact Nat.add_le_add_right hle _

/-- The fields take at least the bytes they have. -/
theorem le_takeFields {firstBit : ℕ} {cursor next : Cursor} {bits : List ℕ}
    (h : bits.foldlM (fun cursor bit ↦ takeField itLen cursor (firstBit + bit)) cursor =
      some next) :
    cursor.offset + (bits.map fun bit ↦ fieldSize (firstBit + bit)).sum ≤ next.offset := by
  induction bits generalizing cursor with
  | nil =>
    cases h
    exact Nat.le_refl _
  | cons bit bits ih =>
    rw [List.foldlM_cons] at h
    obtain ⟨middle, hmiddle, hrest⟩ := Option.bind_eq_some_iff.mp h
    have hhead := le_takeField hmiddle
    have htail := ih hrest
    rw [List.map_cons, List.sum_cons]
    omega

/-! ## Words at the end of the header -/

/-- Nothing can be taken behind the end. -/
theorem takeField_eq_none {itLen bit : ℕ} {cursor : Cursor} (h : itLen ≤ cursor.offset) :
    takeField itLen cursor bit = none := by
  unfold takeField
  cases hextent : fieldExtent bit with
  | none => rfl
  | some extent =>
    obtain ⟨hsize, halign⟩ := fieldExtent_size hextent
    have hle := le_roundUp halign cursor.offset
    exact if_neg (by omega)

theorem takeVendor_eq_none {buffer : ℕ → UInt8} {itLen : ℕ} {cursor : Cursor}
    (h : itLen ≤ cursor.offset) : takeVendor buffer itLen cursor = none := by
  have hle := le_roundUp (show 0 < 2 by decide) cursor.offset
  exact if_neg (by omega)

/-- The word stands for no field. -/
def Quiet (ns : Namespace) (word : ℕ) : Prop :=
  word.testBit vendorBit = false ∧ (ns = .vendor ∨ fieldBits word = [])

instance (ns : Namespace) (word : ℕ) : Decidable (Quiet ns word) :=
  inferInstanceAs (Decidable (_ ∧ _))

theorem takeFields_at_end {itLen : ℕ} {ns : Namespace} {word : ℕ} {cursor : Cursor}
    (h : itLen ≤ cursor.offset) :
    takeFields itLen ns word cursor =
      if ns = .vendor ∨ fieldBits word = [] then some cursor else none := by
  cases ns with
  | vendor => rfl
  | standard firstBit =>
    unfold takeFields
    dsimp only
    cases hbits : fieldBits word with
    | nil => rfl
    | cons bit bits => simp [takeField_eq_none h]

/-- At the end of the header a word is accepted exactly when it stands for no field. -/
theorem takeWord_at_end {buffer : ℕ → UInt8} {itLen : ℕ} {ns : Namespace} {word : ℕ}
    {cursor : Cursor} (h : itLen ≤ cursor.offset) :
    takeWord buffer itLen ns word cursor = if Quiet ns word then some cursor else none := by
  unfold takeWord
  rw [takeFields_at_end h]
  by_cases hfields : ns = .vendor ∨ fieldBits word = []
  · rw [if_pos hfields, Option.bind_eq_bind, Option.bind_some]
    by_cases hvendor : word.testBit vendorBit = true
    · have hquiet : ¬Quiet ns word := fun hquiet ↦
        Bool.noConfusion (hvendor.symm.trans hquiet.1)
      rw [if_pos hvendor, if_neg hquiet, takeVendor_eq_none h]
    · rw [if_neg hvendor, if_pos ⟨Bool.eq_false_of_not_eq_true hvendor, hfields⟩]
      rfl
  · rw [if_neg hfields, if_neg fun hquiet ↦ hfields hquiet.2]
    rfl

end BroadcomWl.Formats.Radiotap
