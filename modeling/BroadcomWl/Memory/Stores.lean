import BroadcomWl.Memory.Bytes
import BroadcomWl.Memory.Layout

/-!
# Filling a buffer by stores

A buffer is a function from positions to bytes, and code fills it by a list of stores, the later
ones over the earlier ones. What a position holds afterwards is the byte of the last store that
covers it; a position that no store covers keeps what the buffer held before. So the contents do
not depend on the old ones exactly when every position is covered. Words are little-endian.
-/

namespace BroadcomWl.Memory

/-- Consecutive bytes written from a position on. -/
structure Store where
  offset : ℕ
  bytes : List UInt8
deriving DecidableEq, Repr

namespace Store

/-- The byte the store puts at a position. -/
def byteAt (store : Store) (i : ℕ) : Option UInt8 :=
  if store.offset ≤ i then store.bytes[i - store.offset]? else none

/-- The positions the store covers. -/
def span (store : Store) : Range := ⟨store.offset, store.bytes.length⟩

def apply (store : Store) (buffer : ℕ → UInt8) (i : ℕ) : UInt8 := (store.byteAt i).getD (buffer i)

end Store

/-- A position lies in a range. -/
def Range.Covers (range : Range) (i : ℕ) : Prop :=
  range.offset ≤ i ∧ i < range.offset + range.length

instance (range : Range) (i : ℕ) : Decidable (range.Covers i) :=
  inferInstanceAs (Decidable (_ ∧ _))

theorem Store.isSome_byteAt (store : Store) (i : ℕ) :
    (store.byteAt i).isSome = true ↔ store.span.Covers i := by
  unfold Store.byteAt Range.Covers Store.span
  by_cases hle : store.offset ≤ i
  · rw [if_pos hle, isSome_getElem?]
    dsimp only
    omega
  · rw [if_neg hle]
    exact iff_of_false Bool.false_ne_true fun h ↦ hle h.1

/-- All stores, in order. -/
def fill (stores : List Store) (buffer : ℕ → UInt8) : ℕ → UInt8 :=
  stores.foldl (fun filled store ↦ store.apply filled) buffer

/-- The byte that the stores leave at a position. -/
def lastByte (stores : List Store) (i : ℕ) : Option UInt8 :=
  match stores with
  | [] => none
  | store :: rest => (lastByte rest i).or (store.byteAt i)

theorem fill_apply (stores : List Store) (buffer : ℕ → UInt8) (i : ℕ) :
    fill stores buffer i = (lastByte stores i).getD (buffer i) := by
  induction stores generalizing buffer with
  | nil => rfl
  | cons store rest ih =>
    rw [fill, List.foldl_cons]
    refine (ih _).trans ?_
    rw [lastByte]
    cases lastByte rest i with
    | none => rfl
    | some byte => rfl

/-- Some store covers the position. -/
def Covered (stores : List Store) (i : ℕ) : Prop := ∃ store ∈ stores, store.span.Covers i

instance (stores : List Store) (i : ℕ) : Decidable (Covered stores i) :=
  inferInstanceAs (Decidable (∃ store ∈ stores, store.span.Covers i))

theorem not_covered_nil (i : ℕ) : ¬Covered [] i := fun ⟨_, hstore, _⟩ ↦ List.not_mem_nil hstore

theorem covered_singleton {store : Store} {i : ℕ} : Covered [store] i ↔ store.span.Covers i := by
  simp only [Covered, List.mem_singleton, exists_eq_left]

theorem covered_cons {store : Store} {rest : List Store} {i : ℕ} :
    Covered (store :: rest) i ↔ store.span.Covers i ∨ Covered rest i := by
  simp only [Covered, List.mem_cons, or_and_right, exists_or, exists_eq_left]

theorem isSome_lastByte (stores : List Store) (i : ℕ) :
    (lastByte stores i).isSome = true ↔ Covered stores i := by
  induction stores with
  | nil => simp [lastByte, Covered]
  | cons store rest ih =>
    rw [lastByte, Option.isSome_or, Bool.or_eq_true, ih, store.isSome_byteAt, covered_cons]
    exact or_comm

/-- Only the spans of the stores matter. -/
theorem covered_iff_spans {stores : List Store} {i : ℕ} :
    Covered stores i ↔ ∃ range ∈ stores.map Store.span, range.Covers i := by
  simp only [Covered, List.mem_map, exists_exists_and_eq_and]

theorem covered_append {first second : List Store} {i : ℕ} :
    Covered (first ++ second) i ↔ Covered first i ∨ Covered second i := by
  unfold Covered
  simp only [List.mem_append, or_and_right, exists_or]

/-- A covered position holds the same in every run; an uncovered one keeps what it held. -/
theorem fill_independent_iff (stores : List Store) (i : ℕ) :
    (∀ buffer buffer' : ℕ → UInt8, fill stores buffer i = fill stores buffer' i) ↔
      Covered stores i := by
  rw [← isSome_lastByte]
  constructor
  · intro h
    have hzero := h (fun _ ↦ 0) fun _ ↦ 1
    rw [fill_apply, fill_apply] at hzero
    cases hlast : lastByte stores i with
    | none =>
      rw [hlast] at hzero
      exact absurd hzero (by decide)
    | some byte => rfl
  · intro h buffer buffer'
    obtain ⟨byte, hbyte⟩ := Option.isSome_iff_exists.mp h
    rw [fill_apply, fill_apply, hbyte]
    rfl

/-! ## What a filled buffer holds -/

/-- The stores leave `bytes` from a position on. -/
def Holds (stores : List Store) (offset : ℕ) (bytes : List UInt8) : Prop :=
  ∀ i byte, bytes[i]? = some byte → lastByte stores (offset + i) = some byte

/-- Read off the stores by computation. -/
theorem Holds.of_map {stores : List Store} {offset : ℕ} {bytes : List UInt8}
    (h : (List.range bytes.length).map (fun i ↦ lastByte stores (offset + i)) = bytes.map some) :
    Holds stores offset bytes := by
  intro i byte hbyte
  have hi : i < bytes.length := (List.getElem?_eq_some_iff.mp hbyte).1
  have hget := congrArg (·[i]?) h
  simp only [List.getElem?_map, List.getElem?_range hi, hbyte, Option.map_some] at hget
  exact Option.some.inj hget

theorem lastByte_append (first second : List Store) (i : ℕ) :
    lastByte (first ++ second) i = (lastByte second i).or (lastByte first i) := by
  induction first with
  | nil => exact (Option.or_none).symm
  | cons store rest ih =>
    rw [List.cons_append, lastByte, lastByte, ih, Option.or_assoc]

theorem lastByte_eq_none {stores : List Store} {i : ℕ} (h : ¬Covered stores i) :
    lastByte stores i = none := by
  rw [← isSome_lastByte] at h
  simpa using h

theorem fill_of_not_covered {stores : List Store} {i : ℕ} (h : ¬Covered stores i)
    (buffer : ℕ → UInt8) : fill stores buffer i = buffer i := by
  rw [fill_apply, lastByte_eq_none h]
  rfl

/-- Stores elsewhere do not change what is held. -/
theorem Holds.append_of_disjoint {stores rest : List Store} {offset : ℕ} {bytes : List UInt8}
    (h : Holds stores offset bytes)
    (hrest : ∀ i, Covered rest i → i < offset ∨ offset + bytes.length ≤ i) :
    Holds (stores ++ rest) offset bytes := by
  intro i byte hbyte
  have hi : i < bytes.length := (List.getElem?_eq_some_iff.mp hbyte).1
  rw [lastByte_append, lastByte_eq_none fun hcovered ↦ ?_, Option.none_or, h i byte hbyte]
  have houtside := hrest _ hcovered
  omega

/-- Stores behind it do not change what is held. -/
theorem Holds.append {stores rest : List Store} {offset size : ℕ} {bytes : List UInt8}
    (h : Holds stores offset bytes) (hsize : offset + bytes.length ≤ size)
    (hrest : ∀ i, Covered rest i → size ≤ i) : Holds (stores ++ rest) offset bytes :=
  h.append_of_disjoint fun i hi ↦ .inr (hsize.trans (hrest i hi))

/-- Read off the first stores by computation, with other stores behind them. -/
theorem Holds.of_map_append {stores rest : List Store} {offset size : ℕ} {bytes : List UInt8}
    (hrest : ∀ i, Covered rest i → size ≤ i)
    (hmap : (List.range bytes.length).map (fun i ↦ lastByte stores (offset + i)) =
      bytes.map some)
    (hsize : (offset + bytes.length).ble size = true) : Holds (stores ++ rest) offset bytes :=
  (Holds.of_map hmap).append (Nat.le_of_ble_eq_true hsize) hrest

theorem Holds.single (offset : ℕ) (bytes : List UInt8) : Holds [⟨offset, bytes⟩] offset bytes := by
  intro i byte hbyte
  rw [lastByte, lastByte, Option.none_or, Store.byteAt, if_pos (Nat.le_add_right ..),
    Nat.add_sub_cancel_left]
  exact hbyte

/-- An earlier store does not change what is held. -/
theorem Holds.cons {stores : List Store} {offset : ℕ} {bytes : List UInt8} (store : Store)
    (h : Holds stores offset bytes) : Holds (store :: stores) offset bytes := by
  intro i byte hbyte
  rw [lastByte, h i byte hbyte]
  rfl

/-- Earlier stores do not change what is held. -/
theorem Holds.prepend {stores : List Store} {offset : ℕ} {bytes : List UInt8}
    (h : Holds stores offset bytes) (first : List Store) :
    Holds (first ++ stores) offset bytes := by
  induction first with
  | nil => exact h
  | cons store first ih => exact ih.cons store

/-- Two stores have no position in common. -/
def Store.Disjoint (first second : Store) : Prop :=
  first.offset + first.bytes.length ≤ second.offset ∨
    second.offset + second.bytes.length ≤ first.offset

/-- Of stores that have no position in common, every one is held. -/
theorem Holds.of_pairwise {stores : List Store} (h : stores.Pairwise Store.Disjoint)
    {store : Store} (hstore : store ∈ stores) : Holds stores store.offset store.bytes := by
  induction stores with
  | nil => cases hstore
  | cons first rest ih =>
    obtain ⟨hfirst, hrest⟩ := List.pairwise_cons.mp h
    rcases List.mem_cons.mp hstore with rfl | hmem
    · refine (Holds.single store.offset store.bytes).append_of_disjoint fun i hi ↦ ?_
      obtain ⟨other, hother, hcovers⟩ := hi
      have hcovers : other.offset ≤ i ∧ i < other.offset + other.bytes.length := hcovers
      rcases hfirst other hother with hbefore | hbehind
      · exact .inr (hbefore.trans hcovers.1)
      · exact .inl (hcovers.2.trans_le hbehind)
    · exact (ih hrest hmem).cons first

/-- The bytes behind the first ones. -/
theorem Holds.drop {stores : List Store} {offset : ℕ} {first bytes : List UInt8}
    (h : Holds stores offset (first ++ bytes)) : Holds stores (offset + first.length) bytes := by
  intro i byte hbyte
  rw [Nat.add_assoc]
  refine h _ _ ?_
  rw [List.getElem?_append_right (Nat.le_add_right ..), Nat.add_sub_cancel_left]
  exact hbyte

/-- The first bytes. -/
theorem Holds.left {stores : List Store} {offset : ℕ} {first bytes : List UInt8}
    (h : Holds stores offset (first ++ bytes)) : Holds stores offset first := by
  intro i byte hbyte
  refine h i byte ?_
  rw [List.getElem?_append_left (List.getElem?_eq_some_iff.mp hbyte).1]
  exact hbyte

/-- Bytes that are held one behind the other. -/
theorem Holds.concat {stores : List Store} {offset : ℕ} {first bytes : List UInt8}
    (hfirst : Holds stores offset first) (hbytes : Holds stores (offset + first.length) bytes) :
    Holds stores offset (first ++ bytes) := by
  intro i byte hbyte
  by_cases hi : i < first.length
  · rw [List.getElem?_append_left hi] at hbyte
    exact hfirst i byte hbyte
  · rw [List.getElem?_append_right (Nat.not_lt.mp hi)] at hbyte
    have hbehind := hbytes _ _ hbyte
    rwa [Nat.add_assoc, Nat.add_sub_cancel' (Nat.not_lt.mp hi)] at hbehind

theorem Holds.byte {stores : List Store} {offset : ℕ} {byte : UInt8} {bytes : List UInt8}
    (h : Holds stores offset (byte :: bytes)) (buffer : ℕ → UInt8) :
    fill stores buffer offset = byte := by
  rw [fill_apply, show lastByte stores offset = some byte from h 0 byte rfl]
  rfl

theorem Holds.tail {stores : List Store} {offset : ℕ} {byte : UInt8} {bytes : List UInt8}
    (h : Holds stores offset (byte :: bytes)) : Holds stores (offset + 1) bytes := by
  intro i other hother
  have hnext := h (i + 1) other hother
  rwa [← Nat.add_assoc, Nat.add_right_comm] at hnext

/-- What is held is what is read. -/
theorem Holds.slice {stores : List Store} {offset : ℕ} {bytes : List UInt8}
    (h : Holds stores offset bytes) (buffer : ℕ → UInt8) :
    slice (fill stores buffer) offset bytes.length = bytes := by
  refine List.ext_getElem? fun i ↦ ?_
  rw [getElem?_slice]
  split
  next hi =>
    have hbyte := h i bytes[i] (List.getElem?_eq_getElem hi)
    rw [fill_apply, hbyte, List.getElem?_eq_getElem hi]
    rfl
  next hi => rw [List.getElem?_eq_none (Nat.not_lt.mp hi)]

/-! ## Little-endian words -/

def le16 (value : ℕ) : List UInt8 := [UInt8.ofNat value, UInt8.ofNat (value / 256)]

def le32 (value : ℕ) : List UInt8 := le16 value ++ le16 (value / 65536)

def load16 (buffer : ℕ → UInt8) (i : ℕ) : ℕ := (buffer i).toNat + 256 * (buffer (i + 1)).toNat

def load32 (buffer : ℕ → UInt8) (i : ℕ) : ℕ := load16 buffer i + 65536 * load16 buffer (i + 2)

/-- What was stored as two bytes is read back modulo their width. -/
theorem Holds.load16 {stores : List Store} {offset value : ℕ} {bytes : List UInt8}
    (h : Holds stores offset (le16 value ++ bytes)) (buffer : ℕ → UInt8) :
    load16 (fill stores buffer) offset = value % 65536 := by
  unfold Memory.load16
  rw [Holds.byte h, Holds.byte (Holds.tail h), UInt8.toNat_ofNat', UInt8.toNat_ofNat']
  omega

/-- What was stored as four bytes is read back modulo their width. -/
theorem Holds.load32 {stores : List Store} {offset value : ℕ} {bytes : List UInt8}
    (h : Holds stores offset (le32 value ++ bytes)) (buffer : ℕ → UInt8) :
    load32 (fill stores buffer) offset = value % 4294967296 := by
  have hwords : Holds stores offset (le16 value ++ (le16 (value / 65536) ++ bytes)) := h
  have hlow : Memory.load16 (fill stores buffer) offset = value % 65536 :=
    Holds.load16 hwords buffer
  have hhigh : Memory.load16 (fill stores buffer) (offset + 2) = value / 65536 % 65536 :=
    Holds.load16 (Holds.tail (Holds.tail h)) buffer
  unfold Memory.load32
  rw [hlow, hhigh]
  omega

end BroadcomWl.Memory
