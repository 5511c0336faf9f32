import Mathlib.Data.Nat.Basic
import Mathlib.Data.Vector.Basic
import Mathlib.Tactic.Common

/-!
# Byte arrays and bit masks

Copies into arrays of bytes, with a source that is read as a function of the position, and
what a masked word says about its other bits.
-/

namespace BroadcomWl.Memory

variable {n : ℕ}

/-- `memcpy` of `len` bytes from `source` to position `offset` of an array. -/
def memcpy (target : Vector UInt8 n) (offset : ℕ) (source : ℕ → UInt8) (len : ℕ) :
    Vector UInt8 n :=
  Vector.ofFn fun i ↦
    if offset ≤ i.val ∧ i.val < offset + len then source (i.val - offset) else target.get i

/-- The bytes of an array from `offset` on, as the source of a copy. -/
def readAt (array : Vector UInt8 n) (offset : ℕ) : ℕ → UInt8 := fun i ↦
  array.toArray.getD (offset + i) 0

/-- So many bytes from `offset` on. -/
def slice (source : ℕ → UInt8) (offset len : ℕ) : List UInt8 :=
  (List.range len).map fun i ↦ source (offset + i)

@[simp]
theorem length_slice (source : ℕ → UInt8) (offset len : ℕ) :
    (slice source offset len).length = len := by simp [slice]

theorem getElem?_slice (source : ℕ → UInt8) (offset len i : ℕ) :
    (slice source offset len)[i]? = if i < len then some (source (offset + i)) else none := by
  by_cases hi : i < len
  · simp [slice, hi]
  · rw [if_neg hi, List.getElem?_eq_none]
    rw [length_slice]
    omega

theorem slice_add (source : ℕ → UInt8) (offset first second : ℕ) :
    slice source offset (first + second) =
      slice source offset first ++ slice source (offset + first) second := by
  unfold slice
  rw [List.range_add, List.map_append, List.map_map]
  congr 2
  funext i
  rw [Function.comp_apply, Nat.add_assoc]

theorem slice_congr {source source' : ℕ → UInt8} {offset offset' len : ℕ}
    (h : ∀ i < len, source (offset + i) = source' (offset' + i)) :
    slice source offset len = slice source' offset' len :=
  List.map_congr_left fun i hi ↦ h i (List.mem_range.mp hi)

/-- Only the bytes that are copied matter. -/
theorem memcpy_congr {source source' : ℕ → UInt8} {len : ℕ} (h : ∀ i < len, source i = source' i)
    (target : Vector UInt8 n) (offset : ℕ) :
    memcpy target offset source len = memcpy target offset source' len := by
  unfold memcpy
  congr 1
  funext i
  by_cases hi : offset ≤ i.val ∧ i.val < offset + len
  · rw [if_pos hi, if_pos hi, h _ (by omega)]
  · rw [if_neg hi, if_neg hi]

theorem getElem_memcpy (target : Vector UInt8 n) (offset : ℕ) (source : ℕ → UInt8) (len : ℕ)
    {i : ℕ} (hi : i < n) :
    (memcpy target offset source len)[i] =
      if offset ≤ i ∧ i < offset + len then source (i - offset) else target[i] := by
  unfold memcpy
  rw [Vector.getElem_ofFn]
  rfl

/-- What a copy leaves in an array that it fits in. -/
theorem readAt_memcpy {target : Vector UInt8 n} {offset len : ℕ} {source : ℕ → UInt8}
    (h : offset + len ≤ n) (i : ℕ) :
    readAt (memcpy target offset source len) 0 i =
      if offset ≤ i ∧ i < offset + len then source (i - offset) else readAt target 0 i := by
  unfold readAt
  rw [Nat.zero_add]
  by_cases hi : i < n
  · simp [memcpy, Array.getD, hi, Vector.get]
  · simp [memcpy, Array.getD, hi]
    omega

theorem bitVec_and_or_eq_right_iff {w : ℕ} (word mask bits : BitVec w) :
    word &&& mask ||| bits = bits ↔ word &&& (mask &&& ~~~bits) = 0#w := by
  constructor
  · intro h
    ext i hi
    have hbit : (word &&& mask ||| bits)[i] = bits[i] := by rw [h]
    simp only [BitVec.getElem_and, BitVec.getElem_not, BitVec.getElem_zero]
    grind
  · intro h
    ext i hi
    have hbit : (word &&& (mask &&& ~~~bits))[i] = (0#w)[i] := by rw [h]
    simp only [BitVec.getElem_and, BitVec.getElem_not, BitVec.getElem_zero] at hbit
    grind

/-- A masked word joined with `bits` is `bits` when the mask leaves no other bit. -/
theorem and_or_eq_right_iff (word mask bits : Int32) :
    word &&& mask ||| bits = bits ↔ word &&& (mask &&& ~~~bits) = 0 := by
  rw [← Int32.toBitVec_inj, ← Int32.toBitVec_inj]
  exact bitVec_and_or_eq_right_iff word.toBitVec mask.toBitVec bits.toBitVec

/-- A word joined with `bits` is `bits` when it has no other bit. -/
theorem or_eq_right_iff (word bits : UInt32) : word ||| bits = bits ↔ word &&& ~~~bits = 0 := by
  have hwhole := bitVec_and_or_eq_right_iff word.toBitVec (BitVec.allOnes 32) bits.toBitVec
  rw [BitVec.and_allOnes, BitVec.allOnes_and] at hwhole
  rw [← UInt32.toBitVec_inj, ← UInt32.toBitVec_inj]
  exact hwhole

/-- A word joined with `bits` keeps them. -/
theorem or_ne {bits value : Int32} (word : Int32) (h : value &&& bits ≠ bits) :
    word ||| bits ≠ value := by
  rintro rfl
  refine h ?_
  rw [← Int32.toBitVec_inj]
  ext i hi
  simp only [Int32.toBitVec_or, Int32.toBitVec_and, BitVec.getElem_and, BitVec.getElem_or]
  grind

theorem bitVec_replace_and {w : ℕ} {mask bits : BitVec w} (word : BitVec w)
    (h : bits &&& mask = bits) : (word &&& ~~~mask ||| bits) &&& mask = bits := by
  ext i hi
  have hbit : (bits &&& mask)[i] = bits[i] := by rw [h]
  simp only [BitVec.getElem_and] at hbit
  simp only [BitVec.getElem_and, BitVec.getElem_or, BitVec.getElem_not]
  grind

theorem bitVec_replace_and_not {w : ℕ} {mask bits : BitVec w} (word : BitVec w)
    (h : bits &&& mask = bits) :
    (word &&& ~~~mask ||| bits) &&& ~~~mask = word &&& ~~~mask := by
  ext i hi
  have hbit : (bits &&& mask)[i] = bits[i] := by rw [h]
  simp only [BitVec.getElem_and] at hbit
  simp only [BitVec.getElem_and, BitVec.getElem_or, BitVec.getElem_not]
  grind

/-- Bits that are joined on a condition. -/
theorem ite_or_eq (p : Prop) [Decidable p] (word bits : UInt32) :
    (if p then word ||| bits else word) = word ||| (if p then bits else 0) := by
  by_cases h : p
  · rw [if_pos h, if_pos h]
  · rw [if_neg h, if_neg h, UInt32.or_zero]

/-- Joined bits of a mask are bits of it. -/
theorem or_and_of_mem {first second mask : UInt32} (hfirst : first &&& mask = first)
    (hsecond : second &&& mask = second) : (first ||| second) &&& mask = first ||| second := by
  rw [← UInt32.toBitVec_inj] at hfirst hsecond ⊢
  rw [UInt32.toBitVec_and, UInt32.toBitVec_or, BitVec.and_or_distrib_right,
    ← UInt32.toBitVec_and, ← UInt32.toBitVec_and, hfirst, hsecond]

theorem or_and_distrib (first second mask : UInt32) :
    (first ||| second) &&& mask = first &&& mask ||| second &&& mask := by
  rw [← UInt32.toBitVec_inj]
  exact BitVec.and_or_distrib_right

/-- Bits of a mask that were replaced are read back. -/
theorem replace_and {mask bits : UInt32} (word : UInt32) (h : bits &&& mask = bits) :
    (word &&& ~~~mask ||| bits) &&& mask = bits := by
  rw [← UInt32.toBitVec_inj] at h ⊢
  exact bitVec_replace_and word.toBitVec h

/-- The other bits are as they were. -/
theorem replace_and_not {mask bits : UInt32} (word : UInt32) (h : bits &&& mask = bits) :
    (word &&& ~~~mask ||| bits) &&& ~~~mask = word &&& ~~~mask := by
  rw [← UInt32.toBitVec_inj] at h ⊢
  exact bitVec_replace_and_not word.toBitVec h

/-- A word is what a mask selects together with the rest. -/
theorem and_not_or_and (word mask : UInt32) : word &&& ~~~mask ||| word &&& mask = word := by
  rw [← UInt32.toBitVec_inj]
  ext i hi
  simp only [UInt32.toBitVec_or, UInt32.toBitVec_and, UInt32.toBitVec_not, BitVec.getElem_or,
    BitVec.getElem_and, BitVec.getElem_not]
  grind

/-! ## Words inside a mask -/

/-- The word has no bits outside the mask. -/
def BitsWithin (word mask : UInt32) : Prop := word &&& ~~~mask = 0

instance (word mask : UInt32) : Decidable (BitsWithin word mask) :=
  inferInstanceAs (Decidable (_ = _))

theorem bitsWithin_iff {word mask : UInt32} : BitsWithin word mask ↔ word &&& mask = word := by
  constructor
  · intro h
    have hwhole := and_not_or_and word mask
    rwa [show word &&& ~~~mask = 0 from h, UInt32.zero_or] at hwhole
  · intro h
    change word &&& ~~~mask = 0
    rw [← h, UInt32.and_assoc, UInt32.and_not_self, UInt32.and_zero]

theorem zero_bitsWithin (mask : UInt32) : BitsWithin 0 mask := UInt32.zero_and

theorem BitsWithin.trans {first second third : UInt32} (h : BitsWithin first second)
    (hnext : BitsWithin second third) : BitsWithin first third := by
  rw [bitsWithin_iff] at h hnext ⊢
  rw [← h, UInt32.and_assoc, hnext]

theorem bitsWithin_or_left (first second : UInt32) : BitsWithin first (first ||| second) := by
  rw [bitsWithin_iff, ← UInt32.toBitVec_inj]
  ext i hi
  simp only [UInt32.toBitVec_or, UInt32.toBitVec_and, BitVec.getElem_or, BitVec.getElem_and]
  grind

theorem bitsWithin_or_right (first second : UInt32) : BitsWithin second (first ||| second) := by
  rw [UInt32.or_comm]
  exact bitsWithin_or_left second first

theorem BitsWithin.or {first second mask : UInt32} (hfirst : BitsWithin first mask)
    (hsecond : BitsWithin second mask) : BitsWithin (first ||| second) mask := by
  rw [bitsWithin_iff] at *
  exact or_and_of_mem hfirst hsecond

/-- What the word has in common with some bits, the mask has in common with them too. -/
theorem BitsWithin.and_ne_zero {word mask bits : UInt32} (h : BitsWithin word mask)
    (hbits : word &&& bits ≠ 0) : mask &&& bits ≠ 0 := by
  intro hzero
  rw [← bitsWithin_iff.mp h, UInt32.and_assoc, hzero, UInt32.and_zero] at hbits
  exact hbits rfl

end BroadcomWl.Memory
