import BroadcomWl.Memory.Combine
import Mathlib.Tactic.IntervalCases

/-!
# Words in the byte order of the host

Four bytes are read and written as one word of 32 bits. Whatever the byte order, an operation that
works on the bits of words one by one works on their bytes one by one.
-/

namespace BroadcomWl.Memory

inductive ByteOrder where
  | little
  | big
deriving DecidableEq, Repr

namespace ByteOrder

/-- Which byte of a word, counted from the lowest, lies at an offset, and at which offset a byte
lies. -/
def place : ByteOrder → ℕ → ℕ
  | .little, i => i
  | .big, i => 3 - i

/-- The byte of a word at an offset. -/
def byte (order : ByteOrder) (word : UInt32) (i : ℕ) : UInt8 :=
  ⟨word.toBitVec.extractLsb' (8 * order.place i) 8⟩

def loadWord (order : ByteOrder) (mem : ℕ → UInt8) (addr : ℕ) : UInt32 :=
  let byteAt i := (mem (addr + order.place i)).toBitVec
  ⟨byteAt 3 ++ byteAt 2 ++ byteAt 1 ++ byteAt 0⟩

def storeWord (order : ByteOrder) (mem : ℕ → UInt8) (addr : ℕ) (word : UInt32) : ℕ → UInt8 :=
  overwrite mem addr 4 (order.byte word)

theorem place_lt (order : ByteOrder) {i : ℕ} (hi : i < 4) : order.place i < 4 := by
  cases order with
  | little => exact hi
  | big => exact Nat.lt_succ_of_le (Nat.sub_le ..)

theorem place_place (order : ByteOrder) {i : ℕ} (hi : i < 4) :
    order.place (order.place i) = i := by
  cases order with
  | little => rfl
  | big => exact Nat.sub_sub_self (Nat.le_of_lt_succ hi)

theorem extractLsb'_bytes (byteAt : ℕ → BitVec 8) {i : ℕ} (hi : i < 4) :
    (byteAt 3 ++ byteAt 2 ++ byteAt 1 ++ byteAt 0).extractLsb' (8 * i) 8 = byteAt i := by
  interval_cases i
  · exact BitVec.extractLsb'_append_eq_right
  · rw [BitVec.extractLsb'_append_eq_of_le (by decide)]
    exact BitVec.extractLsb'_append_eq_right
  · rw [BitVec.extractLsb'_append_eq_of_le (by decide),
      BitVec.extractLsb'_append_eq_of_le (by decide)]
    exact BitVec.extractLsb'_append_eq_right
  · rw [BitVec.extractLsb'_append_eq_of_le (by decide),
      BitVec.extractLsb'_append_eq_of_le (by decide)]
    exact BitVec.extractLsb'_append_eq_left

theorem byte_loadWord (order : ByteOrder) (mem : ℕ → UInt8) (addr : ℕ) {i : ℕ} (hi : i < 4) :
    order.byte (order.loadWord mem addr) i = mem (addr + i) := by
  let byteAt := fun i ↦ (mem (addr + order.place i)).toBitVec
  have hbyte := extractLsb'_bytes byteAt (order.place_lt hi)
  unfold byte loadWord
  rw [hbyte]
  change mem (addr + order.place (order.place i)) = mem (addr + i)
  rw [order.place_place hi]

theorem byte_xor (order : ByteOrder) (first second : UInt32) (i : ℕ) :
    order.byte (first ^^^ second) i = order.byte first i ^^^ order.byte second i := by
  unfold byte
  rw [UInt32.toBitVec_xor, BitVec.extractLsb'_xor]
  rfl

/-- The exclusive or of two words is a step of four bytes. -/
theorem storeWord_xor (order : ByteOrder) (mem : ℕ → UInt8) (src1 src2 dst : ℕ) :
    order.storeWord mem dst (order.loadWord mem src1 ^^^ order.loadWord mem src2) =
      combine (· ^^^ ·) 4 src1 src2 dst mem := by
  apply overwrite_congr
  intro i hi
  rw [byte_xor, byte_loadWord order mem src1 hi, byte_loadWord order mem src2 hi]

end ByteOrder

end BroadcomWl.Memory
