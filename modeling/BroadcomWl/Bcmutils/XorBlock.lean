import BroadcomWl.Memory.Words

/-!
# The exclusive or of two blocks

`xor_128bit_block` goes by four words when the three addresses are aligned, and on i386 always;
otherwise it goes by sixteen bytes. On the same memory the two paths may differ only when a source
begins one to three bytes before the target. Aligned addresses exclude that; on i386 nothing does.

Memory is a function from addresses to bytes, and a block does not wrap around. The statements are
executed in the order in which they are written.
-/

namespace BroadcomWl.Bcmutils

open BroadcomWl.Memory

/-- One of the statements for words. -/
def xorWord (order : ByteOrder) (src1 src2 dst k : ℕ) (mem : ℕ → UInt8) : ℕ → UInt8 :=
  order.storeWord mem (dst + 4 * k)
    (order.loadWord mem (src1 + 4 * k) ^^^ order.loadWord mem (src2 + 4 * k))

def xorWords (order : ByteOrder) (src1 src2 dst : ℕ) (mem : ℕ → UInt8) : ℕ → UInt8 :=
  let mem := xorWord order src1 src2 dst 0 mem
  let mem := xorWord order src1 src2 dst 1 mem
  let mem := xorWord order src1 src2 dst 2 mem
  xorWord order src1 src2 dst 3 mem

def xorBytes (src1 src2 dst : ℕ) (mem : ℕ → UInt8) : ℕ → UInt8 :=
  (List.range 16).foldl
    (fun mem k ↦ Function.update mem (dst + k) (mem (src1 + k) ^^^ mem (src2 + k))) mem

/-- `xor_128bit_block`; `i386` tells whether `__i386__` is defined. -/
def xor128bitBlock (i386 : Bool) (order : ByteOrder) (src1 src2 dst : ℕ) (mem : ℕ → UInt8) :
    ℕ → UInt8 :=
  if i386 ∨ (src1 ||| src2 ||| dst) &&& 3 = 0 then xorWords order src1 src2 dst mem
  else xorBytes src1 src2 dst mem

section Paths

variable (order : ByteOrder) {src1 src2 dst : ℕ} (mem : ℕ → UInt8)

theorem xorWord_eq (k : ℕ) :
    xorWord order src1 src2 dst k mem =
      combine (· ^^^ ·) 4 (src1 + 4 * k) (src2 + 4 * k) (dst + 4 * k) mem :=
  order.storeWord_xor mem ..

theorem xorWords_eq :
    xorWords order src1 src2 dst mem = combineSteps (· ^^^ ·) 4 src1 src2 dst 4 mem := by
  unfold xorWords
  rw [xorWord_eq, xorWord_eq, xorWord_eq, xorWord_eq]
  rfl

theorem xorBytes_eq :
    xorBytes src1 src2 dst mem = combineSteps (· ^^^ ·) 1 src1 src2 dst 16 mem := by
  unfold xorBytes combineSteps
  congr 1
  funext mem k
  rw [combine, overwrite_one, Nat.one_mul]
  rfl

/-- The paths agree when no source begins one to three bytes before the target. -/
theorem xorWords_eq_xorBytes (h1 : Clear 4 src1 dst) (h2 : Clear 4 src2 dst) :
    xorWords order src1 src2 dst mem = xorBytes src1 src2 dst mem := by
  rw [xorWords_eq, xorBytes_eq]
  exact (combineSteps_mul mem h1 h2 4).symm

/-- With aligned addresses both paths leave the same memory, however the blocks overlap. -/
theorem xor_paths_agree (h1 : 4 ∣ src1) (h2 : 4 ∣ src2) (hdst : 4 ∣ dst) :
    xorWords order src1 src2 dst mem = xorBytes src1 src2 dst mem := by
  have hclear1 : Clear 4 src1 dst := clear_of_dvd h1 hdst
  have hclear2 : Clear 4 src2 dst := clear_of_dvd h2 hdst
  exact xorWords_eq_xorBytes order mem hclear1 hclear2

/-- The target is a word behind one source and a word before the other. -/
theorem xor_paths_agree_overlapping :
    xorWords .big 0 8 4 UInt8.ofNat = xorBytes 0 8 4 UInt8.ofNat ∧
      (List.range 16).map (fun i ↦ xorBytes 0 8 4 UInt8.ofNat (4 + i)) =
        [8, 8, 8, 8, 4, 5, 6, 7, 20, 20, 20, 20, 0, 1, 2, 3] :=
  ⟨xor_paths_agree .big UInt8.ofNat (by decide) (by decide) (by decide), by decide⟩

end Paths

/-! ## When the paths differ -/

section Near

variable {order : ByteOrder} {src1 src2 dst : ℕ}

theorem xorWords_comm (mem : ℕ → UInt8) :
    xorWords order src1 src2 dst mem = xorWords order src2 src1 dst mem := by
  rw [xorWords_eq, xorWords_eq]
  exact combineSteps_comm UInt8.xor_comm ..

theorem xorBytes_comm (mem : ℕ → UInt8) :
    xorBytes src1 src2 dst mem = xorBytes src2 src1 dst mem := by
  rw [xorBytes_eq, xorBytes_eq]
  exact combineSteps_comm UInt8.xor_comm ..

/-- A block combined with itself is cleared by both paths. -/
theorem xorWords_self (src : ℕ) (mem : ℕ → UInt8) :
    xorWords order src src dst mem = xorBytes src src dst mem := by
  rw [xorWords_eq, xorBytes_eq, combineSteps_self fun _ ↦ UInt8.xor_self,
    combineSteps_self fun _ ↦ UInt8.xor_self]

/-- When the first source begins one to three bytes before the target, and the second one not
between them, a one in the first byte of the first source tells the paths apart. -/
theorem xorWords_ne_xorBytes (hnear : src1 < dst ∧ dst < src1 + 4)
    (hother : src2 < src1 ∨ dst ≤ src2) :
    ∃ mem, xorWords order src1 src2 dst mem ≠ xorBytes src1 src2 dst mem := by
  obtain ⟨gap, rfl⟩ := Nat.exists_eq_add_of_le (Nat.le_of_lt hnear.1)
  have hgap : 0 < gap ∧ gap < 4 := by omega
  let mem : ℕ → UInt8 := Function.update (fun _ ↦ 0) src1 1
  have hsrc1 : mem src1 = 1 := Function.update_self ..
  have hzero : ∀ i, i ≠ src1 → mem i = 0 := fun i hi ↦ Function.update_of_ne hi ..
  refine ⟨mem, fun h ↦ ?_⟩
  -- the byte of the target that is made from the target's first byte
  have hword : xorWords order src1 src2 (src1 + gap) mem (src1 + gap + gap) =
      mem (src1 + gap) ^^^ mem (src2 + gap) := by
    rw [xorWords_eq]
    exact combineSteps_apply_first mem (by decide) hgap.2
  have hbyte : xorBytes src1 src2 (src1 + gap) mem (src1 + gap + gap) =
      mem src1 ^^^ mem src2 ^^^ mem (src2 + gap) := by
    have hfirst : combineSteps (· ^^^ ·) 1 src1 src2 (src1 + gap) gap mem (src1 + gap) =
        mem src1 ^^^ mem src2 := combineSteps_apply_first mem hgap.1 Nat.zero_lt_one
    rw [xorBytes_eq, combineSteps_one_apply mem (by omega), hfirst,
      combineSteps_of_notMem mem (by omega)]
  rw [h, hbyte, UInt8.xor_left_inj, hsrc1, hzero src2 (by omega), hzero _ (by omega)] at hword
  exact absurd hword (by decide)

/-- The paths agree on every memory if and only if both sources are the same or none begins one to
three bytes before the target. -/
theorem xorWords_eq_xorBytes_iff :
    (∀ mem, xorWords order src1 src2 dst mem = xorBytes src1 src2 dst mem) ↔
      src1 = src2 ∨ Clear 4 src1 dst ∧ Clear 4 src2 dst := by
  constructor
  · intro h
    by_contra hnot
    have hnear : (src1 < dst ∧ dst < src1 + 4) ∧ (src2 < src1 ∨ dst ≤ src2) ∨
        (src2 < dst ∧ dst < src2 + 4) ∧ (src1 < src2 ∨ dst ≤ src1) := by
      unfold Clear at hnot
      omega
    rcases hnear with ⟨hnear, hother⟩ | ⟨hnear, hother⟩
    · obtain ⟨mem, hne⟩ := xorWords_ne_xorBytes hnear hother
      exact hne (h mem)
    · obtain ⟨mem, hne⟩ := xorWords_ne_xorBytes hnear hother
      rw [xorWords_comm, xorBytes_comm] at hne
      exact hne (h mem)
  · rintro (rfl | ⟨h1, h2⟩) mem
    · exact xorWords_self src1 mem
    · exact xorWords_eq_xorBytes order mem h1 h2

end Near

/-! ## The function -/

section Function

variable (order : ByteOrder) {src1 src2 dst : ℕ} (mem : ℕ → UInt8)

theorem and_three_eq_zero_iff (addr : ℕ) : addr &&& 3 = 0 ↔ 4 ∣ addr := by
  rw [show 3 = 2 ^ 2 - 1 from rfl, Nat.and_two_pow_sub_one_eq_mod]
  exact Nat.dvd_iff_mod_eq_zero.symm

/-- The test of the three addresses at once. -/
theorem aligned_iff :
    (src1 ||| src2 ||| dst) &&& 3 = 0 ↔ 4 ∣ src1 ∧ 4 ∣ src2 ∧ 4 ∣ dst := by
  rw [Nat.and_or_distrib_right, Nat.and_or_distrib_right, Nat.or_eq_zero_iff, Nat.or_eq_zero_iff,
    and_three_eq_zero_iff, and_three_eq_zero_iff, and_three_eq_zero_iff, and_assoc]

/-- Except on i386, every call does what the bytes say. -/
theorem xor128bitBlock_eq_xorBytes :
    xor128bitBlock false order src1 src2 dst mem = xorBytes src1 src2 dst mem := by
  unfold xor128bitBlock
  split
  next haligned =>
    obtain ⟨h1, h2, hdst⟩ := aligned_iff.mp (haligned.resolve_left Bool.false_ne_true)
    exact xorWords_eq_xorBytes order mem (clear_of_dvd h1 hdst) (clear_of_dvd h2 hdst)
  next => rfl

/-- On i386, a call does what the bytes say on every memory if and only if both sources are the same
or none begins one to three bytes before the target. -/
theorem xor128bitBlock_i386_iff :
    (∀ mem, xor128bitBlock true order src1 src2 dst mem = xorBytes src1 src2 dst mem) ↔
      src1 = src2 ∨ Clear 4 src1 dst ∧ Clear 4 src2 dst :=
  @xorWords_eq_xorBytes_iff order src1 src2 dst

/-- Unless a source begins less than a block before the target, the target becomes the exclusive or
of what the sources held, and nothing else changes. -/
theorem xor128bitBlock_of_clear (i386 : Bool) (h1 : Clear 16 src1 dst) (h2 : Clear 16 src2 dst) :
    xor128bitBlock i386 order src1 src2 dst mem = combine (· ^^^ ·) 16 src1 src2 dst mem := by
  have hbytes : xorBytes src1 src2 dst mem = combine (· ^^^ ·) 16 src1 src2 dst mem := by
    rw [xorBytes_eq]
    exact combineSteps_one mem h1 h2
  have hle : 4 ≤ 16 := by decide
  unfold xor128bitBlock
  split
  · rw [xorWords_eq_xorBytes order mem (h1.mono hle) (h2.mono hle), hbytes]
  · exact hbytes

/-- Whatever the overlap, only the target changes. -/
theorem xor128bitBlock_of_notMem (i386 : Bool) {i : ℕ} (hi : i < dst ∨ dst + 16 ≤ i) :
    xor128bitBlock i386 order src1 src2 dst mem i = mem i := by
  unfold xor128bitBlock
  split
  · rw [xorWords_eq]
    exact combineSteps_of_notMem mem hi
  · rw [xorBytes_eq]
    exact combineSteps_of_notMem mem hi

end Function

end BroadcomWl.Bcmutils
