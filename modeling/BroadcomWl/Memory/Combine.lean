import Mathlib.Data.List.Basic
import Mathlib.Logic.Function.Basic
import Mathlib.Tactic.Common

/-!
# Combining two ranges in steps

`f` combines the cells of two source ranges into a third range, some cells in one step. A step reads
its cells before it writes, and the steps follow one another. Where the ranges overlap, a later
step reads what an earlier one wrote, so the result may depend on how many cells a step takes. It
does not when no source begins less than a step before the target.
-/

namespace BroadcomWl.Memory

variable {α : Type*}

/-- `n` cells from `dst` on get new values. -/
def overwrite (mem : ℕ → α) (dst n : ℕ) (values : ℕ → α) : ℕ → α := fun i ↦
  if dst ≤ i ∧ i < dst + n then values (i - dst) else mem i

/-- One step of `n` cells. -/
def combine (f : α → α → α) (n src1 src2 dst : ℕ) (mem : ℕ → α) : ℕ → α :=
  overwrite mem dst n fun i ↦ f (mem (src1 + i)) (mem (src2 + i))

/-- So many steps of `n` cells, one behind the other. -/
def combineSteps (f : α → α → α) (n src1 src2 dst steps : ℕ) (mem : ℕ → α) : ℕ → α :=
  (List.range steps).foldl
    (fun mem k ↦ combine f n (src1 + n * k) (src2 + n * k) (dst + n * k) mem) mem

/-- The target does not begin one to `n - 1` cells behind the source. -/
def Clear (n src dst : ℕ) : Prop := dst ≤ src ∨ src + n ≤ dst

instance (n src dst : ℕ) : Decidable (Clear n src dst) := inferInstanceAs (Decidable (_ ∨ _))

theorem Clear.mono {m n src dst : ℕ} (h : Clear n src dst) (hle : m ≤ n) : Clear m src dst := by
  unfold Clear at h ⊢
  omega

theorem Clear.add {n src dst : ℕ} (h : Clear n src dst) (offset : ℕ) :
    Clear n (src + offset) (dst + offset) := by
  unfold Clear at h ⊢
  omega

/-- Addresses that are multiples of the size of a step are no less than a step apart. -/
theorem clear_of_dvd {n src dst : ℕ} (hsrc : n ∣ src) (hdst : n ∣ dst) : Clear n src dst := by
  by_cases hle : dst ≤ src
  · exact .inl hle
  · have hlt : src < dst := Nat.not_le.mp hle
    have hdiff : n ≤ dst - src :=
      Nat.le_of_dvd (Nat.sub_pos_of_lt hlt) (Nat.dvd_sub hdst hsrc)
    exact .inr (by omega)

theorem overwrite_of_mem {mem : ℕ → α} {dst n i : ℕ} {values : ℕ → α} (hi : i < n) :
    overwrite mem dst n values (dst + i) = values i := by
  unfold overwrite
  rw [if_pos ⟨Nat.le_add_right .., Nat.add_lt_add_left hi dst⟩, Nat.add_sub_cancel_left]

theorem overwrite_of_notMem {mem : ℕ → α} {dst n i : ℕ} {values : ℕ → α}
    (hi : i < dst ∨ dst + n ≤ i) : overwrite mem dst n values i = mem i := by
  unfold overwrite
  apply if_neg
  omega

theorem overwrite_congr {mem : ℕ → α} {dst n : ℕ} {values values' : ℕ → α}
    (h : ∀ i < n, values i = values' i) :
    overwrite mem dst n values = overwrite mem dst n values' := by
  funext i
  unfold overwrite
  split
  · apply h
    omega
  · rfl

theorem overwrite_one (mem : ℕ → α) (dst : ℕ) (values : ℕ → α) :
    overwrite mem dst 1 values = Function.update mem dst (values 0) := by
  funext i
  by_cases hi : i = dst
  · subst hi
    rw [Function.update_self]
    exact overwrite_of_mem Nat.zero_lt_one
  · rw [Function.update_of_ne hi]
    apply overwrite_of_notMem
    omega

/-- Cells that are written one behind the other. -/
theorem overwrite_overwrite (mem : ℕ → α) (dst m n : ℕ) (values values' : ℕ → α) :
    overwrite (overwrite mem dst m values) (dst + m) n values' =
      overwrite mem dst (m + n) fun i ↦ if i < m then values i else values' (i - m) := by
  funext i
  by_cases hlow : i < dst ∨ dst + (m + n) ≤ i
  · rw [overwrite_of_notMem hlow, overwrite_of_notMem, overwrite_of_notMem] <;> omega
  have hdst : dst ≤ i := by omega
  obtain ⟨j, rfl⟩ := Nat.exists_eq_add_of_le hdst
  rw [overwrite_of_mem (show j < m + n by omega)]
  by_cases hj : j < m
  · rw [if_pos hj, overwrite_of_notMem (by omega), overwrite_of_mem hj]
  · obtain ⟨k, rfl⟩ := Nat.exists_eq_add_of_le (Nat.not_lt.mp hj)
    rw [if_neg hj, Nat.add_sub_cancel_left, ← Nat.add_assoc, overwrite_of_mem (by omega)]

variable {f : α → α → α} {n src1 src2 dst : ℕ}

/-- A step in two parts: the second reads what the first left alone. -/
theorem combine_add {m : ℕ} (mem : ℕ → α) (h1 : Clear (m + n) src1 dst)
    (h2 : Clear (m + n) src2 dst) :
    combine f n (src1 + m) (src2 + m) (dst + m) (combine f m src1 src2 dst mem) =
      combine f (m + n) src1 src2 dst mem := by
  have hkept : ∀ {src : ℕ}, Clear (m + n) src dst → ∀ i < n,
      combine f m src1 src2 dst mem (src + m + i) = mem (src + m + i) := by
    intro src hclear i hi
    apply overwrite_of_notMem
    unfold Clear at hclear
    omega
  rw [combine, combine, overwrite_overwrite, combine]
  apply overwrite_congr
  intro i hi
  split
  · rfl
  · have hj : i - m < n := by omega
    have hread1 := hkept h1 (i - m) hj
    have hread2 := hkept h2 (i - m) hj
    unfold combine at hread1 hread2
    rw [hread1, hread2, Nat.add_assoc, Nat.add_assoc, Nat.add_sub_of_le (by omega)]

theorem combineSteps_succ (steps : ℕ) (mem : ℕ → α) :
    combineSteps f n src1 src2 dst (steps + 1) mem =
      combine f n (src1 + n * steps) (src2 + n * steps) (dst + n * steps)
        (combineSteps f n src1 src2 dst steps mem) := by
  unfold combineSteps
  rw [List.range_succ, List.foldl_append]
  rfl

theorem combineSteps_add (first second : ℕ) (mem : ℕ → α) :
    combineSteps f n src1 src2 dst (first + second) mem =
      combineSteps f n (src1 + n * first) (src2 + n * first) (dst + n * first) second
        (combineSteps f n src1 src2 dst first mem) := by
  induction second with
  | zero => rfl
  | succ second ih =>
    rw [← Nat.add_assoc, combineSteps_succ, ih, combineSteps_succ, Nat.mul_add]
    simp only [Nat.add_assoc]

/-- A step of `n` cells is `n` steps of one. -/
theorem combineSteps_one (mem : ℕ → α) (h1 : Clear n src1 dst) (h2 : Clear n src2 dst) :
    combineSteps f 1 src1 src2 dst n mem = combine f n src1 src2 dst mem := by
  induction n with
  | zero =>
    funext i
    exact (overwrite_of_notMem (by omega)).symm
  | succ n ih =>
    have hle : n ≤ n + 1 := Nat.le_succ n
    rw [combineSteps_succ, ih (h1.mono hle) (h2.mono hle), Nat.one_mul]
    exact combine_add mem h1 h2

/-- Cell by cell and in steps of `n` cells the result is the same. -/
theorem combineSteps_mul (mem : ℕ → α) (h1 : Clear n src1 dst) (h2 : Clear n src2 dst)
    (steps : ℕ) :
    combineSteps f 1 src1 src2 dst (n * steps) mem = combineSteps f n src1 src2 dst steps mem := by
  induction steps with
  | zero => rfl
  | succ steps ih =>
    calc
      combineSteps f 1 src1 src2 dst (n * (steps + 1)) mem =
          combineSteps f 1 (src1 + n * steps) (src2 + n * steps) (dst + n * steps) n
            (combineSteps f 1 src1 src2 dst (n * steps) mem) := by
        rw [Nat.mul_succ, combineSteps_add, Nat.one_mul]
      _ = combine f n (src1 + n * steps) (src2 + n * steps) (dst + n * steps)
            (combineSteps f 1 src1 src2 dst (n * steps) mem) :=
        combineSteps_one _ (h1.add _) (h2.add _)
      _ = combineSteps f n src1 src2 dst (steps + 1) mem := by
        rw [ih, combineSteps_succ]

/-- The cells outside the target are left alone. -/
theorem combineSteps_of_notMem {steps i : ℕ} (mem : ℕ → α) (hi : i < dst ∨ dst + n * steps ≤ i) :
    combineSteps f n src1 src2 dst steps mem i = mem i := by
  induction steps with
  | zero => rfl
  | succ steps ih =>
    rw [Nat.mul_succ] at hi
    rw [combineSteps_succ]
    refine (overwrite_of_notMem (by omega)).trans ?_
    apply ih
    omega

/-- A cell of the target is written once, from what its step reads. -/
theorem combineSteps_apply {steps k i : ℕ} (mem : ℕ → α) (hk : k < steps) (hi : i < n) :
    combineSteps f n src1 src2 dst steps mem (dst + n * k + i) =
      f (combineSteps f n src1 src2 dst k mem (src1 + n * k + i))
        (combineSteps f n src1 src2 dst k mem (src2 + n * k + i)) := by
  obtain ⟨rest, rfl⟩ := Nat.exists_eq_add_of_le (Nat.succ_le_of_lt hk)
  rw [combineSteps_add, combineSteps_of_notMem, combineSteps_succ]
  · exact overwrite_of_mem hi
  · left
    rw [Nat.mul_succ]
    omega

/-- The first step reads what was there. -/
theorem combineSteps_apply_first {steps i : ℕ} (mem : ℕ → α) (hsteps : 0 < steps) (hi : i < n) :
    combineSteps f n src1 src2 dst steps mem (dst + i) = f (mem (src1 + i)) (mem (src2 + i)) :=
  combineSteps_apply mem hsteps hi

/-- Cell by cell, a step reads what the steps before it have left. -/
theorem combineSteps_one_apply {steps k : ℕ} (mem : ℕ → α) (hk : k < steps) :
    combineSteps f 1 src1 src2 dst steps mem (dst + k) =
      f (combineSteps f 1 src1 src2 dst k mem (src1 + k))
        (combineSteps f 1 src1 src2 dst k mem (src2 + k)) := by
  have happly := @combineSteps_apply _ f 1 src1 src2 dst steps k 0 mem hk Nat.zero_lt_one
  rwa [Nat.one_mul] at happly

/-- Where a cell combined with itself is `value`, combining a range with itself leaves `value`. -/
theorem combineSteps_self {value : α} (hf : ∀ cell, f cell cell = value) (n src dst steps : ℕ)
    (mem : ℕ → α) :
    combineSteps f n src src dst steps mem = overwrite mem dst (n * steps) fun _ ↦ value := by
  induction steps with
  | zero =>
    funext i
    exact (overwrite_of_notMem (by omega)).symm
  | succ steps ih =>
    rw [combineSteps_succ, ih, combine, Nat.mul_succ]
    simp only [hf, overwrite_overwrite, ite_self]

theorem combineSteps_comm (hf : ∀ first second, f first second = f second first)
    (n src1 src2 dst steps : ℕ) (mem : ℕ → α) :
    combineSteps f n src1 src2 dst steps mem = combineSteps f n src2 src1 dst steps mem := by
  induction steps with
  | zero => rfl
  | succ steps ih =>
    rw [combineSteps_succ, combineSteps_succ, ih]
    exact overwrite_congr fun i _ ↦ hf _ _

end BroadcomWl.Memory
