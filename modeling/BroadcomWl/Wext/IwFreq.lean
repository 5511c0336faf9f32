import Mathlib.Data.Rat.Floor
import Mathlib.Algebra.Order.Ring.Rat
import Mathlib.Tactic.Ring

/-!
# Frequencies of the wireless extensions

A `struct iw_freq` is a decimal: a mantissa and an exponent of ten, in Hz. `wl_iw_set_freq` takes
a small mantissa with exponent 0 for a channel. Anything else it scales to MHz, in place and in
the types of the fields: it multiplies the mantissa when the exponent is at least 6, and divides
it when the exponent is below.

A loop has no result when it runs out of turns. `wf_mhz2channel` and the constants of its header
are not part of the repository.
-/

namespace BroadcomWl.Wext.Freq

def einprogress : ℤ := 115

/-- `struct iw_freq`, as far as the handler uses it. -/
structure IwFreq where
  m : Int32
  e : Int16
deriving DecidableEq, Repr

/-- What the handler needs and is not in the repository; `setChannel` is the answer to
`WLC_SET_CHANNEL`. -/
structure Platform where
  maxChannel : Int32
  wfChanFactor4G : UInt32
  wfMhz2channel : Int32 → UInt32 → Int32
  setChannel : Int32 → ℤ

/-- `while (fwrq->e--) fwrq->m *= 10`. -/
def multiply : ℕ → IwFreq → Option IwFreq
  | 0, _ => none
  | fuel + 1, fwrq =>
      if fwrq.e = 0 then some ⟨fwrq.m, fwrq.e - 1⟩ else multiply fuel ⟨fwrq.m * 10, fwrq.e - 1⟩

/-- `while (fwrq->e++ < 6) fwrq->m /= 10`. -/
def divide : ℕ → IwFreq → Option IwFreq
  | 0, _ => none
  | fuel + 1, fwrq =>
      if fwrq.e < 6 then divide fuel ⟨fwrq.m / 10, fwrq.e + 1⟩ else some ⟨fwrq.m, fwrq.e + 1⟩

/-- What `wf_mhz2channel` is passed, the channel that is set, what is returned, and the structure
as it is left. -/
structure SetFreq where
  passed : Option (Int32 × UInt32)
  chan : Int32
  err : ℤ
  fwrq : IwFreq
deriving DecidableEq, Repr

section Source

variable (platform : Platform)

def setChannel (passed : Option (Int32 × UInt32)) (chan : Int32) (fwrq : IwFreq) : SetFreq :=
  let error := platform.setChannel chan
  ⟨passed, chan, if error ≠ 0 then error else -einprogress, fwrq⟩

/-- `sf`. -/
def startFactor (m : Int32) : UInt32 := if 4000 < m ∧ m < 5000 then platform.wfChanFactor4G else 0

/-- The `else` branch of `wl_iw_set_freq`, with so many turns for a loop. -/
def scale (fuel : ℕ) (fwrq : IwFreq) : Option IwFreq :=
  if 6 ≤ fwrq.e then multiply fuel ⟨fwrq.m, fwrq.e - 6⟩ else divide fuel fwrq

/-- `wl_iw_set_freq`. -/
def wlIwSetFreq (fuel : ℕ) (fwrq : IwFreq) : Option SetFreq :=
  if fwrq.e = 0 ∧ fwrq.m < platform.maxChannel then some (setChannel platform none fwrq.m fwrq)
  else
    (scale fuel fwrq).map fun fwrq ↦
      let sf := startFactor platform fwrq.m
      setChannel platform (some (fwrq.m, sf)) (platform.wfMhz2channel fwrq.m sf) fwrq

end Source

/-! ## The loops -/

theorem toInt_sub_one {e : Int16} {count : ℕ} (h : e.toInt = count + 1) :
    (e - 1).toInt = count := by
  have hlt := e.toInt_lt
  have hone : (1 : Int16).toInt = 1 := rfl
  rw [Int16.toInt_sub, hone, h, Int.add_sub_cancel]
  exact Int.bmod_eq_of_le (by omega) (by omega)

theorem toInt_add_one {e : Int16} (h : e.toInt < 6) : (e + 1).toInt = e.toInt + 1 := by
  have hle := e.le_toInt
  have hone : (1 : Int16).toInt = 1 := rfl
  rw [Int16.toInt_add, hone]
  exact Int.bmod_eq_of_le (by omega) (by omega)

/-- The exponent counts the turns, and the mantissa is the product in 32 bits. -/
theorem multiply_eq {fuel count : ℕ} (hfuel : count < fuel) (fwrq : IwFreq)
    (h : fwrq.e.toInt = count) :
    ∃ e, multiply fuel fwrq = some ⟨fwrq.m * Int32.ofInt (10 ^ count), e⟩ := by
  induction count generalizing fuel fwrq with
  | zero =>
    obtain ⟨fuel, rfl⟩ := Nat.exists_eq_succ_of_ne_zero (Nat.ne_of_gt hfuel)
    have hzero : fwrq.e = 0 := Int16.toInt_inj.mp h
    refine ⟨fwrq.e - 1, ?_⟩
    rw [multiply, if_pos hzero]
    simp
  | succ count ih =>
    obtain ⟨fuel, rfl⟩ := Nat.exists_eq_succ_of_ne_zero (Nat.ne_of_gt (Nat.zero_lt_of_lt hfuel))
    have hnonzero : fwrq.e ≠ 0 := by
      rintro hzero
      rw [hzero] at h
      change (0 : ℤ) = _ at h
      omega
    obtain ⟨e, hrest⟩ := ih (Nat.lt_of_succ_lt_succ hfuel) ⟨fwrq.m * 10, fwrq.e - 1⟩
      (toInt_sub_one h)
    refine ⟨e, ?_⟩
    rw [multiply, if_neg hnonzero, hrest, Int32.mul_assoc, pow_succ', Int32.ofInt_mul]
    rfl

/-- A mantissa that is not negative is divided once for every exponent below 6. -/
theorem divide_eq {fuel count : ℕ} (hfuel : count < fuel) (fwrq : IwFreq)
    (hm : 0 ≤ fwrq.m.toInt) (h : fwrq.e.toInt = 6 - count) :
    ∃ final, divide fuel fwrq = some final ∧ final.m.toInt = fwrq.m.toInt / 10 ^ count := by
  induction count generalizing fuel fwrq with
  | zero =>
    obtain ⟨fuel, rfl⟩ := Nat.exists_eq_succ_of_ne_zero (Nat.ne_of_gt hfuel)
    have hnot : ¬fwrq.e < 6 := by
      rw [Int16.lt_iff_toInt_lt, h]
      decide
    refine ⟨⟨fwrq.m, fwrq.e + 1⟩, ?_, ?_⟩
    · rw [divide, if_neg hnot]
    · rw [pow_zero, Int.ediv_one]
  | succ count ih =>
    obtain ⟨fuel, rfl⟩ := Nat.exists_eq_succ_of_ne_zero (Nat.ne_of_gt (Nat.zero_lt_of_lt hfuel))
    have hlt : fwrq.e.toInt < 6 := by omega
    have htenth : (fwrq.m / 10).toInt = fwrq.m.toInt / 10 := by
      rw [Int32.toInt_div_of_ne_right _ _ (by decide)]
      exact Int.tdiv_eq_ediv_of_nonneg hm
    obtain ⟨final, hrest, hfinal⟩ := ih (Nat.lt_of_succ_lt_succ hfuel) ⟨fwrq.m / 10, fwrq.e + 1⟩
      (by rw [htenth]; exact Int.ediv_nonneg hm (by decide))
      (by rw [toInt_add_one hlt]; omega)
    refine ⟨final, ?_, ?_⟩
    · rw [divide, if_pos (Int16.lt_iff_toInt_lt.mpr hlt), hrest]
    · calc final.m.toInt
        _ = fwrq.m.toInt / 10 / 10 ^ count := by rw [hfinal, htenth]
        _ = fwrq.m.toInt / (10 * 10 ^ count) := Int.ediv_ediv_of_nonneg (by decide)
        _ = fwrq.m.toInt / 10 ^ (count + 1) := by rw [pow_succ']

/-! ## The value in MHz -/

/-- The frequency of a request in whole MHz, without bound. -/
def megahertz (fwrq : IwFreq) : ℤ := ⌊(fwrq.m.toInt : ℚ) * 10 ^ (fwrq.e.toInt - 6)⌋

theorem megahertz_of_ge {fwrq : IwFreq} {count : ℕ} (h : fwrq.e.toInt = 6 + count) :
    megahertz fwrq = fwrq.m.toInt * 10 ^ count := by
  have hvalue : (fwrq.m.toInt : ℚ) * 10 ^ (fwrq.e.toInt - 6) =
      ((fwrq.m.toInt * 10 ^ count : ℤ) : ℚ) := by
    rw [h, add_sub_cancel_left, zpow_natCast]
    push_cast
    rfl
  rw [megahertz, hvalue, Int.floor_intCast]

theorem megahertz_of_le {fwrq : IwFreq} {count : ℕ} (h : fwrq.e.toInt = 6 - count) :
    megahertz fwrq = fwrq.m.toInt / 10 ^ count := by
  have hvalue : (fwrq.m.toInt : ℚ) * 10 ^ (fwrq.e.toInt - 6) =
      (fwrq.m.toInt : ℚ) / ((10 ^ count : ℕ) : ℚ) := by
    have hexponent : fwrq.e.toInt - 6 = -(count : ℤ) := by omega
    rw [hexponent, zpow_neg, zpow_natCast, div_eq_mul_inv]
    push_cast
    rfl
  rw [megahertz, hvalue, Rat.floor_intCast_div_natCast]
  push_cast
  rfl

theorem megahertz_nonneg {fwrq : IwFreq} (hm : 0 ≤ fwrq.m.toInt) : 0 ≤ megahertz fwrq := by
  apply Int.floor_nonneg.mpr
  exact mul_nonneg (Int.cast_nonneg hm) (zpow_nonneg (by decide) _)

/-- The value and the start factor that `wf_mhz2channel` is to be passed. -/
def Exact (platform : Platform) (fwrq : IwFreq) (result : SetFreq) : Prop :=
  ∃ value, result.passed = some (value,
      if 4000 < megahertz fwrq ∧ megahertz fwrq < 5000 then platform.wfChanFactor4G else 0) ∧
    value.toInt = megahertz fwrq

/-- Nothing is passed, an error is returned, and the value does not fit. -/
structure Refused (fwrq : IwFreq) (result : SetFreq) : Prop where
  passed : result.passed = none
  err : result.err ≠ 0 ∧ result.err ≠ -einprogress
  large : 2 ^ 31 ≤ megahertz fwrq

/-- With a turn for every 16-bit exponent the handler comes to an end. -/
def ExactOrRefused (platform : Platform) (fwrq : IwFreq) : Prop :=
  ∀ fuel, 2 ^ 16 ≤ fuel → ∃ result, wlIwSetFreq platform fuel fwrq = some result ∧
    (Exact platform fwrq result ∨ Refused fwrq result)

section Frequency

variable {platform : Platform} {fwrq : IwFreq}

/-- Whether the value fits or not, what comes out of the loops is its low 32 bits. -/
theorem scale_eq {fuel : ℕ} (hfuel : 2 ^ 16 ≤ fuel) (hm : 0 ≤ fwrq.m.toInt) :
    ∃ final, scale fuel fwrq = some final ∧ final.m = Int32.ofInt (megahertz fwrq) := by
  have hlower := fwrq.e.le_toInt
  have hupper := fwrq.e.toInt_lt
  have hsix : (6 : Int16).toInt = 6 := rfl
  by_cases hle : 6 ≤ fwrq.e
  · have hge : 6 ≤ fwrq.e.toInt := Int16.le_iff_toInt_le.mp hle
    obtain ⟨count, hcount⟩ := Int.le.dest hge
    have hexponent : (fwrq.e - 6).toInt = count := by
      rw [Int16.toInt_sub, hsix, ← hcount, add_sub_cancel_left]
      exact Int.bmod_eq_of_le (by omega) (by omega)
    have hturns : count < fuel := by omega
    obtain ⟨e, hmultiply⟩ := multiply_eq hturns ⟨fwrq.m, fwrq.e - 6⟩ hexponent
    refine ⟨_, (if_pos hle).trans hmultiply, ?_⟩
    rw [megahertz_of_ge hcount.symm, Int32.ofInt_mul, Int32.ofInt_toInt]
  · have hlt : fwrq.e.toInt < 6 := by
      rw [Int16.le_iff_toInt_le, hsix] at hle
      omega
    obtain ⟨count, hcount⟩ := Int.le.dest (Int.le_of_lt hlt)
    have hexponent : fwrq.e.toInt = 6 - count := by omega
    have hturns : count < fuel := by omega
    obtain ⟨final, hdivide, hfinal⟩ := divide_eq hturns fwrq hm hexponent
    refine ⟨final, (if_neg hle).trans hdivide, ?_⟩
    rw [megahertz_of_le hexponent, ← hfinal, Int32.ofInt_toInt]

theorem toInt_ofInt_eq_iff {value : ℤ} (h : 0 ≤ value) :
    (Int32.ofInt value).toInt = value ↔ value < 2 ^ 31 := by
  constructor
  · intro heq
    have hlt := (Int32.ofInt value).toInt_lt
    rwa [heq] at hlt
  · intro hlt
    exact Int32.toInt_ofInt_of_le (by omega) hlt

theorem startFactor_eq {m : Int32} {value : ℤ} (h : m.toInt = value) :
    startFactor platform m =
      if 4000 < value ∧ value < 5000 then platform.wfChanFactor4G else 0 := by
  subst h
  refine if_congr ?_ rfl rfl
  rw [Int32.lt_iff_toInt_lt, Int32.lt_iff_toInt_lt]
  rfl

/-- A request for a frequency is passed on exactly, or refused, if and only if its value in MHz
fits 32 signed bits: it is never refused. -/
theorem set_freq_exact_iff (hm : 0 ≤ fwrq.m.toInt)
    (hchannel : ¬(fwrq.e = 0 ∧ fwrq.m < platform.maxChannel)) :
    ExactOrRefused platform fwrq ↔ megahertz fwrq < 2 ^ 31 := by
  have hrun : ∀ fuel, 2 ^ 16 ≤ fuel → ∃ result, wlIwSetFreq platform fuel fwrq = some result ∧
      result.passed = some (Int32.ofInt (megahertz fwrq),
        startFactor platform (Int32.ofInt (megahertz fwrq))) := by
    intro fuel hfuel
    obtain ⟨final, hscale, hfinal⟩ := scale_eq hfuel hm
    unfold wlIwSetFreq
    rw [if_neg hchannel, hscale, ← hfinal]
    exact ⟨_, rfl, rfl⟩
  constructor
  · intro h
    obtain ⟨result, hresult, hpassed⟩ := hrun _ (Nat.le_refl _)
    obtain ⟨other, hother, hcase⟩ := h _ (Nat.le_refl _)
    obtain rfl : result = other := Option.some.inj (hresult.symm.trans hother)
    rcases hcase with ⟨value, hvalue, hexact⟩ | hrefused
    · obtain ⟨rfl, -⟩ := Prod.mk.inj (Option.some.inj (hpassed.symm.trans hvalue))
      exact (toInt_ofInt_eq_iff (megahertz_nonneg hm)).mp hexact
    · cases hpassed.symm.trans hrefused.passed
  · intro hlt fuel hfuel
    obtain ⟨result, hresult, hpassed⟩ := hrun fuel hfuel
    have hexact := (toInt_ofInt_eq_iff (megahertz_nonneg hm)).mpr hlt
    refine ⟨result, hresult, .inl ⟨_, ?_, hexact⟩⟩
    rw [hpassed, startFactor_eq hexact]

end Frequency

/-- Channels are numbered up to 224, every channel is taken. -/
def willing : Platform where
  maxChannel := 224
  wfChanFactor4G := 8000
  wfMhz2channel := fun freq _ ↦ (freq - 2407) / 5
  setChannel := fun _ ↦ 0

/-- 2.437 GHz. -/
theorem set_freq_exact_2437 : ExactOrRefused willing ⟨243700000, 1⟩ :=
  (set_freq_exact_iff (by decide) (by decide)).mpr (by
    rw [@megahertz_of_le _ 5 (by decide)]
    decide)

/-- 5 with exponent 15 is 5000000000 MHz, and 705032704 is passed. -/
theorem set_freq_wrapped :
    (wlIwSetFreq willing (2 ^ 16) ⟨5, 15⟩).map (·.passed) = some (some (705032704, 0)) ∧
      ¬ExactOrRefused willing ⟨5, 15⟩ := by
  have hpassed : (wlIwSetFreq willing (2 ^ 16) ⟨5, 15⟩).map (·.passed) =
      some (some (705032704, 0)) := by decide +kernel
  refine ⟨hpassed, fun h ↦ ?_⟩
  obtain ⟨result, hresult, hcase⟩ := h _ (Nat.le_refl _)
  rw [hresult, Option.map_some, Option.some.injEq] at hpassed
  rcases hcase with ⟨value, hvalue, hexact⟩ | hrefused
  · obtain ⟨rfl, -⟩ := Prod.mk.inj (Option.some.inj (hpassed.symm.trans hvalue))
    rw [@megahertz_of_ge _ 9 (by decide)] at hexact
    exact absurd hexact (by decide)
  · cases hpassed.symm.trans hrefused.passed

end BroadcomWl.Wext.Freq
