import BroadcomWl.Memory.Bytes
import BroadcomWl.Systems.Machine

/-!
# The transmit power

`wl_cfg80211_set_tx_power` takes the power in hundredths of a dBm and writes it to the firmware in
quarters of a dBm, at most 127 of them, beside a bit that says that it is not the default.
`wl_cfg80211_get_tx_power` reads it back through a byte. The sign is tested after the division by
100, which rounds towards zero, and is not tested when the power is to be automatic.

The firmware accepts what is written and gives back the last value.
-/

namespace BroadcomWl.Cfg80211.TxPower

open BroadcomWl.Memory BroadcomWl.Systems

def einval : ℤ := 22

def wlRadioSwDisable : UInt32 := 0x1
def wlTxpwrOverride : UInt32 := 0x80000000

/-- `enum nl80211_tx_power_setting`; an enumeration holds other values as well. -/
inductive TxPowerSetting where
  | automatic
  | limited
  | fixed
  | other (value : UInt32)
deriving DecidableEq, Repr

/-- The power of the firmware, the last word of `WLC_SET_RADIO`, and `conf->tx_power`. -/
structure State where
  qtxpower : UInt32
  radio : UInt32
  txPower : Int32
deriving DecidableEq, Repr

/-- The errors of `WLC_SET_RADIO` and of the write of `qtxpower`. -/
structure Answers where
  setRadio : ℤ
  setQtxpower : ℤ
deriving DecidableEq, Repr

/-- `MBM_TO_DBM`. -/
def mbmToDbm (mbm : Int32) : Int32 := mbm / 100

/-- The types for which the sign is tested. -/
def TxPowerSetting.isSigned : TxPowerSetting → Bool
  | .limited | .fixed => true
  | .automatic | .other _ => false

/-- The value of `qtxpower`. -/
def qtxpowerOf (dbm : Int32) : UInt32 :=
  let qdbm := dbm * 4
  let qdbm := if 127 < qdbm then 127 else qdbm
  qdbm.toUInt32 ||| wlTxpwrOverride

/-- `wl_cfg80211_set_tx_power`. -/
def wlCfg80211SetTxPower (answers : Answers) (type : TxPowerSetting) (mbm : Int32)
    (state : State) : ℤ × State :=
  let dbm := mbmToDbm mbm
  if type.isSigned ∧ dbm < 0 then (-einval, state)
  else if answers.setRadio ≠ 0 then (answers.setRadio, state)
  else
    let state := { state with radio := wlRadioSwDisable <<< 16 }
    if answers.setQtxpower ≠ 0 then (answers.setQtxpower, state)
    else
      (0, { state with
        qtxpower := qtxpowerOf dbm
        txPower := dbm })

/-- `wl_cfg80211_get_tx_power`, when the firmware answers. -/
def wlCfg80211GetTxPower (state : State) : Int32 :=
  let result := (state.qtxpower &&& ~~~wlTxpwrOverride).toUInt8
  result.toUInt32.toInt32 / 4

/-! ## Runs -/

structure Call where
  type : TxPowerSetting
  mbm : Int32
deriving DecidableEq, Repr

/-- A call whose writes are accepted. -/
def execute (state : State) (call : Call) : ℤ × State :=
  wlCfg80211SetTxPower ⟨0, 0⟩ call.type call.mbm state

def txPower : Machine State Call where
  initial _ := True
  step state call := some (execute state call).2

/-- The power that the firmware has, without the bit beside it. -/
def State.quarters (state : State) : UInt32 := state.qtxpower &&& ~~~wlTxpwrOverride

/-- The power is that of the request, as far as the firmware can have it, and it is read back. -/
structure Honours (mbm : Int32) (next : State) : Prop where
  nonneg : 0 ≤ mbm.toInt
  range : next.quarters.toNat ≤ 127
  below : 25 * (next.quarters.toNat : ℤ) ≤ mbm.toInt
  exactDbm : (mbmToDbm mbm).toInt = mbm.toInt.tdiv 100
  exactQdbm : (mbmToDbm mbm * 4).toInt = mbm.toInt.tdiv 100 * 4
  readBack : (wlCfg80211GetTxPower next).toInt = min (mbm.toInt / 100) 31

/-- A limit is honoured; an automatic power is the same for every `mbm` and after every request. -/
def Call.Honoured (state : State) (call : Call) : Prop :=
  match call.type with
  | .limited | .fixed => (execute state call).1 = 0 → Honours call.mbm (execute state call).2
  | .automatic => ∀ (other : State) (mbm : Int32),
      (execute other ⟨.automatic, mbm⟩).2.qtxpower = (execute state call).2.qtxpower
  | .other _ => True

/-- No automatic power, and no negative limit that is less than a dBm below zero. -/
def Call.Sound (call : Call) : Prop :=
  match call.type with
  | .limited | .fixed => ¬(-100 < call.mbm.toInt ∧ call.mbm.toInt < 0)
  | .automatic => False
  | .other _ => True

theorem toInt_mbmToDbm (mbm : Int32) : (mbmToDbm mbm).toInt = mbm.toInt.tdiv 100 :=
  Int32.toInt_div_of_ne_right _ _ (by decide)

/-- Division by 100 rounds towards zero. -/
theorem tdiv_hundred (n : ℤ) : n.tdiv 100 = if 0 ≤ n then n / 100 else -(-n / 100) := by
  split
  next h => exact Int.tdiv_eq_ediv_of_nonneg h
  next h => rw [← Int.tdiv_eq_ediv_of_nonneg (by omega), Int.neg_tdiv, Int.neg_neg]

/-- No step overflows. -/
theorem toInt_qdbm (mbm : Int32) : (mbmToDbm mbm * 4).toInt = mbm.toInt.tdiv 100 * 4 := by
  have hlower := mbm.le_toInt
  have hupper := mbm.toInt_lt
  have hfour : (4 : Int32).toInt = 4 := rfl
  rw [Int32.toInt_mul, toInt_mbmToDbm, hfour, tdiv_hundred]
  exact Int.bmod_eq_of_le (by split <;> omega) (by split <;> omega)

/-- A word below the override bit is what is left when the bit is added and taken away. -/
theorem override_and_not {word : UInt32} (h : word.toNat < 2 ^ 31) :
    (word ||| wlTxpwrOverride) &&& ~~~wlTxpwrOverride = word := by
  have hbelow : word &&& ~~~wlTxpwrOverride = word := by
    rw [← UInt32.toNat_inj, UInt32.toNat_and]
    exact (Nat.and_two_pow_sub_one_eq_mod _ 31).trans (Nat.mod_eq_of_lt h)
  have hkept := @replace_and_not wlTxpwrOverride wlTxpwrOverride word (by decide)
  rwa [hbelow] at hkept

/-- The power of a request that is not negative. -/
theorem toNat_quarters {mbm : Int32} (h : 0 ≤ mbm.toInt) {state : State}
    (hpower : state.qtxpower = qtxpowerOf (mbmToDbm mbm)) :
    (state.quarters.toNat : ℤ) = min (mbm.toInt / 100 * 4) 127 := by
  have hqdbm : (mbmToDbm mbm * 4).toInt = mbm.toInt / 100 * 4 := by
    rw [toInt_qdbm, tdiv_hundred, if_pos h]
  have hmost : (127 : Int32).toInt = 127 := rfl
  obtain ⟨clamped, hclamped⟩ :
      ∃ clamped, (if 127 < mbmToDbm mbm * 4 then 127 else mbmToDbm mbm * 4) = clamped := ⟨_, rfl⟩
  have hvalue : clamped.toInt = min (mbm.toInt / 100 * 4) 127 := by
    rw [← hclamped, ← hqdbm]
    by_cases hlarge : 127 < mbmToDbm mbm * 4
    · rw [if_pos hlarge]
      rw [Int32.lt_iff_toInt_lt, hmost] at hlarge
      omega
    · rw [if_neg hlarge]
      rw [Int32.lt_iff_toInt_lt, hmost] at hlarge
      omega
  have hnonneg : 0 ≤ clamped := by
    rw [Int32.le_iff_toInt_le, hvalue]
    change 0 ≤ min (mbm.toInt / 100 * 4) 127
    omega
  have hnat : (clamped.toUInt32.toNat : ℤ) = clamped.toInt := by
    rw [Int32.toNat_toUInt32_of_le hnonneg, Int32.toInt_eq_toNatClampNeg hnonneg]
  unfold State.quarters
  rw [hpower, qtxpowerOf, hclamped, override_and_not (by omega), hnat, hvalue]

/-- A power of at most 127 quarters is read back in whole dBm. -/
theorem toInt_getTxPower {state : State} (h : state.quarters.toNat ≤ 127) :
    (wlCfg80211GetTxPower state).toInt = state.quarters.toNat / 4 := by
  have hbyte : state.quarters.toUInt8.toUInt32.toNat = state.quarters.toNat := by
    rw [UInt8.toNat_toUInt32, UInt32.toNat_toUInt8]
    exact Nat.mod_eq_of_lt (by omega)
  have hvalue : state.quarters.toUInt8.toUInt32.toInt32.toInt = state.quarters.toNat := by
    have hlow : 2 * state.quarters.toUInt8.toUInt32.toNat < 2 ^ 32 := by omega
    rw [← hbyte]
    exact BitVec.toInt_eq_toNat_of_lt hlow
  have hquarter :
      (state.quarters.toUInt8.toUInt32.toInt32 / 4).toInt = state.quarters.toNat / 4 := by
    rw [Int32.toInt_div_of_ne_right _ _ (by decide), hvalue]
    exact Int.tdiv_eq_ediv_of_nonneg (Int.natCast_nonneg _)
  exact hquarter

/-! ## Honoured requests -/

/-- The branches of a call whose writes are accepted. -/
theorem execute_cases (state : State) (call : Call) :
    call.type.isSigned = true ∧ call.mbm.toInt ≤ -100 ∧ (execute state call).1 = -einval ∨
    ¬(call.type.isSigned = true ∧ call.mbm.toInt ≤ -100) ∧ (execute state call).1 = 0 ∧
      (execute state call).2.qtxpower = qtxpowerOf (mbmToDbm call.mbm) := by
  have hnegative : mbmToDbm call.mbm < 0 ↔ call.mbm.toInt ≤ -100 := by
    have hzero : (0 : Int32).toInt = 0 := rfl
    rw [Int32.lt_iff_toInt_lt, toInt_mbmToDbm, tdiv_hundred, hzero]
    split <;> omega
  unfold execute wlCfg80211SetTxPower
  by_cases hrefused : call.type.isSigned = true ∧ mbmToDbm call.mbm < 0
  · rw [if_pos hrefused]
    exact .inl ⟨hrefused.1, hnegative.mp hrefused.2, rfl⟩
  · rw [if_neg hrefused, ← hnegative]
    exact .inr ⟨hrefused, rfl, rfl⟩

theorem honours {mbm : Int32} (h : 0 ≤ mbm.toInt) {next : State}
    (hpower : next.qtxpower = qtxpowerOf (mbmToDbm mbm)) : Honours mbm next := by
  have hquarters := toNat_quarters h hpower
  have hrange : next.quarters.toNat ≤ 127 := by omega
  refine ⟨h, hrange, by omega, toInt_mbmToDbm mbm, toInt_qdbm mbm, ?_⟩
  rw [toInt_getTxPower hrange, hquarters]
  omega

/-- A limit is honoured unless its sign is lost in the division. -/
theorem limit_honoured_iff {state : State} {call : Call} (hsigned : call.type.isSigned = true) :
    ((execute state call).1 = 0 → Honours call.mbm (execute state call).2) ↔
      ¬(-100 < call.mbm.toInt ∧ call.mbm.toInt < 0) := by
  rcases execute_cases state call with ⟨-, hlow, herr⟩ | ⟨haccepted, herr, hpower⟩
  · rw [herr]
    exact iff_of_true (fun h ↦ absurd h (by decide)) (by omega)
  · rw [herr, forall_prop_of_true rfl]
    constructor
    · intro h
      have hnonneg := h.nonneg
      omega
    · intro h
      have hnonneg : 0 ≤ call.mbm.toInt := by
        by_contra hneg
        exact haccepted ⟨hsigned, by omega⟩
      exact honours hnonneg hpower

/-- The value of an automatic power depends on the call. -/
theorem automatic_not_honoured (state : State) (mbm : Int32) :
    ¬Call.Honoured state ⟨.automatic, mbm⟩ := by
  intro h
  have hpower : ∀ mbm, (execute state ⟨.automatic, mbm⟩).2.qtxpower = qtxpowerOf (mbmToDbm mbm) :=
    fun _ ↦ rfl
  have hsame : qtxpowerOf (mbmToDbm 0) = qtxpowerOf (mbmToDbm 100) := by
    rw [← hpower, ← hpower]
    exact (h state 0).trans (h state 100).symm
  exact absurd hsame (by decide)

theorem honoured_iff (state : State) (call : Call) : call.Honoured state ↔ call.Sound := by
  obtain ⟨type, mbm⟩ := call
  cases type with
  | automatic => exact iff_of_false (automatic_not_honoured state mbm) id
  | limited => exact limit_honoured_iff rfl
  | fixed => exact limit_honoured_iff rfl
  | other value => exact Iff.rfl

/-- In every run the requests are honoured if and only if none is for an automatic power and no
limit is less than a dBm below zero. -/
theorem tx_power_honoured_iff (start : State) (calls : List Call) :
    txPower.Along (fun state call ↦ call.Honoured state) start calls ↔
      ∀ call ∈ calls, call.Sound := by
  induction calls generalizing start with
  | nil => exact iff_of_true trivial (List.forall_mem_nil _)
  | cons call calls ih =>
    rw [Machine.along_cons_iff, List.forall_mem_cons, honoured_iff,
      ← ih (execute start call).2]
    refine and_congr_right fun _ ↦ ⟨fun h ↦ h _ rfl, fun h next hnext ↦ ?_⟩
    obtain rfl : (execute start call).2 = next := Option.some.inj hnext
    exact h

/-- -0.5 dBm is set as 0 dBm. -/
theorem halfDbmBelowZero_not_honoured :
    (execute ⟨0, 0, 0⟩ ⟨.limited, -50⟩).1 = 0 ∧
      (execute ⟨0, 0, 0⟩ ⟨.limited, -50⟩).2.qtxpower = wlTxpwrOverride ∧
      ¬txPower.Along (fun state call ↦ call.Honoured state) ⟨0, 0, 0⟩ [⟨.limited, -50⟩] := by
  refine ⟨rfl, by decide, fun h ↦ ?_⟩
  have hnonneg := (h.1 rfl).nonneg
  exact absurd hnonneg (by decide)

end BroadcomWl.Cfg80211.TxPower
