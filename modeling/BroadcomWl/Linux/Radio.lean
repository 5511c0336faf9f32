import BroadcomWl.Cfg80211.TxPower
import BroadcomWl.Wext.IwParams

/-!
# The words that switch the radio

The firmware keeps the reasons for which the radio is off in one word. The argument of
`WLC_SET_RADIO` names the bits to change in its upper half and gives their values in its lower half.
Three functions of the driver hand it such an argument: `wl_set_radio_block` for rfkill,
`wl_iw_set_txpow` for the wireless extensions and `wl_cfg80211_set_tx_power`, which always switches
the radio on. All of them change the bit of the software switch only.
-/

namespace BroadcomWl.Linux.Radio

open BroadcomWl.Memory
open BroadcomWl.Cfg80211.TxPower (TxPowerSetting wlRadioSwDisable)
open BroadcomWl.Wext.IwParams (IwParam)

def einval : ℤ := 22

def wlRadioHwDisable : UInt32 := 0x2

def iwTxpowMwatt : UInt16 := 0x0001

/-- What `WLC_SET_RADIO` makes of the word of the firmware: the bits that the argument names are
those of the argument, and the others stay. -/
structure Firmware where
  setRadio : UInt32 → UInt32 → UInt32
  named : ∀ word arg, setRadio word arg &&& (arg >>> 16) = arg &&& (arg >>> 16)
  other : ∀ word arg, setRadio word arg &&& ~~~(arg >>> 16) = word &&& ~~~(arg >>> 16)

/-- A firmware that replaces the bits. -/
def replacing : Firmware where
  setRadio word arg := word &&& ~~~(arg >>> 16) ||| arg &&& (arg >>> 16)
  named word arg := replace_and word (by rw [UInt32.and_assoc, UInt32.and_self])
  other word arg := replace_and_not word (by rw [UInt32.and_assoc, UInt32.and_self])

/-! ## The arguments -/

/-- `radioval` of `wl_set_radio_block`. -/
def radioval (blocked : Bool) : UInt32 :=
  wlRadioSwDisable <<< 16 ||| (if blocked then 1 else 0)

/-- `disable` of `wl_iw_set_txpow`. -/
def iwDisable (vwrq : IwParam) : UInt32 :=
  (if vwrq.disabled ≠ 0 then wlRadioSwDisable else 0) + wlRadioSwDisable <<< 16

/-- `disable` of `wl_cfg80211_set_tx_power`. -/
def cfg80211Disable : UInt32 := wlRadioSwDisable <<< 16

/-- All of them are of this form. -/
def switchTo (off : Bool) : UInt32 := if off then 0x10001 else 0x10000

theorem radioval_eq (blocked : Bool) : radioval blocked = switchTo blocked := by
  cases blocked <;> rfl

theorem iwDisable_eq (vwrq : IwParam) : iwDisable vwrq = switchTo (vwrq.disabled != 0) := by
  unfold iwDisable
  by_cases hdisabled : vwrq.disabled = 0
  · rw [if_neg (not_not.mpr hdisabled), hdisabled]
    rfl
  · rw [if_pos hdisabled, bne_iff_ne.mpr hdisabled]
    rfl

theorem cfg80211Disable_eq : cfg80211Disable = switchTo false := rfl

section Switch

variable (firmware : Firmware) (word : UInt32) (off : Bool)

/-- The software switch is what the argument says. -/
theorem setRadio_sw :
    firmware.setRadio word (switchTo off) &&& wlRadioSwDisable =
      if off then wlRadioSwDisable else 0 := by
  cases off with
  | false => exact firmware.named word 0x10000
  | true => exact firmware.named word 0x10001

/-- The other bits are those of the firmware. -/
theorem setRadio_other :
    firmware.setRadio word (switchTo off) &&& ~~~wlRadioSwDisable =
      word &&& ~~~wlRadioSwDisable := by
  cases off with
  | false => exact firmware.other word 0x10000
  | true => exact firmware.other word 0x10001

/-- The bit of the hardware is one of them. -/
theorem setRadio_hw :
    firmware.setRadio word (switchTo off) &&& wlRadioHwDisable = word &&& wlRadioHwDisable := by
  have hhw : wlRadioHwDisable = ~~~wlRadioSwDisable &&& wlRadioHwDisable := rfl
  rw [hhw, ← UInt32.and_assoc, ← UInt32.and_assoc, setRadio_other]

end Switch

/-! ## The transmit power of the wireless extensions -/

/-- What the firmware keeps. -/
structure Device where
  radio : UInt32
  qtxpower : UInt32
deriving DecidableEq, Repr

/-- The errors of `WLC_SET_RADIO` and of the write of `qtxpower`. -/
structure Answers where
  setRadio : ℤ
  setQtxpower : ℤ
deriving DecidableEq, Repr

/-- The power in milliwatt, in 16 bits. -/
def txpwrmw (value : Int32) : UInt16 :=
  if 0xffff < value then 0xffff else value.toUInt32.toUInt16

/-- `wl_iw_set_txpow`; the conversion to quarters of a dBm is not part of the repository. -/
def wlIwSetTxpow (firmware : Firmware) (bcmMwToQdbm : UInt16 → UInt8) (vwrq : IwParam)
    (answers : Answers) (device : Device) : ℤ × Device :=
  let disable := iwDisable vwrq
  if answers.setRadio ≠ 0 then (answers.setRadio, device)
  else
    let device := { device with radio := firmware.setRadio device.radio disable }
    if disable &&& wlRadioSwDisable ≠ 0 then (0, device)
    else if vwrq.flags &&& iwTxpowMwatt = 0 then (-einval, device)
    else if vwrq.value < 0 then (0, device)
    else if answers.setQtxpower ≠ 0 then (answers.setQtxpower, device)
    else (0, { device with qtxpower := (bcmMwToQdbm (txpwrmw vwrq.value)).toUInt32 })

/-- Whatever becomes of the power, an accepted `WLC_SET_RADIO` has switched the radio. -/
theorem wlIwSetTxpow_radio (firmware : Firmware) (bcmMwToQdbm : UInt16 → UInt8) (vwrq : IwParam)
    (answers : Answers) (device : Device) :
    (wlIwSetTxpow firmware bcmMwToQdbm vwrq answers device).2.radio =
      if answers.setRadio ≠ 0 then device.radio
      else firmware.setRadio device.radio (switchTo (vwrq.disabled != 0)) := by
  unfold wlIwSetTxpow
  rw [iwDisable_eq]
  by_cases hset : answers.setRadio ≠ 0
  · rw [if_pos hset, if_pos hset]
  · rw [if_neg hset, if_neg hset]
    dsimp only
    split
    · rfl
    split
    · rfl
    split
    · rfl
    split <;> rfl

/-- `wl_cfg80211_set_tx_power` hands the firmware its word when it is not refused before. -/
theorem wlCfg80211SetTxPower_radio (answers : Cfg80211.TxPower.Answers) (type : TxPowerSetting)
    (mbm : Int32) (state : Cfg80211.TxPower.State) :
    (Cfg80211.TxPower.wlCfg80211SetTxPower answers type mbm state).2.radio =
      if (type.isSigned ∧ Cfg80211.TxPower.mbmToDbm mbm < 0) ∨ answers.setRadio ≠ 0 then state.radio
      else cfg80211Disable := by
  unfold Cfg80211.TxPower.wlCfg80211SetTxPower
  dsimp only
  by_cases hsign : type.isSigned ∧ Cfg80211.TxPower.mbmToDbm mbm < 0
  · rw [if_pos hsign, if_pos (.inl hsign)]
  · rw [if_neg hsign]
    by_cases hset : answers.setRadio ≠ 0
    · rw [if_pos hset, if_pos (.inr hset)]
    · rw [if_neg hset, if_neg (not_or.mpr ⟨hsign, hset⟩)]
      split <;> rfl

end BroadcomWl.Linux.Radio
