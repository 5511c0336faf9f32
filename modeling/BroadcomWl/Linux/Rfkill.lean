import BroadcomWl.Linux.Radio
import BroadcomWl.Systems.Machine

/-!
# The radio switch of the kernel

`wl_init_rfkill` allocates a switch, asks the firmware for the radio and registers the switch.
`wl_event` reports a change of the hardware switch to it, `wl_set_radio_block` is its callback, and
`wl_uninit_rfkill` frees it. When `WLC_GET_RADIO` fails the switch is left behind unregistered, and
when the registration fails the pointer to the freed switch is left behind.

A run consists of these functions, of changes of the hardware switch, which the firmware announces
with `WLC_E_RADIO`, and of the requests for a transmit power that switch the radio; they come
through the interface that the driver was built with. The module states exactly which runs touch
only a switch that is there and free it, in which the state of the hardware is known to the kernel,
and in which the kernel's software state is that of the firmware.
-/

namespace BroadcomWl.Linux.Rfkill

open BroadcomWl.Systems BroadcomWl.Linux.Radio
open BroadcomWl.Cfg80211.TxPower (TxPowerSetting wlRadioSwDisable mbmToDbm)
open BroadcomWl.Wext.IwParams (IwParam)

def enomem : ℤ := 12

/-- `struct rfkill`, as far as the driver changes it. -/
structure Switch where
  hwBlocked : Bool
  swBlocked : Bool
deriving DecidableEq, Repr

/-- The pointer `wl_rfkill.rfkill`. -/
inductive Pointer where
  | null
  | live (switch : Switch)
  | dangling
deriving DecidableEq, Repr

/-- A driver is built with `USE_CFG80211` or with `USE_IW`. -/
inductive Api where
  | cfg80211
  | wext
deriving DecidableEq, Repr

/-- The driver, the word of the firmware, whether a `WLC_E_RADIO` is outstanding since the hardware
switch changed, the result of `wl_init_rfkill`, and whether `wl_free` was called. -/
structure State where
  api : Api
  rfkill : Pointer
  registered : Bool
  lastPhyind : UInt32
  radio : UInt32
  outstanding : Bool
  result : Option ℤ
  freed : Bool
deriving DecidableEq, Repr

/-- The answers to `rfkill_alloc`, `WLC_GET_RADIO` and `rfkill_register`. -/
structure InitAnswers where
  alloc : Bool
  getRadio : ℤ
  register : ℤ
deriving DecidableEq, Repr

inductive Label where
  | init (answers : InitAnswers)
  | turnHardware (off : Bool)
  | radioEvent (getRadio : ℤ) (leftover : UInt32)
  | setBlock (blocked : Bool) (error : ℤ)
  | setTxpow (vwrq : IwParam) (error : ℤ)
  | setTxPower (type : TxPowerSetting) (mbm : Int32) (error : ℤ)
  | free

/-- `wl_init_rfkill`. -/
def wlInitRfkill (answers : InitAnswers) (state : State) : ℤ × State :=
  if !answers.alloc then (-enomem, { state with rfkill := .null })
  else
    let switch : Switch := ⟨false, false⟩
    if answers.getRadio < 0 then (1, { state with rfkill := .live switch })
    else
      let status := state.radio
      let switch := { switch with swBlocked := status != 0 }
      if answers.register ≠ 0 then (2, { state with rfkill := .dangling })
      else (0, { state with rfkill := .live switch, registered := true })

/-- The switch is registered. -/
def InitAnswers.Succeed (answers : InitAnswers) : Prop :=
  answers.alloc = true ∧ 0 ≤ answers.getRadio ∧ answers.register = 0

theorem wlInitRfkill_of_succeed {answers : InitAnswers} (h : answers.Succeed) (state : State) :
    wlInitRfkill answers state =
      (0, { state with rfkill := .live ⟨false, state.radio != 0⟩, registered := true }) := by
  obtain ⟨halloc, hget, hregister⟩ := h
  simp [wlInitRfkill, halloc, not_lt.mpr hget, hregister]

theorem wlInitRfkill_of_not_succeed {answers : InitAnswers} (h : ¬answers.Succeed)
    (state : State) : (wlInitRfkill answers state).2.registered = state.registered := by
  unfold wlInitRfkill
  split
  · rfl
  split
  · rfl
  split
  · rfl
  next halloc hget hregister =>
    exact absurd ⟨by simpa using halloc, not_lt.mp hget, not_not.mp hregister⟩ h

/-- `wl_uninit_rfkill`. -/
def wlUninitRfkill (state : State) : State :=
  if state.registered then { state with registered := false, rfkill := .null } else state

/-- `wl_report_radio_state`; nothing is modelled of what `rfkill_set_hw_state` does to a pointer
that is not live. -/
def wlReportRadioState (state : State) : State :=
  match state.rfkill with
  | .live switch =>
      { state with rfkill := .live { switch with hwBlocked := state.lastPhyind != 0 } }
  | .null | .dangling => state

/-- The word that `WLC_GET_RADIO` leaves in its buffer. -/
def gotRadio (getRadio : ℤ) (leftover : UInt32) (state : State) : UInt32 :=
  if getRadio < 0 then leftover else state.radio

/-- The branch of `wl_event` for `WLC_E_RADIO`; a failure of `WLC_GET_RADIO` is only logged. -/
def wlRadioEvent (getRadio : ℤ) (leftover : UInt32) (state : State) : State :=
  let i := gotRadio getRadio leftover state
  if state.lastPhyind = i &&& wlRadioHwDisable then state
  else wlReportRadioState { state with lastPhyind := i &&& wlRadioHwDisable }

/-- `wl_set_radio_block`. -/
def wlSetRadioBlock (firmware : Firmware) (blocked : Bool) (error : ℤ) (state : State) :
    ℤ × State :=
  if error < 0 then (1, state)
  else (0, { state with radio := firmware.setRadio state.radio (radioval blocked) })

/-- The kernel keeps the new software state when its callback returns zero. -/
def setBlocked (firmware : Firmware) (blocked : Bool) (error : ℤ) (switch : Switch)
    (state : State) : State :=
  let (status, state) := wlSetRadioBlock firmware blocked error state
  if status = 0 then { state with rfkill := .live { switch with swBlocked := blocked } } else state

/-- `wl_cfg80211_set_tx_power` hands the firmware its word. -/
def reachesRadio (type : TxPowerSetting) (mbm : Int32) (error : ℤ) : Bool :=
  !(type.isSigned && mbmToDbm mbm < 0) && error == 0

theorem reachesRadio_iff {type : TxPowerSetting} {mbm : Int32} {error : ℤ} :
    reachesRadio type mbm error = true ↔
      ¬((type.isSigned ∧ mbmToDbm mbm < 0) ∨ error ≠ 0) := by
  unfold reachesRadio
  cases type.isSigned <;> simp

/-- The firmware announces a change of the hardware switch. -/
def turnHardware (off : Bool) (state : State) : State :=
  let radio := state.radio &&& ~~~wlRadioHwDisable ||| (if off then wlRadioHwDisable else 0)
  { state with radio := radio, outstanding := state.outstanding || radio != state.radio }

variable (firmware : Firmware)

def step (state : State) : Label → Option State
  | .init answers =>
      if state.result = none ∧ state.freed = false then
        let (status, state) := wlInitRfkill answers state
        some { state with result := some status }
      else none
  | .turnHardware off => some (turnHardware off state)
  | .radioEvent getRadio leftover =>
      some { wlRadioEvent getRadio leftover state with outstanding := false }
  | .setBlock blocked error =>
      match state.rfkill with
      | .live switch =>
          if state.registered then some (setBlocked firmware blocked error switch state) else none
      | .null | .dangling => none
  | .setTxpow vwrq error =>
      if state.api = .wext then
        some (if error = 0 then
          { state with radio := firmware.setRadio state.radio (iwDisable vwrq) } else state)
      else none
  | .setTxPower type mbm error =>
      if state.api = .cfg80211 then
        some (if reachesRadio type mbm error then
          { state with radio := firmware.setRadio state.radio cfg80211Disable } else state)
      else none
  | .free => if state.freed then none else some { wlUninitRfkill state with freed := true }

theorem step_init {answers : InitAnswers} {state next : State}
    (h : step firmware state (.init answers) = some next) :
    (state.result = none ∧ state.freed = false) ∧
      next = { (wlInitRfkill answers state).2 with
        result := some (wlInitRfkill answers state).1 } := by
  simp only [step] at h
  split at h
  next hnew => exact ⟨hnew, (Option.some.inj h).symm⟩
  next => cases h

theorem step_init_of_new {state : State} (answers : InitAnswers)
    (h : state.result = none ∧ state.freed = false) :
    step firmware state (.init answers) =
      some { (wlInitRfkill answers state).2 with
        result := some (wlInitRfkill answers state).1 } :=
  if_pos h

/-- A request of the wireless extensions leaves the radio as its handler does. -/
theorem step_setTxpow (bcmMwToQdbm : UInt16 → UInt8) (vwrq : IwParam) (answers : Radio.Answers)
    {device : Radio.Device} {state : State} (hapi : state.api = .wext)
    (hradio : device.radio = state.radio) :
    step firmware state (.setTxpow vwrq answers.setRadio) =
      some { state with
        radio := (wlIwSetTxpow firmware bcmMwToQdbm vwrq answers device).2.radio } := by
  rw [wlIwSetTxpow_radio, hradio, ← iwDisable_eq, step, if_pos hapi]
  by_cases hset : answers.setRadio = 0
  · rw [if_pos hset, if_neg (not_not.mpr hset)]
  · rw [if_neg hset, if_pos hset]

/-- A request of cfg80211 reaches the radio exactly when its handler hands the word over. -/
theorem step_setTxPower (answers : Cfg80211.TxPower.Answers) (type : TxPowerSetting) (mbm : Int32)
    {power : Cfg80211.TxPower.State} {state : State} (hapi : state.api = .cfg80211)
    (hradio : power.radio = 0) :
    step firmware state (.setTxPower type mbm answers.setRadio) =
      some (if (Cfg80211.TxPower.wlCfg80211SetTxPower answers type mbm power).2.radio =
          cfg80211Disable then
        { state with radio := firmware.setRadio state.radio cfg80211Disable } else state) := by
  have hword : (0 : UInt32) ≠ cfg80211Disable := by decide
  rw [wlCfg80211SetTxPower_radio, hradio, step, if_pos hapi]
  by_cases hrefused : (type.isSigned ∧ mbmToDbm mbm < 0) ∨ answers.setRadio ≠ 0
  · rw [if_pos hrefused, if_neg (mt reachesRadio_iff.mp (not_not.mpr hrefused)), if_neg hword]
  · rw [if_neg hrefused, if_pos (reachesRadio_iff.mpr hrefused), if_pos rfl]

/-- Nothing was done yet; the interface and the word of the firmware are arbitrary. -/
structure Initial (state : State) : Prop where
  rfkill : state.rfkill = .null
  registered : state.registered = false
  lastPhyind : state.lastPhyind = 0
  result : state.result = none
  freed : state.freed = false

def machine : Machine State Label where
  initial := Initial
  step := step firmware

/-! ## The life of the switch -/

def Pointer.IsLive : Pointer → Prop
  | .live _ => True
  | .null | .dangling => False

/-- An event that reports a change finds a switch, and `wl_free` leaves none behind. -/
def Sound (state : State) : Label → Prop
  | .radioEvent getRadio leftover =>
      state.lastPhyind ≠ gotRadio getRadio leftover state &&& wlRadioHwDisable →
        state.rfkill.IsLive
  | .free => ¬(wlUninitRfkill state).rfkill.IsLive
  | _ => True

/-- `wl_init_rfkill` has registered the switch and `wl_free` was not called, or it has failed at
`WLC_GET_RADIO`; at `wl_free` it has not failed there. -/
def Guarded (state : State) : Label → Prop
  | .radioEvent getRadio leftover =>
      state.lastPhyind ≠ gotRadio getRadio leftover state &&& wlRadioHwDisable →
        (state.result = some 0 ∧ state.freed = false) ∨ state.result = some 1
  | .free => state.result ≠ some 1
  | _ => True

/-- What the result of `wl_init_rfkill` says about the switch. -/
structure Life (state : State) : Prop where
  registered : state.registered = true ↔ state.result = some 0 ∧ state.freed = false
  live : state.rfkill.IsLive ↔ state.registered = true ∨ state.result = some 1

theorem Initial.life {state : State} (h : Initial state) : Life state := by
  constructor
  · simp [h.registered, h.result]
  · simp [h.rfkill, h.registered, h.result, Pointer.IsLive]

theorem life_init {answers : InitAnswers} {state : State} (h : Life state)
    (hnew : state.result = none ∧ state.freed = false) :
    Life { (wlInitRfkill answers state).2 with result := some (wlInitRfkill answers state).1 } := by
  have hregistered : state.registered = false := by
    have hresult := h.registered
    rw [hnew.1] at hresult
    simpa using hresult
  unfold wlInitRfkill
  split
  · exact ⟨by simp [hregistered, enomem], by simp [hregistered, enomem, Pointer.IsLive]⟩
  split
  · exact ⟨by simp [hregistered], by simp [Pointer.IsLive]⟩
  split
  · exact ⟨by simp [hregistered], by simp [hregistered, Pointer.IsLive]⟩
  · exact ⟨by simp [hnew.2], by simp [Pointer.IsLive]⟩

/-- A step that leaves the driver's record of the switch and its being there as they were. -/
theorem Life.of_same {state next : State} (h : Life state)
    (hrfkill : next.rfkill.IsLive ↔ state.rfkill.IsLive)
    (hregistered : next.registered = state.registered) (hresult : next.result = state.result)
    (hfreed : next.freed = state.freed) : Life next := by
  constructor
  · rw [hregistered, hresult, hfreed]
    exact h.registered
  · rw [hregistered, hresult, hrfkill]
    exact h.live

theorem wlRadioEvent_isLive (getRadio : ℤ) (leftover : UInt32) (state : State) :
    (wlRadioEvent getRadio leftover state).rfkill.IsLive ↔ state.rfkill.IsLive := by
  unfold wlRadioEvent wlReportRadioState
  dsimp only
  split
  · rfl
  · cases hpointer : state.rfkill <;> simp [Pointer.IsLive]

theorem wlRadioEvent_same (getRadio : ℤ) (leftover : UInt32) (state : State) :
    (wlRadioEvent getRadio leftover state).registered = state.registered ∧
      (wlRadioEvent getRadio leftover state).result = state.result ∧
      (wlRadioEvent getRadio leftover state).freed = state.freed ∧
      (wlRadioEvent getRadio leftover state).radio = state.radio := by
  unfold wlRadioEvent wlReportRadioState
  dsimp only
  split
  · exact ⟨rfl, rfl, rfl, rfl⟩
  · cases state.rfkill <;> exact ⟨rfl, rfl, rfl, rfl⟩

theorem Life.step {state next : State} {label : Label} (h : Life state)
    (hstep : (machine firmware).step state label = some next) : Life next := by
  cases label with
  | init answers =>
    obtain ⟨hnew, rfl⟩ := step_init firmware hstep
    exact life_init h hnew
  | turnHardware off =>
    cases hstep
    exact h.of_same Iff.rfl rfl rfl rfl
  | radioEvent getRadio leftover =>
    cases hstep
    obtain ⟨hregistered, hresult, hfreed, -⟩ := wlRadioEvent_same getRadio leftover state
    exact h.of_same (wlRadioEvent_isLive getRadio leftover state) hregistered hresult hfreed
  | setBlock blocked error =>
    simp only [machine, Rfkill.step] at hstep
    split at hstep
    next switch hswitch =>
      obtain ⟨-, hnext⟩ := Option.ite_none_right_eq_some.mp hstep
      cases hnext
      unfold setBlocked wlSetRadioBlock
      by_cases herror : error < 0
      · rw [if_pos herror]
        exact h.of_same Iff.rfl rfl rfl rfl
      · rw [if_neg herror]
        exact h.of_same (by simp [hswitch, Pointer.IsLive]) rfl rfl rfl
    all_goals cases hstep
  | setTxpow vwrq error =>
    obtain ⟨-, hnext⟩ := Option.ite_none_right_eq_some.mp hstep
    cases hnext
    split
    · exact h.of_same Iff.rfl rfl rfl rfl
    · exact h
  | setTxPower type mbm error =>
    obtain ⟨-, hnext⟩ := Option.ite_none_right_eq_some.mp hstep
    cases hnext
    split
    · exact h.of_same Iff.rfl rfl rfl rfl
    · exact h
  | free =>
    obtain ⟨hfreed, hnext⟩ := Option.ite_none_left_eq_some.mp hstep
    cases hnext
    have hlive := h.live
    unfold wlUninitRfkill
    by_cases hregistered : state.registered = true
    · have hresult := (h.registered.mp hregistered).1
      rw [if_pos hregistered]
      exact ⟨by simp, by simp [hresult, Pointer.IsLive]⟩
    · rw [if_neg hregistered]
      exact ⟨by simp [hregistered], hlive⟩

theorem sound_iff_guarded {state : State} (h : Life state) (label : Label) :
    Sound state label ↔ Guarded state label := by
  cases label with
  | radioEvent getRadio leftover =>
    refine forall_congr' fun _ ↦ ?_
    rw [h.live, h.registered]
  | free =>
    refine not_congr ?_
    unfold wlUninitRfkill
    by_cases hregistered : state.registered = true
    · have hresult := (h.registered.mp hregistered).1
      rw [if_pos hregistered]
      simp [hresult, Pointer.IsLive]
    · rw [if_neg hregistered, h.live]
      simp [hregistered]
  | _ => exact Iff.rfl

/-- In every run, whatever the kernel and the firmware answer, only a switch that is there is
touched and none is left behind, exactly when every reported change of the hardware switch comes
between the registration and `wl_free`, or after `WLC_GET_RADIO` has failed in `wl_init_rfkill`, and
`wl_free` is not called after such a failure. -/
theorem switch_sound_iff {state : State} (labels : List Label)
    (hinitial : (machine firmware).initial state) :
    (machine firmware).Along Sound state labels ↔
      (machine firmware).Along Guarded state labels := by
  have hstep : ∀ state label next, Life state → Sound state label →
      (machine firmware).step state label = some next → Life next :=
    fun _ _ _ hlife _ hnext ↦ hlife.step firmware hnext
  exact Machine.along_congr (fun _ label hlife ↦ sound_iff_guarded hlife label) hstep hinitial.life

/-- A driver that was just loaded, with this word in the firmware. -/
def loaded (radio : UInt32) : State where
  api := .cfg80211
  rfkill := .null
  registered := false
  lastPhyind := 0
  radio := radio
  outstanding := false
  result := none
  freed := false

theorem initial_loaded (radio : UInt32) : Initial (loaded radio) := ⟨rfl, rfl, rfl, rfl, rfl⟩

/-- A failure of `WLC_GET_RADIO` leaves the switch behind. -/
theorem switch_sound_iff_loaded :
    ¬(machine replacing).Along Sound (loaded 0) [.init ⟨true, -1, 0⟩, .free] := by
  rw [switch_sound_iff replacing _ (initial_loaded 0)]
  intro h
  exact (h.2 _ rfl).1 rfl

/-! ## The hardware switch -/

/-- With no event outstanding, the kernel's hardware state is that of the firmware. -/
def Tracked (state : State) : Prop :=
  state.registered = true → state.outstanding = false → ∀ switch, state.rfkill = .live switch →
    switch.hwBlocked = (state.radio &&& wlRadioHwDisable != 0)

def Tracks (state : State) (label : Label) : Prop :=
  ∀ next, step firmware state label = some next → Tracked next

/-- The switch is registered while the hardware switch is on, or before its change is announced; and
what is left in the buffer of a failed `WLC_GET_RADIO` agrees with the hardware switch. -/
def Announced (state : State) : Label → Prop
  | .init answers => state.result = none → state.freed = false → answers.Succeed →
      state.outstanding = true ∨ state.radio &&& wlRadioHwDisable = 0
  | .radioEvent getRadio leftover => state.registered = true → getRadio < 0 →
      leftover &&& wlRadioHwDisable = state.radio &&& wlRadioHwDisable
  | _ => True

/-- `last_phyind` is the last state that was announced, and the kernel knows it. -/
structure Known (state : State) : Prop where
  life : Life state
  fresh : state.result = none → state.lastPhyind = 0
  phyind : state.registered = true → state.outstanding = false →
    state.lastPhyind = state.radio &&& wlRadioHwDisable
  reported : state.registered = true → ∀ switch, state.rfkill = .live switch →
    switch.hwBlocked = (state.lastPhyind != 0)

theorem Known.tracked {state : State} (h : Known state) : Tracked state := by
  intro hregistered houtstanding switch hswitch
  rw [h.reported hregistered switch hswitch, h.phyind hregistered houtstanding]

theorem Initial.known {state : State} (h : Initial state) : Known state where
  life := h.life
  fresh _ := h.lastPhyind
  phyind hregistered := by
    rw [h.registered] at hregistered
    cases hregistered
  reported hregistered := by
    rw [h.registered] at hregistered
    cases hregistered

theorem wlRadioEvent_lastPhyind (getRadio : ℤ) (leftover : UInt32) (state : State) :
    (wlRadioEvent getRadio leftover state).lastPhyind =
      gotRadio getRadio leftover state &&& wlRadioHwDisable := by
  unfold wlRadioEvent wlReportRadioState
  dsimp only
  split
  · assumption
  · cases state.rfkill <;> rfl

theorem wlRadioEvent_reported {getRadio : ℤ} {leftover : UInt32} {state : State}
    (h : ∀ switch, state.rfkill = .live switch → switch.hwBlocked = (state.lastPhyind != 0))
    (switch : Switch) (hswitch : (wlRadioEvent getRadio leftover state).rfkill = .live switch) :
    switch.hwBlocked = ((wlRadioEvent getRadio leftover state).lastPhyind != 0) := by
  rw [wlRadioEvent_lastPhyind]
  unfold wlRadioEvent wlReportRadioState at hswitch
  dsimp only at hswitch
  split at hswitch
  next hsame =>
    rw [← hsame]
    exact h switch hswitch
  next =>
    cases hpointer : state.rfkill with
    | live before =>
      rw [hpointer] at hswitch
      cases hswitch
      rfl
    | null =>
      rw [hpointer] at hswitch
      cases hswitch
    | dangling =>
      rw [hpointer] at hswitch
      cases hswitch

/-- One bit is what is not zero of it. -/
theorem hw_eq_of_bne {first second : UInt32}
    (h : (first &&& wlRadioHwDisable != 0) = (second &&& wlRadioHwDisable != 0)) :
    first &&& wlRadioHwDisable = second &&& wlRadioHwDisable := by
  have hbit : ∀ word : UInt32, word &&& wlRadioHwDisable = 0 ∨
      word &&& wlRadioHwDisable = wlRadioHwDisable := by
    intro word
    have hbound : (word.toNat &&& 2) ≤ 2 := Nat.and_le_right
    have heven : (word.toNat &&& 2) % 2 ^ 1 = word.toNat % 2 ^ 1 &&& 0 := Nat.and_mod_two_pow
    rw [Nat.and_zero] at heven
    rw [← UInt32.toNat_inj, ← UInt32.toNat_inj, UInt32.toNat_and]
    change (word.toNat &&& 2) = 0 ∨ (word.toNat &&& 2) = 2
    omega
  rcases hbit first with hfirst | hfirst
  · rcases hbit second with hsecond | hsecond
    · rw [hfirst, hsecond]
    · rw [hfirst, hsecond] at h
      cases h
  · rcases hbit second with hsecond | hsecond
    · rw [hfirst, hsecond] at h
      cases h
    · rw [hfirst, hsecond]

/-- A step that changes neither the hardware switch nor what is known of it. -/
theorem Known.of_same {state next : State} (h : Known state) (hlife : Life next)
    (hradio : next.radio &&& wlRadioHwDisable = state.radio &&& wlRadioHwDisable)
    (hrfkill : ∀ switch, next.rfkill = .live switch →
      ∃ before, state.rfkill = .live before ∧ before.hwBlocked = switch.hwBlocked)
    (hregistered : next.registered = state.registered)
    (hphyind : next.lastPhyind = state.lastPhyind)
    (houtstanding : next.outstanding = state.outstanding) (hresult : next.result = state.result) :
    Known next where
  life := hlife
  fresh hnone := by
    rw [hphyind]
    exact h.fresh (hresult ▸ hnone)
  phyind hnext hnone := by
    rw [hphyind, hradio]
    exact h.phyind (hregistered ▸ hnext) (houtstanding ▸ hnone)
  reported hnext switch hswitch := by
    obtain ⟨before, hbefore, hsame⟩ := hrfkill switch hswitch
    rw [hphyind, ← hsame]
    exact h.reported (hregistered ▸ hnext) before hbefore

theorem known_init {answers : InitAnswers} {state next : State} (h : Known state)
    (hannounced : Announced state (.init answers))
    (hstep : (machine firmware).step state (.init answers) = some next) : Known next := by
  have hlife := h.life.step firmware hstep
  obtain ⟨⟨hresult, hfreed⟩, hnext⟩ := step_init firmware hstep
  have hfresh := h.fresh hresult
  have hold := h.life.registered
  rw [hresult] at hold
  have hunregistered : state.registered = false := by simpa using hold
  by_cases hsucceed : answers.Succeed
  · rw [wlInitRfkill_of_succeed hsucceed] at hnext
    subst hnext
    refine ⟨hlife, (fun hnone ↦ by cases hnone), fun _ houtstanding ↦ ?_, fun _ switch hswitch ↦ ?_⟩
    · rcases hannounced hresult hfreed hsucceed with hevent | hon
      · rw [hevent] at houtstanding
        cases houtstanding
      · exact hfresh.trans hon.symm
    · cases hswitch
      rw [hfresh]
      rfl
  · have hregistered : next.registered = false := by
      rw [hnext]
      exact (wlInitRfkill_of_not_succeed hsucceed state).trans hunregistered
    have hsome : next.result ≠ none := by
      rw [hnext]
      exact Option.some_ne_none _
    refine ⟨hlife, fun hnone ↦ absurd hnone hsome, fun htrue ↦ ?_, fun htrue ↦ ?_⟩
    · rw [hregistered] at htrue
      cases htrue
    · rw [hregistered] at htrue
      cases htrue

/-- The three functions that switch the radio leave the bit of the hardware. -/
theorem hw_of_setRadio {arg : UInt32} {off : Bool} (harg : arg = switchTo off) (word : UInt32) :
    firmware.setRadio word arg &&& wlRadioHwDisable = word &&& wlRadioHwDisable := by
  rw [harg, setRadio_hw]

theorem Known.step {state next : State} {label : Label} (h : Known state)
    (hguarded : Guarded state label) (hannounced : Announced state label)
    (hstep : (machine firmware).step state label = some next) : Known next := by
  have hlife := h.life.step firmware hstep
  cases label with
  | init answers => exact known_init firmware h hannounced hstep
  | turnHardware off =>
    cases hstep
    refine ⟨hlife, h.fresh, fun hregistered houtstanding ↦ ?_, h.reported⟩
    obtain ⟨hbefore, hsame⟩ := Bool.or_eq_false_iff.mp houtstanding
    refine (h.phyind hregistered hbefore).trans ?_
    rw [← bne_eq_false_iff_eq.mp hsame]
    rfl
  | radioEvent getRadio leftover =>
    cases hstep
    obtain ⟨hregistered, hresult, -, hradio⟩ := wlRadioEvent_same getRadio leftover state
    refine ⟨hlife, fun hnone ↦ ?_, fun htrue _ ↦ ?_, fun htrue ↦ ?_⟩
    · -- an event before `wl_init_rfkill` reports nothing
      have hunchanged :
          state.lastPhyind = gotRadio getRadio leftover state &&& wlRadioHwDisable := by
        by_contra hchanged
        have hsome := hguarded hchanged
        rw [← hresult, hnone] at hsome
        simp at hsome
      exact (wlRadioEvent_lastPhyind ..).trans (hunchanged.symm.trans (h.fresh (hresult ▸ hnone)))
    · refine (wlRadioEvent_lastPhyind ..).trans ?_
      have hword : gotRadio getRadio leftover state &&& wlRadioHwDisable =
          state.radio &&& wlRadioHwDisable := by
        unfold gotRadio
        split
        next hfailed => exact hannounced (hregistered ▸ htrue) hfailed
        next => rfl
      rw [hword, ← hradio]
    · exact wlRadioEvent_reported (h.reported (hregistered ▸ htrue))
  | setBlock blocked error =>
    simp only [machine, Rfkill.step] at hstep
    split at hstep
    next switch hswitch =>
      obtain ⟨-, hnext⟩ := Option.ite_none_right_eq_some.mp hstep
      cases hnext
      unfold setBlocked wlSetRadioBlock at hlife ⊢
      by_cases herror : error < 0
      · rw [if_pos herror]
        exact h
      · rw [if_neg herror] at hlife ⊢
        refine h.of_same hlife (hw_of_setRadio firmware (radioval_eq blocked) _) ?_ rfl rfl rfl rfl
        intro after hafter
        cases hafter
        exact ⟨switch, hswitch, rfl⟩
    all_goals cases hstep
  | setTxpow vwrq error =>
    obtain ⟨-, hnext⟩ := Option.ite_none_right_eq_some.mp hstep
    cases hnext
    revert hlife
    split
    · intro hlife
      exact h.of_same hlife (hw_of_setRadio firmware (iwDisable_eq vwrq) _)
        (fun switch hswitch ↦ ⟨switch, hswitch, rfl⟩) rfl rfl rfl rfl
    · intro _
      exact h
  | setTxPower type mbm error =>
    obtain ⟨-, hnext⟩ := Option.ite_none_right_eq_some.mp hstep
    cases hnext
    revert hlife
    split
    · intro hlife
      exact h.of_same hlife (hw_of_setRadio firmware cfg80211Disable_eq _)
        (fun switch hswitch ↦ ⟨switch, hswitch, rfl⟩) rfl rfl rfl rfl
    · intro _
      exact h
  | free =>
    obtain ⟨-, hnext⟩ := Option.ite_none_left_eq_some.mp hstep
    cases hnext
    unfold wlUninitRfkill at hlife ⊢
    by_cases hregistered : state.registered = true
    · rw [if_pos hregistered] at hlife ⊢
      exact ⟨hlife, h.fresh, (fun htrue ↦ by cases htrue), fun htrue ↦ by cases htrue⟩
    · rw [if_neg hregistered] at hlife ⊢
      exact ⟨hlife, h.fresh, h.phyind, h.reported⟩

/-- A registration that is not announced, or a failed question that is answered wrongly, is seen at
once. -/
theorem announced_of_tracks {state : State} {label : Label} (h : Known state)
    (htracks : Tracks firmware state label) : Announced state label := by
  cases label with
  | init answers =>
    intro hresult hfreed hsucceed
    by_contra hnot
    obtain ⟨houtstanding, hoff⟩ := not_or.mp hnot
    have hstep := step_init_of_new firmware answers ⟨hresult, hfreed⟩
    rw [wlInitRfkill_of_succeed hsucceed] at hstep
    have hblocked := htracks _ hstep rfl (by simpa using houtstanding) _ rfl
    exact hoff (by simpa using hblocked.symm)
  | radioEvent getRadio leftover =>
    intro hregistered hfailed
    obtain ⟨hregistered', -, -, hradio⟩ := wlRadioEvent_same getRadio leftover state
    have hlive : (wlRadioEvent getRadio leftover state).rfkill.IsLive :=
      (wlRadioEvent_isLive getRadio leftover state).mpr (h.life.live.mpr (.inl hregistered))
    cases hpointer : (wlRadioEvent getRadio leftover state).rfkill with
    | live switch =>
      have htracked := htracks _ rfl (hregistered'.trans hregistered) rfl switch hpointer
      have hreported := wlRadioEvent_reported (h.reported hregistered) switch hpointer
      rw [htracked, wlRadioEvent_lastPhyind, gotRadio, if_pos hfailed] at hreported
      change (_ &&& _ != 0) = _ at hreported
      rw [hradio] at hreported
      exact hw_eq_of_bne hreported.symm
    | null =>
      rw [hpointer] at hlive
      cases hlive
    | dangling =>
      rw [hpointer] at hlive
      cases hlive
  | _ => trivial

/-- In every run that touches only a switch that is there and leaves none behind, the kernel knows
the hardware switch whenever no event is outstanding, exactly when the switch is registered while
the hardware switch is on or its change is still to be announced, and no failed `WLC_GET_RADIO`
misleads an event. -/
theorem hardware_tracked_iff {state : State} (labels : List Label)
    (hinitial : (machine firmware).initial state) :
    (machine firmware).Along (fun state label ↦ Guarded state label ∧ Tracks firmware state label)
        state labels ↔
      (machine firmware).Along (fun state label ↦ Guarded state label ∧ Announced state label)
        state labels := by
  have hcondition : ∀ state label, Known state →
      (Guarded state label ∧ Tracks firmware state label ↔
        Guarded state label ∧ Announced state label) := by
    intro state label hknown
    refine and_congr_right fun hguarded ↦ ⟨announced_of_tracks firmware hknown, ?_⟩
    intro hannounced next hnext
    exact (hknown.step firmware hguarded hannounced hnext).tracked
  have hstep : ∀ state label next, Known state →
      Guarded state label ∧ Tracks firmware state label →
      (machine firmware).step state label = some next → Known next := by
    intro state label next hknown h hnext
    have hannounced := ((hcondition state label hknown).mp h).2
    exact hknown.step firmware h.1 hannounced hnext
  exact Machine.along_congr hcondition hstep hinitial.known

/-- The hardware switch is off when the driver is loaded, and nothing changes it. -/
theorem hardware_tracked_iff_loaded :
    ¬(machine replacing).Along
      (fun state label ↦ Guarded state label ∧ Tracks replacing state label)
      (loaded wlRadioHwDisable) [.init ⟨true, 0, 0⟩] := by
  rw [hardware_tracked_iff replacing _ (initial_loaded wlRadioHwDisable)]
  intro h
  rcases h.1.2 rfl rfl ⟨rfl, le_refl 0, rfl⟩ with houtstanding | hon
  · cases houtstanding
  · exact absurd hon (by decide)

/-! ## The software switch -/

/-- The kernel's software state is the bit of the firmware. -/
def SoftAgrees (state : State) : Prop :=
  state.registered = true → ∀ switch, state.rfkill = .live switch →
    switch.swBlocked = (state.radio &&& wlRadioSwDisable != 0)

def Agrees (state : State) (label : Label) : Prop :=
  ∀ next, step firmware state label = some next → SoftAgrees next

/-- The switch is registered while the radio is on or off by software, and a request for a transmit
power that reaches the firmware leaves the radio as the kernel has blocked it. -/
def Respects (state : State) : Label → Prop
  | .init answers => state.result = none → state.freed = false → answers.Succeed →
      state.radio ≠ 0 → state.radio &&& wlRadioSwDisable ≠ 0
  | .setTxpow vwrq error => state.api = .wext → error = 0 → state.registered = true →
      ∀ switch, state.rfkill = .live switch → switch.swBlocked = (vwrq.disabled != 0)
  | .setTxPower type mbm error => state.api = .cfg80211 → reachesRadio type mbm error = true →
      state.registered = true → ∀ switch, state.rfkill = .live switch → switch.swBlocked = false
  | _ => True

theorem bne_iff_sw (word : UInt32) :
    (word != 0) = (word &&& wlRadioSwDisable != 0) ↔ word ≠ 0 → word &&& wlRadioSwDisable ≠ 0 := by
  by_cases hword : word = 0
  · simp [hword]
  · rw [bne_iff_ne.mpr hword, forall_prop_of_true hword, eq_comm, bne_iff_ne]

theorem sw_of_setRadio {arg : UInt32} {off : Bool} (harg : arg = switchTo off) (word : UInt32) :
    (firmware.setRadio word arg &&& wlRadioSwDisable != 0) = off := by
  rw [harg, setRadio_sw]
  cases off <;> rfl

/-- The hardware switch is another bit. -/
theorem turnHardware_sw (off : Bool) (state : State) :
    (turnHardware off state).radio &&& wlRadioSwDisable = state.radio &&& wlRadioSwDisable := by
  have hsw : wlRadioSwDisable = ~~~wlRadioHwDisable &&& wlRadioSwDisable := rfl
  have hkept : (turnHardware off state).radio &&& ~~~wlRadioHwDisable =
      state.radio &&& ~~~wlRadioHwDisable :=
    Memory.replace_and_not state.radio (by cases off <;> rfl)
  rw [hsw, ← UInt32.and_assoc, ← UInt32.and_assoc, hkept]

theorem wlRadioEvent_swBlocked {getRadio : ℤ} {leftover : UInt32} {state : State} {switch : Switch}
    (h : (wlRadioEvent getRadio leftover state).rfkill = .live switch) :
    ∃ before, state.rfkill = .live before ∧ before.swBlocked = switch.swBlocked := by
  unfold wlRadioEvent wlReportRadioState at h
  dsimp only at h
  split at h
  · exact ⟨switch, h, rfl⟩
  · cases hpointer : state.rfkill with
    | live before =>
      rw [hpointer] at h
      cases h
      exact ⟨before, rfl, rfl⟩
    | null =>
      rw [hpointer] at h
      cases h
    | dangling =>
      rw [hpointer] at h
      cases h

/-- An accepted request for a transmit power agrees when it is what the kernel has blocked. -/
theorem softAgrees_setRadio_iff {state : State} {arg : UInt32} {off : Bool}
    (harg : arg = switchTo off) :
    SoftAgrees { state with radio := firmware.setRadio state.radio arg } ↔
      (state.registered = true → ∀ switch, state.rfkill = .live switch →
        switch.swBlocked = off) := by
  unfold SoftAgrees
  dsimp only
  rw [sw_of_setRadio firmware harg]

theorem agrees_iff_respects {state : State} (h : Life state) (hagrees : SoftAgrees state)
    (label : Label) : Agrees firmware state label ↔ Respects state label := by
  have hsome : ∀ {next : State}, step firmware state label = some next →
      (Agrees firmware state label ↔ SoftAgrees next) := by
    intro next hnext
    unfold Agrees
    simp [hnext]
  cases label with
  | init answers =>
    by_cases hnew : state.result = none ∧ state.freed = false
    · rw [hsome (step_init_of_new firmware answers hnew)]
      have hregistered := h.registered
      rw [hnew.1] at hregistered
      have hunregistered : state.registered = false := by simpa using hregistered
      by_cases hsucceed : answers.Succeed
      · rw [wlInitRfkill_of_succeed hsucceed]
        constructor
        · intro hsoft _ _ _
          exact (bne_iff_sw state.radio).mp (hsoft rfl _ rfl)
        · intro hrespects _ switch hswitch
          cases hswitch
          exact (bne_iff_sw state.radio).mpr (hrespects hnew.1 hnew.2 hsucceed)
      · refine iff_of_true (fun htrue ↦ ?_) fun _ _ h ↦ absurd h hsucceed
        rw [wlInitRfkill_of_not_succeed hsucceed state, hunregistered] at htrue
        cases htrue
    · refine iff_of_true (fun next hnext ↦ ?_) (fun hresult hfreed ↦ absurd ⟨hresult, hfreed⟩ hnew)
      exact absurd (step_init firmware hnext).1 hnew
  | turnHardware off =>
    rw [hsome rfl]
    refine iff_of_true (fun hregistered switch hswitch ↦ ?_) trivial
    rw [turnHardware_sw]
    exact hagrees hregistered switch hswitch
  | radioEvent getRadio leftover =>
    rw [hsome rfl]
    obtain ⟨hregistered, -, -, hradio⟩ := wlRadioEvent_same getRadio leftover state
    refine iff_of_true (fun htrue switch hswitch ↦ ?_) trivial
    obtain ⟨before, hbefore, hsame⟩ := wlRadioEvent_swBlocked hswitch
    rw [← hsame]
    exact (hagrees (hregistered ▸ htrue) before hbefore).trans (by rw [hradio])
  | setBlock blocked error =>
    refine iff_of_true (fun next hnext ↦ ?_) trivial
    simp only [step] at hnext
    split at hnext
    next switch hswitch =>
      obtain ⟨-, hnext⟩ := Option.ite_none_right_eq_some.mp hnext
      cases hnext
      unfold setBlocked wlSetRadioBlock
      by_cases herror : error < 0
      · rw [if_pos herror]
        exact hagrees
      · rw [if_neg herror]
        intro _ after hafter
        cases hafter
        exact (sw_of_setRadio firmware (radioval_eq blocked) _).symm
    all_goals cases hnext
  | setTxpow vwrq error =>
    by_cases hapi : state.api = .wext
    · rw [hsome (if_pos hapi)]
      by_cases herror : error = 0
      · rw [if_pos herror, softAgrees_setRadio_iff firmware (iwDisable_eq vwrq)]
        exact ⟨fun h _ _ ↦ h, fun h ↦ h hapi herror⟩
      · rw [if_neg herror]
        exact iff_of_true hagrees fun _ hzero ↦ absurd hzero herror
    · refine iff_of_true (fun next hnext ↦ ?_) fun htrue ↦ absurd htrue hapi
      exact absurd (Option.ite_none_right_eq_some.mp hnext).1 hapi
  | setTxPower type mbm error =>
    by_cases hapi : state.api = .cfg80211
    · rw [hsome (if_pos hapi)]
      by_cases hreaches : reachesRadio type mbm error = true
      · rw [if_pos hreaches, softAgrees_setRadio_iff firmware cfg80211Disable_eq]
        exact ⟨fun h _ _ ↦ h, fun h ↦ h hapi hreaches⟩
      · rw [if_neg hreaches]
        exact iff_of_true hagrees fun _ htrue ↦ absurd htrue hreaches
    · refine iff_of_true (fun next hnext ↦ ?_) fun htrue ↦ absurd htrue hapi
      exact absurd (Option.ite_none_right_eq_some.mp hnext).1 hapi
  | free =>
    refine iff_of_true (fun next hnext ↦ ?_) trivial
    obtain ⟨-, hnext⟩ := Option.ite_none_left_eq_some.mp hnext
    cases hnext
    unfold wlUninitRfkill
    by_cases hregistered : state.registered = true
    · rw [if_pos hregistered]
      intro htrue
      cases htrue
    · rw [if_neg hregistered]
      exact hagrees

/-- In every run, the kernel's software state is that of the firmware after every step, exactly when
the switch is registered while the radio is on or its software bit is set, and no accepted request
for a transmit power switches the radio against the kernel. -/
theorem software_agrees_iff {state : State} (labels : List Label)
    (hinitial : (machine firmware).initial state) :
    (machine firmware).Along (Agrees firmware) state labels ↔
      (machine firmware).Along Respects state labels := by
  have hcondition : ∀ state label, Life state ∧ SoftAgrees state →
      (Agrees firmware state label ↔ Respects state label) :=
    fun _ label h ↦ agrees_iff_respects firmware h.1 h.2 label
  have hstep : ∀ state label next, Life state ∧ SoftAgrees state → Agrees firmware state label →
      (machine firmware).step state label = some next → Life next ∧ SoftAgrees next :=
    fun _ _ next h hagrees hnext ↦ ⟨h.1.step firmware hnext, hagrees next hnext⟩
  have hsoft : SoftAgrees state := by
    intro htrue
    rw [hinitial.registered] at htrue
    cases htrue
  exact Machine.along_congr hcondition hstep ⟨hinitial.life, hsoft⟩

/-- A request for an automatic power switches a radio on that the kernel has blocked. -/
theorem software_agrees_iff_loaded :
    ¬(machine replacing).Along (Agrees replacing) (loaded 0)
      [.init ⟨true, 0, 0⟩, .setBlock true 0, .setTxPower .automatic 0 0] := by
  rw [software_agrees_iff replacing _ (initial_loaded 0)]
  intro h
  have hunblocked := ((h.2 _ rfl).2 _ rfl).1 rfl rfl rfl _ rfl
  cases hunblocked

end BroadcomWl.Linux.Rfkill
