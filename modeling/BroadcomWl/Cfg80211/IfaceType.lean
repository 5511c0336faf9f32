import BroadcomWl.Cfg80211.Calls

/-!
# Changing the type of the interface

The type of the interface is kept in four places: `conf->mode`, which the event handlers ask,
`wdev->iftype`, and the firmware's infra and ap settings. `wl_cfg80211_change_iface` writes them one
after another. The first two are written before the firmware is asked, and nothing is taken back
when it refuses. `wl_cfg80211_up` sends the settings for `wdev->iftype` again.
-/

namespace BroadcomWl.Cfg80211.IfaceType

open BroadcomWl.Systems

variable {Device : Type*}

/-! ## Bringing the interface up -/

/-- The answers to `WLC_GET_PHYLIST` and to the variable `offloads`. -/
structure UpAnswers where
  phylistErr : ℤ
  phyList : UInt32
  offloadsErr : ℤ
  offloads : UInt32

/-- The driver, whether the wiphy has the 5 GHz band and supports wake-ups, and
`wl->offloads`. -/
structure State (Device : Type*) where
  world : World Device
  band5GHz : Bool
  wowlan : Bool
  offloads : Bool

section Source

variable (firmware : Firmware Device)

/-- `wl_set_mode`. -/
def wlSetMode (iftype : Iftype) (world : World Device) : ℤ × World Device :=
  let set (infra : UInt32) :=
    ifOk (wlDevSet firmware (.setInfra infra) world) (wlDevSet firmware (.setAp 0))
  match iftype with
  | .monitor | .wds => (-Errno.einval, world)
  | .adhoc => set 0
  | .station => set 1
  | .other => (-Errno.einval, world)

/-- `wl_update_wiphybands`; the phy is the first byte of the list. -/
def wlUpdateWiphybands (answers : UpAnswers) (state : State Device) : ℤ × State Device :=
  if answers.phylistErr ≠ 0 then (answers.phylistErr, state)
  else
    let phy := Char.ofNat (answers.phyList.toNat % 256)
    if phy = 'n' ∨ phy = 'a' ∨ phy = 'v' then (0, { state with band5GHz := true })
    else (0, state)

/-- `wl_update_wowl`. -/
def wlUpdateWowl (answers : UpAnswers) (state : State Device) : State Device :=
  if answers.offloadsErr = 0 ∧ answers.offloads = 1 then { state with offloads := true }
  else
    { state with
      offloads := false
      wowlan := false }

/-- `wl_cfg80211_up`; the result of `wl_set_mode` is not looked at. -/
def wlCfg80211Up (answers : UpAnswers) (state : State Device) : ℤ × State Device :=
  let world := (wlSetMode firmware state.world.iftype state.world).2
  let (err, state) := wlUpdateWiphybands answers { state with world := world }
  if err ≠ 0 then (err, state) else (0, wlUpdateWowl answers state)

inductive Call where
  | changeIface (type : Iftype)
  | up (answers : UpAnswers)

def execute (state : State Device) : Call → ℤ × State Device
  | .changeIface type =>
      let (err, world) := wlCfg80211ChangeIface firmware type state.world
      (err, { state with world := world })
  | .up answers => wlCfg80211Up firmware answers state

/-- Every call is possible in every state. -/
def iface : Machine (State Device) Call where
  initial _ := True
  step state call := some (execute firmware state call).2

end Source

/-! ## What a change should do -/

/-- The firmware's infra and ap settings are what was last set with success. -/
structure KeepsMode (firmware : Firmware Device) (infra ap : Device → UInt32) : Prop where
  setInfra : ∀ device val, infra (firmware device (.setInfra val)).2 =
    if (firmware device (.setInfra val)).1.err = 0 then val else infra device
  setAp : ∀ device val, ap (firmware device (.setAp val)).2 =
    if (firmware device (.setAp val)).1.err = 0 then val else ap device
  infra_setAp : ∀ device val, infra (firmware device (.setAp val)).2 = infra device
  ap_setInfra : ∀ device val, ap (firmware device (.setInfra val)).2 = ap device

/-- The mode and the infra setting of a type that the driver supports. -/
def settings : Iftype → Option (Mode × UInt32)
  | .adhoc => some (.ibss, 0)
  | .station => some (.bss, 1)
  | .monitor | .wds | .other => none

section Properties

variable (firmware : Firmware Device) (infra ap : Device → UInt32)

/-- All four copies are those of the type. -/
def Describes (type : Iftype) (world : World Device) : Prop :=
  settings type = some (world.priv.mode, infra world.device) ∧ world.iftype = type ∧
    ap world.device = 0

/-- An error leaves the mode, the type and the infra setting alone; without one all copies describe
the new type. -/
structure ChangesAtomically (type : Iftype) (world : World Device) : Prop where
  rejected : (wlCfg80211ChangeIface firmware type world).1 ≠ 0 →
    (wlCfg80211ChangeIface firmware type world).2.priv.mode = world.priv.mode ∧
      (wlCfg80211ChangeIface firmware type world).2.iftype = world.iftype ∧
      infra (wlCfg80211ChangeIface firmware type world).2.device = infra world.device
  accepted : (wlCfg80211ChangeIface firmware type world).1 = 0 →
    Describes infra ap type (wlCfg80211ChangeIface firmware type world).2

/-- The driver does not support the type, or the firmware accepts both settings, or what was written
before it refused one was there already. -/
def Settled (type : Iftype) (world : World Device) : Prop :=
  match settings type with
  | none => True
  | some (mode, val) =>
      let (reply, device) := firmware world.device (.setInfra val)
      if reply.err = 0 then
        (firmware device (.setAp 0)).1.err = 0 ∨
          world.priv.mode = mode ∧ world.iftype = type ∧ infra world.device = val
      else world.priv.mode = mode ∧ world.iftype = type

end Properties

/-! ## One change -/

section Change

variable {firmware : Firmware Device} {infra ap : Device → UInt32} {type : Iftype}

theorem changeIface_of_none (h : settings type = none) (world : World Device) :
    (wlCfg80211ChangeIface firmware type world).1 ≠ 0 ∧
      (wlCfg80211ChangeIface firmware type world).2 = world := by
  cases type with
  | monitor | wds => exact ⟨show -Errno.eopnotsupp ≠ 0 by decide, rfl⟩
  | other => exact ⟨show -Errno.einval ≠ 0 by decide, rfl⟩
  | adhoc | station => cases h

theorem changeIface_of_some {mode : Mode} {val : UInt32} (h : settings type = some (mode, val))
    (world : World Device) :
    wlCfg80211ChangeIface firmware type world = setIface firmware type mode val world := by
  cases type with
  | adhoc | station =>
    cases h
    rfl
  | monitor | wds | other => cases h

theorem ifOk_eq (result : ℤ × World Device) (rest : World Device → ℤ × World Device) :
    ifOk result rest = if result.1 = 0 then rest result.2 else result := ite_not ..

section SetIface

variable (mode : Mode) (val : UInt32) (world : World Device)

/-- Mode and type are written whatever the firmware answers. -/
theorem setIface_mode_iftype :
    (setIface firmware type mode val world).2.priv.mode = mode ∧
      (setIface firmware type mode val world).2.iftype = type := by
  unfold setIface ifOk
  dsimp only
  split
  · exact ⟨rfl, rfl⟩
  · exact ⟨rfl, rfl⟩

theorem setIface_err :
    (setIface firmware type mode val world).1 =
      if (firmware world.device (.setInfra val)).1.err = 0 then
        (firmware (firmware world.device (.setInfra val)).2 (.setAp 0)).1.err
      else (firmware world.device (.setInfra val)).1.err := by
  rw [setIface, ifOk_eq, apply_ite Prod.fst]
  rfl

theorem setIface_device :
    (setIface firmware type mode val world).2.device =
      if (firmware world.device (.setInfra val)).1.err = 0 then
        (firmware (firmware world.device (.setInfra val)).2 (.setAp 0)).2
      else (firmware world.device (.setInfra val)).2 := by
  rw [setIface, ifOk_eq, apply_ite Prod.snd, apply_ite World.device]
  rfl

variable (hkeeps : KeepsMode firmware infra ap)
include hkeeps

/-- The infra setting is written as soon as `WLC_SET_INFRA` succeeds. -/
theorem setIface_infra :
    infra (setIface firmware type mode val world).2.device =
      if (firmware world.device (.setInfra val)).1.err = 0 then val else infra world.device := by
  rw [setIface_device, ← hkeeps.setInfra]
  split
  · exact hkeeps.infra_setAp _ 0
  · rfl

theorem setIface_ap (h : (setIface firmware type mode val world).1 = 0) :
    ap (setIface firmware type mode val world).2.device = 0 := by
  rw [setIface_err] at h
  rw [setIface_device]
  by_cases hinfra : (firmware world.device (.setInfra val)).1.err = 0
  · rw [if_pos hinfra] at h ⊢
    rw [hkeeps.setAp, if_pos h]
  · rw [if_neg hinfra] at h
    exact absurd h hinfra

end SetIface

variable (hkeeps : KeepsMode firmware infra ap)
include hkeeps

/-- A change that succeeds has written all four. -/
theorem changeIface_accepted {mode : Mode} {val : UInt32} (h : settings type = some (mode, val))
    {world : World Device} (hzero : (wlCfg80211ChangeIface firmware type world).1 = 0) :
    Describes infra ap type (wlCfg80211ChangeIface firmware type world).2 := by
  rw [changeIface_of_some h] at hzero ⊢
  obtain ⟨hmode, hiftype⟩ := @setIface_mode_iftype _ firmware type mode val world
  have hinfra : infra (setIface firmware type mode val world).2.device = val := by
    have herr := hzero
    rw [setIface_err] at herr
    rw [setIface_infra mode val world hkeeps]
    apply if_pos
    by_contra hrefused
    rw [if_neg hrefused] at herr
    exact hrefused herr
  refine ⟨?_, hiftype, setIface_ap mode val world hkeeps hzero⟩
  rw [h, hmode, hinfra]

/-- A supported type: what is written before the refusal, against what was there. -/
theorem changesAtomically_of_some {mode : Mode} {val : UInt32}
    (h : settings type = some (mode, val)) (world : World Device) :
    ChangesAtomically firmware infra ap type world ↔
      if (firmware world.device (.setInfra val)).1.err = 0 then
        (firmware (firmware world.device (.setInfra val)).2 (.setAp 0)).1.err = 0 ∨
          world.priv.mode = mode ∧ world.iftype = type ∧ infra world.device = val
      else world.priv.mode = mode ∧ world.iftype = type := by
  have hresult := @changeIface_of_some _ firmware _ _ _ h world
  obtain ⟨hmode, hiftype⟩ := @setIface_mode_iftype _ firmware type mode val world
  have herr := @setIface_err _ firmware type mode val world
  have hinfra := @setIface_infra _ firmware infra ap type mode val world hkeeps
  by_cases hset : (firmware world.device (.setInfra val)).1.err = 0
  · rw [if_pos hset] at herr hinfra ⊢
    constructor
    · intro hatomic
      by_cases hap : (firmware (firmware world.device (.setInfra val)).2 (.setAp 0)).1.err = 0
      · exact .inl hap
      · have hrejected := hatomic.rejected
        rw [hresult, herr, hmode, hiftype, hinfra] at hrejected
        obtain ⟨hsameMode, hsameType, hsameInfra⟩ := hrejected hap
        exact .inr ⟨hsameMode.symm, hsameType.symm, hsameInfra.symm⟩
    · intro hsettled
      refine ⟨?_, changeIface_accepted hkeeps h⟩
      rw [hresult, herr, hmode, hiftype, hinfra]
      intro hap
      obtain ⟨hsameMode, hsameType, hsameInfra⟩ := hsettled.resolve_left hap
      exact ⟨hsameMode.symm, hsameType.symm, hsameInfra.symm⟩
  · rw [if_neg hset] at herr hinfra ⊢
    constructor
    · intro hatomic
      have hrejected := hatomic.rejected
      rw [hresult, herr, hmode, hiftype] at hrejected
      obtain ⟨hsameMode, hsameType, -⟩ := hrejected hset
      exact ⟨hsameMode.symm, hsameType.symm⟩
    · rintro ⟨hsameMode, hsameType⟩
      refine ⟨?_, changeIface_accepted hkeeps h⟩
      rw [hresult, hmode, hiftype, hinfra]
      exact fun _ ↦ ⟨hsameMode.symm, hsameType.symm, rfl⟩

theorem changesAtomically_iff (type : Iftype) (world : World Device) :
    ChangesAtomically firmware infra ap type world ↔ Settled firmware infra type world := by
  unfold Settled
  cases hsettings : settings type with
  | none =>
    obtain ⟨herr, hworld⟩ := @changeIface_of_none _ firmware _ hsettings world
    refine iff_of_true ⟨fun _ ↦ ?_, fun hzero ↦ absurd hzero herr⟩ trivial
    rw [hworld]
    exact ⟨rfl, rfl, rfl⟩
  | some values => exact changesAtomically_of_some hkeeps hsettings world

end Change

/-! ## Runs -/

section Runs

variable (firmware : Firmware Device) (infra ap : Device → UInt32)

/-- What is asked of a call; bringing the interface up may do anything. -/
def Call.Atomic (state : State Device) : Call → Prop
  | .changeIface type => ChangesAtomically firmware infra ap type state.world
  | .up _ => True

def Call.Settled (state : State Device) : Call → Prop
  | .changeIface type => IfaceType.Settled firmware infra type state.world
  | .up _ => True

end Runs

/-- In a run of changes and of bringing the interface up, with any firmware, every change is atomic
if and only if, every time, the type is not supported, or both settings are accepted, or what was
written before the refusal was there already. -/
theorem iface_change_atomic_iff {firmware : Firmware Device} {infra ap : Device → UInt32}
    (hkeeps : KeepsMode firmware infra ap) (start : State Device) (calls : List Call) :
    (iface firmware).Along (fun state call ↦ call.Atomic firmware infra ap state) start calls ↔
      (iface firmware).Along (fun state call ↦ call.Settled firmware infra state) start calls := by
  have hcall : ∀ (state : State Device) (call : Call), True →
      (call.Atomic firmware infra ap state ↔ call.Settled firmware infra state) := by
    intro state call _
    cases call with
    | changeIface type => exact changesAtomically_iff hkeeps type state.world
    | up answers => exact Iff.rfl
  exact Machine.along_congr hcall (fun _ _ _ _ _ _ ↦ trivial) trivial

/-- A firmware that consists of its infra and ap settings and answers every request alike. -/
def modeFirmware (err : ℤ) : Firmware (UInt32 × UInt32)
  | device, .setInfra val => (⟨err, 0⟩, if err = 0 then (val, device.2) else device)
  | device, .setAp val => (⟨err, 0⟩, if err = 0 then (device.1, val) else device)
  | device, _ => (⟨err, 0⟩, device)

theorem modeFirmware_keepsMode (err : ℤ) : KeepsMode (modeFirmware err) Prod.fst Prod.snd where
  setInfra _ _ := apply_ite Prod.fst ..
  setAp _ _ := apply_ite Prod.snd ..
  infra_setAp _ _ := (apply_ite Prod.fst ..).trans (ite_self _)
  ap_setInfra _ _ := (apply_ite Prod.snd ..).trans (ite_self _)

/-- A station. -/
def station : State (UInt32 × UInt32) where
  world :=
    { priv :=
        { mode := .bss
          scanRequest := none
          bssid := Vector.replicate 6 0
          profile := wlInitProf
          connInfo := ⟨⟨none, 0⟩, ⟨none, 0⟩⟩
          connecting := false
          connected := false
          heap := ⟨0, fun _ ↦ [], fun _ ↦ 0⟩
          upcalls := [] }
      iftype := .station
      activeScan := false
      scanReqSsid := []
      device := (1, 0)
      requests := [] }
  band5GHz := false
  wowlan := false
  offloads := false

/-- With a firmware that accepts everything, a change to IBSS and back is atomic. -/
theorem iface_change_atomic_accepted :
    (iface (modeFirmware 0)).Along
      (fun state call ↦ call.Atomic (modeFirmware 0) Prod.fst Prod.snd state) station
      [.changeIface .adhoc, .up ⟨0, 110, 0, 1⟩, .changeIface .station] := by
  refine (iface_change_atomic_iff (modeFirmware_keepsMode 0) station _).mpr ?_
  exact ⟨.inl rfl, fun _ _ ↦ ⟨trivial, fun _ _ ↦ ⟨.inl rfl, fun _ _ ↦ trivial⟩⟩⟩

/-- When the firmware refuses, the change to IBSS returns an error, and mode and type are those of
IBSS while the firmware's setting is that of a station. -/
theorem refusedChange_not_atomic :
    (wlCfg80211ChangeIface (modeFirmware (-5)) .adhoc station.world).1 = -5 ∧
      (wlCfg80211ChangeIface (modeFirmware (-5)) .adhoc station.world).2.priv.mode = .ibss ∧
      (wlCfg80211ChangeIface (modeFirmware (-5)) .adhoc station.world).2.iftype = .adhoc ∧
      (wlCfg80211ChangeIface (modeFirmware (-5)) .adhoc station.world).2.device = (1, 0) ∧
      ¬(iface (modeFirmware (-5))).Along
        (fun state call ↦ call.Atomic (modeFirmware (-5)) Prod.fst Prod.snd state) station
        [.changeIface .adhoc] := by
  refine ⟨rfl, rfl, rfl, rfl, fun h ↦ ?_⟩
  have hmode := (h.1.rejected (show (-5 : ℤ) ≠ 0 by decide)).1
  cases hmode

end BroadcomWl.Cfg80211.IfaceType
