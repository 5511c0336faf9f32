import BroadcomWl.Cfg80211.IfaceType

/-!
# The mode and its copies

The infra and ap settings of the firmware are written by `wl_cfg80211_change_iface` and by
`wl_cfg80211_up`, which know the mode and the type of the interface as well. They are also written
by programs: `wl_ioctl` hands the commands of a private request to the firmware, and neither
`conf->mode` nor `wdev->iftype`, which the event handlers and `wl_cfg80211_up` go by, is told.

The module says after which runs of calls and private requests all four copies agree, and that
bringing the interface up repairs what programs have written.
-/

namespace BroadcomWl.Cfg80211.ModeCopies

open BroadcomWl.Systems BroadcomWl.Cfg80211.IfaceType

variable {Device : Type*}

/-- A call of cfg80211, or a command of a private request that `wl_ioctl` hands to the firmware. -/
inductive Label where
  | cfg80211 (call : IfaceType.Call)
  | privateInfra (val : UInt32)
  | privateAp (val : UInt32)

def driver (firmware : Firmware Device) : Machine (State Device) Label where
  initial _ := True
  step state label :=
    match label with
    | .cfg80211 call => some (execute firmware state call).2
    | .privateInfra val =>
        some { state with world := (wlDevSet firmware (.setInfra val) state.world).2 }
    | .privateAp val =>
        some { state with world := (wlDevSet firmware (.setAp val) state.world).2 }

/-! ## Two writes -/

/-- The infra setting, and zero for the ap setting if the first was accepted. -/
def writeBoth (firmware : Firmware Device) (infra : UInt32) (world : World Device) :
    World Device :=
  let result := wlDevSet firmware (.setInfra infra) world
  if result.1 ≠ 0 then result.2 else (wlDevSet firmware (.setAp 0) result.2).2

/-- The firmware accepts the infra setting. -/
def TakesInfra (firmware : Firmware Device) (val : UInt32) (world : World Device) : Prop :=
  (firmware world.device (.setInfra val)).1.err = 0

/-- The firmware accepts the ap setting. -/
def TakesAp (firmware : Firmware Device) (val : UInt32) (world : World Device) : Prop :=
  (firmware world.device (.setAp val)).1.err = 0

/-- The firmware accepts zero for the ap setting after the infra setting. -/
def TakesBoth (firmware : Firmware Device) (infra : UInt32) (world : World Device) : Prop :=
  TakesInfra firmware infra world ∧
    TakesAp firmware 0 (wlDevSet firmware (.setInfra infra) world).2

instance (firmware : Firmware Device) (val : UInt32) (world : World Device) :
    Decidable (TakesInfra firmware val world) := inferInstanceAs (Decidable (_ = _))

instance (firmware : Firmware Device) (val : UInt32) (world : World Device) :
    Decidable (TakesAp firmware val world) := inferInstanceAs (Decidable (_ = _))

instance (firmware : Firmware Device) (val : UInt32) (world : World Device) :
    Decidable (TakesBoth firmware val world) := inferInstanceAs (Decidable (_ ∧ _))

section Writes

variable {firmware : Firmware Device} {infra ap : Device → UInt32}

theorem wlSetMode_eq {type : Iftype} {mode : Mode} {val : UInt32}
    (h : settings type = some (mode, val)) (world : World Device) :
    (wlSetMode firmware type world).2 = writeBoth firmware val world := by
  cases type with
  | adhoc | station =>
    cases h
    unfold wlSetMode ifOk writeBoth
    dsimp only
    split <;> rfl
  | monitor | wds | other => cases h

theorem setIface_eq (type : Iftype) (mode : Mode) (val : UInt32) (world : World Device) :
    (setIface firmware type mode val world).2 =
      writeBoth firmware val
        { world with priv := { world.priv with mode := mode }, iftype := type } := by
  unfold setIface ifOk writeBoth
  dsimp only
  split <;> rfl

theorem writeBoth_priv (val : UInt32) (world : World Device) :
    (writeBoth firmware val world).priv = world.priv := by
  unfold writeBoth
  dsimp only
  split <;> rfl

theorem writeBoth_iftype (val : UInt32) (world : World Device) :
    (writeBoth firmware val world).iftype = world.iftype := by
  unfold writeBoth
  dsimp only
  split <;> rfl

theorem writeBoth_device (val : UInt32) (world : World Device) :
    (writeBoth firmware val world).device =
      if TakesInfra firmware val world then
        (firmware (firmware world.device (.setInfra val)).2 (.setAp 0)).2
      else (firmware world.device (.setInfra val)).2 := by
  unfold writeBoth
  by_cases htakes : TakesInfra firmware val world
  · rw [if_pos htakes]
    exact congrArg World.device (if_neg (not_not.mpr htakes))
  · rw [if_neg htakes]
    exact congrArg World.device (if_pos htakes)

variable (hkeeps : KeepsMode firmware infra ap)
include hkeeps

theorem writeBoth_infra (val : UInt32) (world : World Device) :
    infra (writeBoth firmware val world).device =
      if TakesInfra firmware val world then val else infra world.device := by
  have hset := hkeeps.setInfra world.device val
  rw [writeBoth_device]
  by_cases htakes : TakesInfra firmware val world
  · rw [if_pos htakes, if_pos htakes, hkeeps.infra_setAp]
    exact hset.trans (if_pos htakes)
  · rw [if_neg htakes, if_neg htakes]
    exact hset.trans (if_neg htakes)

theorem writeBoth_ap (val : UInt32) (world : World Device) :
    ap (writeBoth firmware val world).device =
      if TakesBoth firmware val world then 0 else ap world.device := by
  have hset := hkeeps.setAp (firmware world.device (.setInfra val)).2 0
  rw [hkeeps.ap_setInfra] at hset
  rw [writeBoth_device]
  by_cases htakes : TakesInfra firmware val world
  · rw [if_pos htakes, hset]
    exact if_congr (and_iff_right htakes).symm rfl rfl
  · rw [if_neg htakes, if_neg (fun h ↦ htakes h.1), hkeeps.ap_setInfra]

end Writes

/-! ## All four copies -/

/-- The type, the mode and the settings of the firmware agree. -/
def Agrees (infra ap : Device → UInt32) (world : World Device) : Prop :=
  Describes infra ap world.iftype world

/-- The type and the mode agree. -/
def Typed (val : UInt32) (world : World Device) : Prop :=
  settings world.iftype = some (world.priv.mode, val)

theorem Typed.agrees_iff {infra ap : Device → UInt32} {val : UInt32} {world : World Device}
    (h : Typed val world) :
    Agrees infra ap world ↔ infra world.device = val ∧ ap world.device = 0 := by
  unfold Agrees Describes
  rw [show settings world.iftype = _ from h]
  simp [eq_comm]

theorem Agrees.typed {infra ap : Device → UInt32} {world : World Device}
    (h : Agrees infra ap world) : Typed (infra world.device) world := h.1

theorem Agrees.ap {infra ap : Device → UInt32} {world : World Device} (h : Agrees infra ap world) :
    ap world.device = 0 := h.2.2

section Copies

variable {firmware : Firmware Device} {infra ap : Device → UInt32} {world : World Device}
  {val : UInt32}

theorem Typed.writeBoth (h : Typed val world) (val' : UInt32) :
    Typed val (writeBoth firmware val' world) := by
  unfold Typed
  rw [writeBoth_iftype, writeBoth_priv]
  exact h

/-- Writing the settings of the type leaves the copies in agreement when each setting is accepted or
was there before. -/
theorem Typed.agrees_writeBoth_iff (hkeeps : KeepsMode firmware infra ap) (h : Typed val world) :
    Agrees infra ap (ModeCopies.writeBoth firmware val world) ↔
      (TakesInfra firmware val world ∨ infra world.device = val) ∧
        (TakesBoth firmware val world ∨ ap world.device = 0) := by
  rw [(h.writeBoth val).agrees_iff, writeBoth_infra hkeeps, writeBoth_ap hkeeps]
  refine and_congr ?_ ?_
  · by_cases htakes : TakesInfra firmware val world <;> simp [htakes]
  · by_cases htakes : TakesBoth firmware val world <;> simp [htakes]

/-- The firmware takes the infra setting of another type from a call, and from a program nothing
that differs from the settings of the type. -/
def Respects (firmware : Firmware Device) (infra : Device → UInt32) (state : State Device) :
    Label → Prop
  | .cfg80211 (.changeIface type) => ∀ mode val, settings type = some (mode, val) →
      type ≠ state.world.iftype → TakesInfra firmware val state.world
  | .cfg80211 (.up _) => True
  | .privateInfra val => TakesInfra firmware val state.world → val = infra state.world.device
  | .privateAp val => TakesAp firmware val state.world → val = 0

/-- Bringing the interface up only sends the settings of its type. -/
theorem execute_up_world {state : State Device} {mode : Mode}
    (h : settings state.world.iftype = some (mode, val)) (answers : UpAnswers) :
    (execute firmware state (.up answers)).2.world = writeBoth firmware val state.world := by
  rw [← wlSetMode_eq h]
  change (wlCfg80211Up firmware answers state).2.world = _
  unfold wlCfg80211Up wlUpdateWiphybands wlUpdateWowl
  dsimp only
  split_ifs <;> rfl

end Copies

/-! ## Runs -/

section Runs

variable {firmware : Firmware Device} {infra ap : Device → UInt32} {state next : State Device}

/-- The type is one that the driver supports, and the mode is that of the type. -/
def HasMode (state : State Device) : Prop := ∃ val, Typed val state.world

theorem HasMode.step {label : Label} (h : HasMode state)
    (hstep : (driver firmware).step state label = some next) : HasMode next := by
  obtain ⟨val, htyped⟩ := h
  cases label with
  | cfg80211 call =>
    cases hstep
    cases call with
    | changeIface type =>
      change ∃ val, Typed val (wlCfg80211ChangeIface firmware type state.world).2
      cases hsettings : settings type with
      | none =>
        rw [(changeIface_of_none hsettings state.world).2]
        exact ⟨val, htyped⟩
      | some values =>
        obtain ⟨mode, val'⟩ := values
        let changed := { state.world with
          priv := { state.world.priv with mode := mode }, iftype := type }
        have hchanged : Typed val' changed := hsettings
        rw [changeIface_of_some hsettings, setIface_eq]
        exact ⟨val', hchanged.writeBoth val'⟩
    | up answers =>
      refine ⟨val, ?_⟩
      rw [execute_up_world htyped]
      exact htyped.writeBoth val
  | privateInfra _ | privateAp _ =>
    cases hstep
    exact ⟨val, htyped⟩

/-- After any run from a state with the mode of its type, bringing the interface up makes all four
copies agree again exactly when the infra setting of the type is accepted or is there already, and
the ap setting is zero already or both settings are accepted. -/
theorem up_repairs_iff (hkeeps : KeepsMode firmware infra ap) {start : State Device}
    {val : UInt32} {labels : List Label} (hstart : HasMode start)
    (hrun : (driver firmware).run start labels = some state)
    (hval : (settings state.world.iftype).map Prod.snd = some val) (answers : UpAnswers) :
    Agrees infra ap (execute firmware state (.up answers)).2.world ↔
      (TakesInfra firmware val state.world ∨ infra state.world.device = val) ∧
        (TakesBoth firmware val state.world ∨ ap state.world.device = 0) := by
  obtain ⟨val', htyped⟩ := Machine.run_preserves (fun _ _ _ ↦ HasMode.step) hstart hrun
  obtain rfl : val' = val := by
    unfold Typed at htyped
    rw [htyped] at hval
    exact Option.some.inj hval
  rw [execute_up_world htyped]
  exact htyped.agrees_writeBoth_iff hkeeps

end Runs

/-- Bringing the interface up ends that network. -/
theorem up_repairs_iff_adhoc :
    ∃ state, (driver (modeFirmware 0)).run station [.privateInfra 0, .privateAp 1] = some state ∧
      ¬Agrees Prod.fst Prod.snd state.world ∧
      Agrees Prod.fst Prod.snd (execute (modeFirmware 0) state (.up ⟨0, 0, 0, 0⟩)).2.world := by
  refine ⟨_, rfl, fun h ↦ absurd h.ap (by decide), ?_⟩
  have hstart : HasMode station := ⟨1, rfl⟩
  exact (@up_repairs_iff _ (modeFirmware 0) Prod.fst Prod.snd _ (modeFirmware_keepsMode 0) station
    1 [.privateInfra 0, .privateAp 1] hstart rfl rfl ⟨0, 0, 0, 0⟩).mpr
      ⟨.inl rfl, .inl ⟨rfl, rfl⟩⟩

end BroadcomWl.Cfg80211.ModeCopies
