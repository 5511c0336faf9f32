import BroadcomWl.Cfg80211.IfaceType

/-!
# The mode of the wireless extensions

`wl_iw_set_mode` writes the infra setting and the ap setting of the firmware, one after the other,
and `wl_iw_get_mode` puts a mode together from both. A driver with the wireless extensions keeps no
mode of its own, so what a refused request leaves behind is what the next program is told.
-/

namespace BroadcomWl.Wext.IwMode

open BroadcomWl.Systems BroadcomWl.Cfg80211
open BroadcomWl.Cfg80211.IfaceType (KeepsMode)

def einval : ℤ := 22
def einprogress : ℤ := 115

def iwModeAuto : UInt32 := 0
def iwModeAdhoc : UInt32 := 1
def iwModeInfra : UInt32 := 2
def iwModeMaster : UInt32 := 3

variable {Device : Type*}

/-- The switch of `wl_iw_set_mode`: the infra and the ap setting. -/
def modeSettings (uwrq : UInt32) : Option (UInt32 × UInt32) :=
  if uwrq = iwModeMaster then some (1, 1)
  else if uwrq = iwModeAdhoc ∨ uwrq = iwModeAuto then some (0, 0)
  else if uwrq = iwModeInfra then some (1, 0)
  else none

/-- `wl_iw_set_mode`; without an error a commit is asked for. -/
def wlIwSetMode (firmware : Firmware Device) (uwrq : UInt32) (device : Device) : ℤ × Device :=
  match modeSettings uwrq with
  | none => (-einval, device)
  | some (infra, ap) =>
      let (reply, device) := firmware device (.setInfra infra)
      if reply.err ≠ 0 then (reply.err, device)
      else
        let (reply, device) := firmware device (.setAp ap)
        if reply.err ≠ 0 then (reply.err, device) else (-einprogress, device)

/-- The mode that `wl_iw_get_mode` reports. -/
def reportedMode (infra ap : UInt32) : UInt32 :=
  if infra ≠ 0 then if ap ≠ 0 then iwModeMaster else iwModeInfra else iwModeAdhoc

/-- `wl_iw_get_mode`, with the errors of the two reads. -/
def wlIwGetMode (infraErr apErr : ℤ) (infra ap uwrq : UInt32) : ℤ × UInt32 :=
  if infraErr ≠ 0 then (infraErr, uwrq)
  else if apErr ≠ 0 then (apErr, uwrq)
  else (0, reportedMode infra ap)

/-- A run of requests for a mode. -/
def driver (firmware : Firmware Device) : Machine Device UInt32 where
  initial _ := True
  step device uwrq := some (wlIwSetMode firmware uwrq device).2

/-! ## A request that is refused half-way -/

section Requests

variable (firmware : Firmware Device) (infra ap : Device → UInt32)

/-- The firmware accepts the infra setting. -/
def TakesInfra (device : Device) (val : UInt32) : Prop :=
  (firmware device (.setInfra val)).1.err = 0

/-- The firmware accepts the ap setting after the infra setting. -/
def TakesAp (device : Device) (infra ap : UInt32) : Prop :=
  (firmware (firmware device (.setInfra infra)).2 (.setAp ap)).1.err = 0

/-- Both settings of the mode are accepted. -/
def Taken (device : Device) (uwrq : UInt32) : Prop :=
  ∃ infra ap, modeSettings uwrq = some (infra, ap) ∧ TakesInfra firmware device infra ∧
    TakesAp firmware device infra ap

/-- The mode that is reported afterwards is the one that was asked for when both settings are
accepted, and the one reported before when not. An automatic mode is reported as an ad hoc one. -/
def Atomic (device : Device) (uwrq : UInt32) : Prop :=
  ∀ infraErr apErr reply,
    let after := (wlIwSetMode firmware uwrq device).2
    let reported := fun device ↦ wlIwGetMode infraErr apErr (infra device) (ap device) reply
    (Taken firmware device uwrq →
      reported after =
        wlIwGetMode infraErr apErr (if uwrq = iwModeMaster ∨ uwrq = iwModeInfra then 1 else 0)
          (if uwrq = iwModeMaster then 1 else 0) reply) ∧
      (¬Taken firmware device uwrq → reported after = reported device)

/-- The ap setting is not refused after an infra setting that was accepted and that makes another
mode of an ad hoc one, or an ad hoc one of another mode. -/
def Whole (device : Device) (uwrq : UInt32) : Prop :=
  ∀ infra' ap', modeSettings uwrq = some (infra', ap') → TakesInfra firmware device infra' →
    ¬TakesAp firmware device infra' ap' → (infra' = 0 ↔ infra device = 0)

end Requests

/-- The two settings, as they stand in the switch. -/
theorem eq_of_modeSettings {uwrq infra ap : UInt32} (h : modeSettings uwrq = some (infra, ap)) :
    infra = (if uwrq = iwModeMaster ∨ uwrq = iwModeInfra then 1 else 0) ∧
      ap = if uwrq = iwModeMaster then 1 else 0 := by
  unfold modeSettings at h
  split at h
  next hmaster =>
    cases h
    simp [hmaster]
  next hmaster =>
    split at h
    next hadhoc =>
      cases h
      rcases hadhoc with rfl | rfl <;> exact ⟨rfl, rfl⟩
    next =>
      obtain ⟨rfl, heq⟩ := Option.ite_none_right_eq_some.mp h
      cases heq
      exact ⟨rfl, rfl⟩

/-- Another ap setting aside, the reported modes agree when the infra settings are zero together. -/
theorem reportedMode_eq_iff (infra infra' ap : UInt32) :
    reportedMode infra' ap = reportedMode infra ap ↔ (infra' = 0 ↔ infra = 0) := by
  have hmaster : iwModeMaster ≠ iwModeAdhoc := by decide
  have hinfra : iwModeInfra ≠ iwModeAdhoc := by decide
  unfold reportedMode
  by_cases h : infra = 0 <;> by_cases h' : infra' = 0 <;> by_cases hap : ap = 0 <;>
    simp [h, h', hap, hmaster, hmaster.symm, hinfra, hinfra.symm]

section Runs

variable {firmware : Firmware Device} {infra ap : Device → UInt32}

theorem wlIwSetMode_of_some {uwrq infra' ap' : UInt32}
    (h : modeSettings uwrq = some (infra', ap')) (device : Device) :
    (wlIwSetMode firmware uwrq device).2 =
      if (firmware device (.setInfra infra')).1.err = 0 then
        (firmware (firmware device (.setInfra infra')).2 (.setAp ap')).2
      else (firmware device (.setInfra infra')).2 := by
  unfold wlIwSetMode
  rw [h]
  dsimp only
  by_cases hinfra : (firmware device (.setInfra infra')).1.err = 0
  · rw [if_neg (not_not.mpr hinfra), if_pos hinfra]
    split <;> rfl
  · rw [if_pos hinfra, if_neg hinfra]

/-- What a request makes of the two settings. -/
theorem settings_wlIwSetMode (hkeeps : KeepsMode firmware infra ap) {uwrq infra' ap' : UInt32}
    (h : modeSettings uwrq = some (infra', ap')) (device : Device) :
    (TakesInfra firmware device infra' → TakesAp firmware device infra' ap' →
        infra (wlIwSetMode firmware uwrq device).2 = infra' ∧
          ap (wlIwSetMode firmware uwrq device).2 = ap') ∧
      (TakesInfra firmware device infra' → ¬TakesAp firmware device infra' ap' →
        infra (wlIwSetMode firmware uwrq device).2 = infra' ∧
          ap (wlIwSetMode firmware uwrq device).2 = ap device) ∧
      (¬TakesInfra firmware device infra' →
        infra (wlIwSetMode firmware uwrq device).2 = infra device ∧
          ap (wlIwSetMode firmware uwrq device).2 = ap device) := by
  have hinfra := hkeeps.setInfra device infra'
  have hap := hkeeps.setAp (firmware device (.setInfra infra')).2 ap'
  have hkept := hkeeps.ap_setInfra device infra'
  unfold TakesInfra TakesAp
  rw [wlIwSetMode_of_some h]
  refine ⟨fun htakes hsecond ↦ ?_, fun htakes hsecond ↦ ?_, fun htakes ↦ ?_⟩
  · rw [if_pos htakes, hkeeps.infra_setAp]
    exact ⟨hinfra.trans (if_pos htakes), hap.trans (if_pos hsecond)⟩
  · rw [if_pos htakes, hkeeps.infra_setAp]
    exact ⟨hinfra.trans (if_pos htakes), (hap.trans (if_neg hsecond)).trans hkept⟩
  · rw [if_neg htakes]
    exact ⟨hinfra.trans (if_neg htakes), hkept⟩

theorem atomic_iff_whole (hkeeps : KeepsMode firmware infra ap) (device : Device)
    (uwrq : UInt32) :
    Atomic firmware infra ap device uwrq ↔ Whole firmware infra device uwrq := by
  cases hsettings : modeSettings uwrq with
  | none =>
    have hnone : ¬Taken firmware device uwrq := by
      rintro ⟨infra', ap', hsome, -⟩
      rw [hsettings] at hsome
      cases hsome
    have hsame : (wlIwSetMode firmware uwrq device).2 = device := by
      rw [wlIwSetMode, hsettings]
    refine iff_of_true (fun infraErr apErr reply ↦ ⟨fun htaken ↦ absurd htaken hnone, fun _ ↦ ?_⟩)
      fun infra' ap' hsome ↦ ?_
    · dsimp only
      rw [hsame]
    · rw [hsettings] at hsome
      cases hsome
  | some values =>
    obtain ⟨infra', ap'⟩ := values
    obtain ⟨hboth, htorn, hrefused⟩ := settings_wlIwSetMode hkeeps hsettings device
    have htaken : Taken firmware device uwrq ↔
        TakesInfra firmware device infra' ∧ TakesAp firmware device infra' ap' := by
      unfold Taken
      simp [hsettings]
    have hwhole : Whole firmware infra device uwrq ↔ (TakesInfra firmware device infra' →
        ¬TakesAp firmware device infra' ap' → (infra' = 0 ↔ infra device = 0)) := by
      unfold Whole
      simp [hsettings]
    rw [hwhole]
    unfold Atomic
    dsimp only
    by_cases hinfra : TakesInfra firmware device infra'
    · by_cases hap : TakesAp firmware device infra' ap'
      · -- both accepted: what is read is what was written
        refine iff_of_true (fun infraErr apErr reply ↦ ⟨fun _ ↦ ?_, fun hnot ↦ ?_⟩)
          fun _ hnot ↦ absurd hap hnot
        · obtain ⟨hinfra', hap'⟩ := eq_of_modeSettings hsettings
          rw [(hboth hinfra hap).1, (hboth hinfra hap).2, ← hinfra', ← hap']
        · exact absurd (htaken.mpr ⟨hinfra, hap⟩) hnot
      · -- only the infra setting has changed
        have hnot : ¬Taken firmware device uwrq := fun h ↦ hap (htaken.mp h).2
        rw [(htorn hinfra hap).1, (htorn hinfra hap).2]
        constructor
        · intro hatomic _ _
          have hread := (Prod.ext_iff.mp ((hatomic 0 0 0).2 hnot)).2
          exact (reportedMode_eq_iff (infra device) infra' (ap device)).mp hread
        · refine fun hsame infraErr apErr reply ↦ ⟨fun htaken ↦ absurd htaken hnot, fun _ ↦ ?_⟩
          unfold wlIwGetMode
          rw [(reportedMode_eq_iff (infra device) infra' (ap device)).mpr (hsame hinfra hap)]
    · have hnot : ¬Taken firmware device uwrq := fun h ↦ hinfra (htaken.mp h).1
      refine iff_of_true (fun infraErr apErr reply ↦ ⟨fun htaken ↦ absurd htaken hnot, fun _ ↦ ?_⟩)
        fun htakes ↦ absurd htakes hinfra
      rw [(hrefused hinfra).1, (hrefused hinfra).2]

/-- In every run of requests, with any firmware, the reported mode changes to what is asked for or
not at all with each of them, if and only if no ap setting is refused after an infra setting that
already makes another mode. -/
theorem mode_requests_atomic_iff (hkeeps : KeepsMode firmware infra ap) (device : Device)
    (requests : List UInt32) :
    (driver firmware).Along (Atomic firmware infra ap) device requests ↔
      (driver firmware).Along (Whole firmware infra) device requests :=
  @Machine.along_congr _ _ _ (fun _ ↦ True) _ _
    (fun device uwrq _ ↦ atomic_iff_whole hkeeps device uwrq) (fun _ _ _ _ _ _ ↦ trivial) _ _
    trivial

/-- A firmware that refuses to be an access point. -/
def stationFirmware : Firmware (UInt32 × UInt32)
  | device, .setInfra val => (⟨0, 0⟩, (val, device.2))
  | device, .setAp val => if val = 0 then (⟨0, 0⟩, (device.1, 0)) else (⟨-1, 0⟩, device)
  | device, _ => (⟨0, 0⟩, device)

theorem stationFirmware_keepsMode : KeepsMode stationFirmware Prod.fst Prod.snd where
  setInfra _ _ := rfl
  setAp device val := by
    by_cases hval : val = 0 <;> simp [stationFirmware, hval]
  infra_setAp device val := by
    by_cases hval : val = 0 <;> simp [stationFirmware, hval]
  ap_setInfra _ _ := rfl

/-- It leaves an ad hoc network for an infrastructure one when it is asked to be an access point. -/
theorem mode_requests_atomic_iff_master :
    (driver stationFirmware).Along (Atomic stationFirmware Prod.fst Prod.snd) (1, 0)
        [iwModeMaster, iwModeAdhoc] ∧
      ¬(driver stationFirmware).Along (Atomic stationFirmware Prod.fst Prod.snd) (1, 0)
        [iwModeAdhoc, iwModeMaster] := by
  rw [mode_requests_atomic_iff stationFirmware_keepsMode,
    mode_requests_atomic_iff stationFirmware_keepsMode]
  constructor
  · refine Machine.Along.cons ?_ rfl (Machine.Along.cons ?_ rfl trivial)
    · rintro infra' ap' ⟨⟩ - -
      decide
    · rintro infra' ap' ⟨⟩ - hrefused
      exact absurd rfl hrefused
  · intro h
    have htorn := (h.2 _ rfl).1 1 1 rfl rfl (by unfold TakesAp; decide)
    exact absurd (htorn.mpr rfl) (by decide)

end Runs

end BroadcomWl.Wext.IwMode
