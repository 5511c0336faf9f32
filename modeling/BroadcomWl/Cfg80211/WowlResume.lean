import BroadcomWl.Cfg80211.Priv
import BroadcomWl.Cfg80211.Wowl

/-!
# What woke the host

Before the host sleeps, `wl_cfg80211_suspend` arms triggers and `wl_suspend` activates them. When
it wakes up, the firmware has a word for what woke it and a replay counter that has gone on from the
one that `wl_cfg80211_rekey` has handed down; both are arbitrary. `wl_cfg80211_resume` asks for both
and reports them.

A run consists of any number of such cycles, with changes of the association between them. Bits that
were armed stay armed, so where the firmware wakes the host only for active triggers, a reason is
never one that was not requested, but it may be one of an earlier cycle.
-/

namespace BroadcomWl.Cfg80211.WowlResume

open BroadcomWl.Memory BroadcomWl.Systems BroadcomWl.Cfg80211.Wowl

def wlWowlEapid : UInt32 := 0x80

/-- `struct cfg80211_wowlan_wakeup`, as far as it is used. -/
structure Wakeup where
  disconnect : Bool
  magicPkt : Bool
  gtkRekeyFailure : Bool
  eapIdentityReq : Bool
  fourWayHandshake : Bool
  patternIdx : Int32
deriving DecidableEq, Repr

/-- `wakeup` after `memset` and the assignment of `pattern_idx`. -/
def Wakeup.cleared : Wakeup := ⟨false, false, false, false, false, -1⟩

def isSet (word bits : UInt32) : Bool := word &&& bits != 0

/-- `wl_wowl_ind_wake_reason`: its result, and `wakeup`. -/
def wlWowlIndWakeReason (err : ℤ) (ucodeWakeind : UInt32) (wakeup : Wakeup) : ℤ × Wakeup :=
  if err ≠ 0 then (-1, wakeup)
  else if ucodeWakeind = 0 then (0, wakeup)
  else
    let wakeup :=
      if isSet ucodeWakeind wlWowlMagic then { wakeup with magicPkt := true } else wakeup
    let wakeup :=
      if isSet ucodeWakeind wlWowlDis then { wakeup with disconnect := true } else wakeup
    let wakeup :=
      if isSet ucodeWakeind wlWowlBcn then { wakeup with disconnect := true } else wakeup
    let wakeup :=
      if isSet ucodeWakeind wlWowlGtkFailure then { wakeup with gtkRekeyFailure := true }
      else wakeup
    let wakeup :=
      if isSet ucodeWakeind wlWowlEapid then { wakeup with eapIdentityReq := true } else wakeup
    let wakeup :=
      if isSet ucodeWakeind wlWowlM1 then { wakeup with fourWayHandshake := true } else wakeup
    (1, wakeup)

/-- `wlc_rekey_info_t`. -/
structure RekeyInfo where
  offloadId : UInt32
  kek : Vector UInt8 16
  kck : Vector UInt8 16
  replayCounter : Vector UInt8 8
deriving DecidableEq

/-- `struct cfg80211_gtk_rekey_data`. -/
structure RekeyData where
  kek : Vector UInt8 16
  kck : Vector UInt8 16
  replayCtr : Vector UInt8 8
deriving DecidableEq

/-- What is reported to cfg80211: a wakeup, `none` for one that was not by the device, or the
replay counter of an access point. -/
inductive Report where
  | wakeup (reason : Option Wakeup)
  | gtkRekey (bssid : EtherAddr) (replayCounter : Vector UInt8 8)
deriving DecidableEq

/-- The words of the firmware, what of the driver is read, the triggers that were ever requested,
and the reports. -/
structure State where
  wowl : UInt32
  wakeind : UInt32
  rekey : RekeyInfo
  connected : Bool
  bssid : EtherAddr
  offloads : Bool
  requested : UInt32
  reports : List Report

/-- `wl_cfg80211_rekey`. -/
def wlCfg80211Rekey (data : RekeyData) (err : ℤ) (state : State) : ℤ × State :=
  if !state.offloads then (0, state)
  else if err ≠ 0 then (err, state)
  else (0, { state with rekey := ⟨0, data.kek, data.kck, data.replayCtr⟩ })

/-- `wl_cfg80211_resume`, with the errors of the reads of `wowl_wakeind` and of `wowl_replay`. -/
def wlCfg80211Resume (wakeindErr replayErr : ℤ) (state : State) : ℤ × State :=
  let (result, wakeup) := wlWowlIndWakeReason wakeindErr state.wakeind .cleared
  let reports :=
    if result = 0 then [.wakeup none] else if result = 1 then [.wakeup (some wakeup)] else []
  let notices := if replayErr = 0 then [.gtkRekey state.bssid state.rekey.replayCounter] else []
  (0, { state with reports := state.reports ++ reports ++ notices })

/-- `wl_cfg80211_suspend` on the state. -/
def suspend (answers : Wowl.Answers) (request : Option Cfg80211Wowlan) (state : State) :
    ℤ × State :=
  let (err, wowl) := wlCfg80211Suspend state.connected answers request state.wowl
  (err, { state with
    wowl := wowl
    requested := state.requested ||| (request.map Cfg80211Wowlan.bits).getD 0 })

/-- A step of a run; `sleep` is from `wl_suspend`, which could activate the triggers or not, to what
the firmware has in its words when the host wakes up. -/
inductive Label where
  | associate (connected : Bool) (bssid : EtherAddr)
  | rekey (data : RekeyData) (err : ℤ)
  | suspend (answers : Wowl.Answers) (request : Option Cfg80211Wowlan)
  | sleep (activated : Bool) (wakeind : UInt32) (replayCounter : Vector UInt8 8)
  | resume (wakeindErr replayErr : ℤ)

def cycles : Machine State Label where
  initial state := state.wowl = 0 ∧ state.wakeind = 0 ∧ state.requested = 0 ∧ state.reports = []
  step state label :=
    match label with
    | .associate connected bssid => some { state with connected := connected, bssid := bssid }
    | .rekey data err => some (wlCfg80211Rekey data err state).2
    | .suspend answers request => some (WowlResume.suspend answers request state).2
    | .sleep _ wakeind replayCounter =>
        some { state with
          wakeind := wakeind
          rekey := { state.rekey with replayCounter := replayCounter } }
    | .resume wakeindErr replayErr => some (wlCfg80211Resume wakeindErr replayErr state).2

/-! ## Reasons -/

theorem isSet_iff {word bits : UInt32} : isSet word bits = true ↔ word &&& bits ≠ 0 := bne_iff_ne

theorem isSet_of_within {word mask bits : UInt32} (h : BitsWithin word mask)
    (hbits : isSet word bits = true) : isSet mask bits = true :=
  isSet_iff.mpr (h.and_ne_zero (isSet_iff.mp hbits))

/-- What a report says was requested. -/
structure Justified (requested : UInt32) (wakeup : Wakeup) : Prop where
  magicPkt : wakeup.magicPkt = true → isSet requested wlWowlMagic = true
  disconnect : wakeup.disconnect = true → isSet requested (wlWowlDis ||| wlWowlBcn) = true
  gtkRekeyFailure : wakeup.gtkRekeyFailure = true → isSet requested wlWowlGtkFailure = true
  fourWayHandshake : wakeup.fourWayHandshake = true → isSet requested wlWowlM1 = true
  eapIdentityReq : wakeup.eapIdentityReq = false
  patternIdx : wakeup.patternIdx = -1

theorem Justified.mono {requested requested' : UInt32} {wakeup : Wakeup}
    (h : Justified requested wakeup) (hmask : BitsWithin requested requested') :
    Justified requested' wakeup where
  magicPkt hset := isSet_of_within hmask (h.magicPkt hset)
  disconnect hset := isSet_of_within hmask (h.disconnect hset)
  gtkRekeyFailure hset := isSet_of_within hmask (h.gtkRekeyFailure hset)
  fourWayHandshake hset := isSet_of_within hmask (h.fourWayHandshake hset)
  eapIdentityReq := h.eapIdentityReq
  patternIdx := h.patternIdx

/-- The members of a report that starts from a cleared one, by the bits of the word. -/
theorem wlWowlIndWakeReason_eq {err : ℤ} {word : UInt32} {wakeup : Wakeup}
    (h : wlWowlIndWakeReason err word .cleared = (1, wakeup)) :
    wakeup = ⟨isSet word wlWowlDis || isSet word wlWowlBcn, isSet word wlWowlMagic,
      isSet word wlWowlGtkFailure, isSet word wlWowlEapid, isSet word wlWowlM1, -1⟩ := by
  unfold wlWowlIndWakeReason at h
  split_ifs at h
  all_goals simp_all [Wakeup.cleared, Prod.ext_iff]

/-- Bits other than the rotation of keys are requested ones. -/
theorem isSet_requested {word requested bits : UInt32}
    (h : BitsWithin word (requested ||| wlWowlKeyrot)) (hkeyrot : wlWowlKeyrot &&& bits = 0)
    (hbits : isSet word bits = true) : isSet requested bits = true := by
  have hmask := isSet_iff.mp (isSet_of_within h hbits)
  refine isSet_iff.mpr fun hzero ↦ hmask ?_
  rw [or_and_distrib, hzero, hkeyrot, UInt32.or_zero]

theorem isSet_mono {word bits bits' : UInt32} (h : BitsWithin bits bits')
    (hbits : isSet word bits = true) : isSet word bits' = true := by
  rw [isSet_iff, UInt32.and_comm] at *
  exact h.and_ne_zero hbits

theorem justified_of_within {requested word : UInt32} {err : ℤ} {wakeup : Wakeup}
    (h : BitsWithin word (requested ||| wlWowlKeyrot))
    (heapid : isSet requested wlWowlEapid = false)
    (hwakeup : wlWowlIndWakeReason err word .cleared = (1, wakeup)) :
    Justified requested wakeup := by
  rw [wlWowlIndWakeReason_eq hwakeup]
  constructor
  · exact isSet_requested h (by decide)
  · intro hdisconnect
    rcases Bool.or_eq_true_iff.mp hdisconnect with hdis | hbcn
    · exact isSet_mono (bitsWithin_or_left _ _) (isSet_requested h (by decide) hdis)
    · exact isSet_mono (bitsWithin_or_right _ _) (isSet_requested h (by decide) hbcn)
  · exact isSet_requested h (by decide)
  · exact isSet_requested h (by decide)
  · by_contra hset
    rw [isSet_requested h (by decide) (Bool.of_not_eq_false hset)] at heapid
    exact absurd heapid (by decide)
  · rfl

/-! ## Runs -/

/-- What is armed, what the host was woken for and what was reported were requested. -/
structure Requested (state : State) : Prop where
  wowl : BitsWithin state.wowl (state.requested ||| wlWowlKeyrot)
  wakeind : BitsWithin state.wakeind (state.requested ||| wlWowlKeyrot)
  eapid : isSet state.requested wlWowlEapid = false
  reports : ∀ wakeup, .wakeup (some wakeup) ∈ state.reports → Justified state.requested wakeup

/-- A word that could not be read leaves no other bits in the buffer when it is written back. -/
def Clean (state : State) : Label → Prop
  | .suspend answers (some wowlan) => state.connected = true → answers.getErr ≠ 0 →
      answers.setErr = 0 →
        BitsWithin answers.leftover (state.requested ||| wowlan.bits ||| wlWowlKeyrot)
  | _ => True

/-- The triggers that are active while the host sleeps. -/
def active (state : State) (activated : Bool) : UInt32 := if activated then state.wowl else 0

/-- The firmware wakes the host for active triggers only. -/
def WakesForActive (state : State) : Label → Prop
  | .sleep activated wakeind _ => BitsWithin wakeind (active state activated)
  | _ => True

/-- What a step relies on of the firmware. -/
def Respects (state : State) (label : Label) : Prop :=
  Clean state label ∧ WakesForActive state label

theorem Requested.initial {state : State} (h : cycles.initial state) : Requested state := by
  obtain ⟨hwowl, hwakeind, hrequested, hreports⟩ := h
  constructor
  · rw [hwowl]
    exact zero_bitsWithin _
  · rw [hwakeind]
    exact zero_bitsWithin _
  · rw [hrequested]
    rfl
  · rw [hreports]
    intro wakeup hmem
    exact absurd hmem List.not_mem_nil

theorem bits_eapid (wowlan : Cfg80211Wowlan) : wowlan.bits &&& wlWowlEapid = 0 := by
  obtain ⟨disconnect, magicPkt, gtkRekeyFailure, fourWayHandshake⟩ := wowlan
  revert disconnect magicPkt gtkRekeyFailure fourWayHandshake
  decide

/-- A request is remembered, and its word is written back or not. -/
theorem suspend_cases (answers : Wowl.Answers) (request : Option Cfg80211Wowlan) (state : State) :
    (suspend answers request state).2 =
      { state with requested := state.requested ||| (request.map Cfg80211Wowlan.bits).getD 0 } ∨
    ∃ wowlan, request = some wowlan ∧ state.connected = true ∧ answers.setErr = 0 ∧
      (suspend answers request state).2 =
        { state with
          wowl := (Wowl.wlDevIntvarGet answers state.wowl).2 ||| (wowlan.bits ||| wlWowlKeyrot)
          requested := state.requested ||| wowlan.bits } := by
  cases request with
  | none => exact .inl rfl
  | some wowlan =>
    unfold suspend
    cases hconnected : state.connected with
    | false => exact .inl rfl
    | true =>
      rw [suspend_request]
      by_cases herr : answers.setErr = 0
      · rw [if_pos herr]
        exact .inr ⟨wowlan, rfl, rfl, herr, rfl⟩
      · rw [if_neg herr]
        exact .inl rfl

/-- More requests leave everything requested. -/
theorem Requested.request {state : State} {bits : UInt32} (h : Requested state)
    (heapid : isSet bits wlWowlEapid = false) :
    Requested { state with requested := state.requested ||| bits } := by
  have hmore : BitsWithin (state.requested ||| wlWowlKeyrot)
      (state.requested ||| bits ||| wlWowlKeyrot) :=
    .or ((bitsWithin_or_left _ bits).trans (bitsWithin_or_left _ _)) (bitsWithin_or_right _ _)
  constructor
  · exact h.wowl.trans hmore
  · exact h.wakeind.trans hmore
  · have hold := h.eapid
    unfold isSet at hold heapid ⊢
    rw [bne_eq_false_iff_eq] at hold heapid ⊢
    rw [or_and_distrib, hold, heapid, UInt32.or_zero]
  · exact fun wakeup hmem ↦ (h.reports wakeup hmem).mono (bitsWithin_or_left _ bits)

theorem Requested.suspend {state : State} {answers : Wowl.Answers}
    {request : Option Cfg80211Wowlan} (h : Requested state)
    (hclean : Clean state (.suspend answers request)) :
    Requested (suspend answers request state).2 := by
  obtain heq | ⟨wowlan, rfl, hconnected, herr, heq⟩ := suspend_cases answers request state
  · rw [heq]
    refine h.request ?_
    cases request with
    | none => rfl
    | some wowlan => exact bne_eq_false_iff_eq.mpr (bits_eapid wowlan)
  · rw [heq]
    have hmore : Requested { state with requested := state.requested ||| wowlan.bits } :=
      h.request (bne_eq_false_iff_eq.mpr (bits_eapid wowlan))
    have hread : BitsWithin (Wowl.wlDevIntvarGet answers state.wowl).2
        (state.requested ||| wowlan.bits ||| wlWowlKeyrot) := by
      unfold Wowl.wlDevIntvarGet
      split
      · exact hmore.wowl
      next hget => exact hclean hconnected hget herr
    have hbits : BitsWithin (wowlan.bits ||| wlWowlKeyrot)
        (state.requested ||| wowlan.bits ||| wlWowlKeyrot) :=
      .or ((bitsWithin_or_right _ _).trans (bitsWithin_or_left _ _)) (bitsWithin_or_right _ _)
    exact { hmore with wowl := hread.or hbits }

theorem Requested.resume {state : State} {wakeindErr replayErr : ℤ} (h : Requested state) :
    Requested (wlCfg80211Resume wakeindErr replayErr state).2 := by
  refine { h with reports := ?_ }
  intro wakeup hmem
  unfold wlCfg80211Resume at hmem
  rw [List.mem_append, List.mem_append] at hmem
  obtain (hmem | hmem) | hmem := hmem
  · exact h.reports wakeup hmem
  · have hresult : wlWowlIndWakeReason wakeindErr state.wakeind .cleared = (1, wakeup) := by
      split_ifs at hmem with hnone hsome
      · simp at hmem
      · refine Prod.ext hsome ?_
        rw [List.mem_singleton, Report.wakeup.injEq, Option.some_inj] at hmem
        exact hmem.symm
      · simp at hmem
    exact justified_of_within h.wakeind h.eapid hresult
  · split at hmem
    · simp at hmem
    · simp at hmem

theorem Requested.step {state next : State} {label : Label} (h : Requested state)
    (hrespects : Respects state label) (hstep : cycles.step state label = some next) :
    Requested next := by
  cases label with
  | associate connected bssid =>
    cases hstep
    exact { h with }
  | rekey data err =>
    cases hstep
    unfold wlCfg80211Rekey
    split_ifs
    · exact h
    · exact h
    · exact { h with }
  | suspend answers request =>
    cases hstep
    exact h.suspend hrespects.1
  | sleep activated wakeind replayCounter =>
    cases hstep
    refine { h with wakeind := ?_ }
    have hactive : BitsWithin wakeind (active state activated) := hrespects.2
    unfold active at hactive
    split at hactive
    · exact hactive.trans h.wowl
    · exact hactive.trans (zero_bitsWithin _)
  | resume wakeindErr replayErr =>
    cases hstep
    exact h.resume

/-- In every run in which the firmware wakes the host only for active triggers and a failed read
leaves no bits that were not requested, every reason that is reported was requested before, and an
identity request never is one. -/
theorem wake_reasons_requested {start final : State} {labels : List Label}
    (hstart : cycles.initial start) (hrespects : cycles.Along Respects start labels)
    (hrun : cycles.run start labels = some final) {wakeup : Wakeup}
    (hreport : .wakeup (some wakeup) ∈ final.reports) : Justified final.requested wakeup :=
  (hrespects.preserves (fun _ _ _ ↦ Requested.step) (.initial hstart) hrun).reports wakeup hreport

def awake : State where
  wowl := 0
  wakeind := 0
  rekey := ⟨0, .replicate 16 0, .replicate 16 0, .replicate 8 0⟩
  connected := true
  bssid := .replicate 6 2
  offloads := true
  requested := 0
  reports := []

/-- A wake on disconnect is requested, a beacon is missed while the host sleeps, and the disconnect
is reported. -/
theorem wake_reasons_requested_beacon :
    Justified (wlWowlDis ||| wlWowlBcn) ⟨true, false, false, false, false, -1⟩ :=
  @wake_reasons_requested awake _
    [.suspend ⟨0, 0, 0⟩ (some onDisconnect), .sleep true wlWowlBcn (.replicate 8 3), .resume 0 0]
    ⟨rfl, rfl, rfl, rfl⟩
    (.cons ⟨fun _ hread ↦ absurd rfl hread, trivial⟩ rfl
      (.cons ⟨trivial, rfl⟩ rfl (.cons ⟨trivial, trivial⟩ rfl trivial)))
    rfl ⟨true, false, false, false, false, -1⟩ (by decide)

end BroadcomWl.Cfg80211.WowlResume
