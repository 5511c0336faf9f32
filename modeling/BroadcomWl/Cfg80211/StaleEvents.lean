import BroadcomWl.Cfg80211.Connect

/-!
# Stale events while a connect is pending

When `wl_cfg80211_connect` has returned, the profile holds the network and the security
settings of the pending connection, and `WL_STATUS_CONNECTING` marks it. Events of the
association before it may still be queued. In BSS mode the branch for a lost link looks
neither at the bit nor at the address of the event: it reports a disconnection and wipes the
profile. Every such event handled before the first event of the new link does so.
-/

namespace BroadcomWl.Cfg80211.Connect

open BroadcomWl.Systems

/-- The stage before the first event of the new link: the firmware queues events, and those that
the event thread handles are losses of link. -/
def StaleStage (state : State) : Label → Prop
  | .take | .put | .linkUp _ | .event _ => True
  | .handle _ => ∀ ev, state.thread = .handling ev → LinkLoss ev.e
  | _ => False

def Label.isHandle : Label → Bool
  | .handle _ => true
  | _ => false

/-- A connect call has returned zero, and its result is still awaited. -/
structure Pending (state : State) : Prop where
  returned : state.connect = .returned 0
  connecting : state.priv.connecting = true

/-- How often cfg80211 was told that the connection is gone. -/
def Priv.disconnections (priv : Priv) : ℕ := priv.upcalls.count Upcall.disconnected

/-- The profile still describes the pending connection, and no disconnection was reported. -/
structure Isolated (state final : State) : Prop where
  ssid : final.priv.profile.ssid = state.priv.profile.ssid
  sec : final.priv.profile.sec = state.priv.profile.sec
  unreported : Priv.disconnections final.priv = Priv.disconnections state.priv

variable {state next final : State} {label : Label} {labels : List Label}

/-- A loss of link in BSS mode, whatever it belongs to. -/
theorem handleEvent_of_linkLoss {e : WlEventMsg} (answers : Answers) {priv : Priv}
    (hbss : wlIsIbssmode priv = false) (hloss : LinkLoss e) :
    handleEvent e answers priv = dropAssociation (priv.call .disconnected) := by
  have hkind : e.eventType = Wlc.eLink ∨ e.eventType = Wlc.eDeauthInd ∨
      e.eventType = Wlc.eDisassocInd := hloss.imp_left And.left
  have hhandler : wlInitEloopHandler e.eventType = some .connectStatus := by
    rcases hkind with hkind | hkind | hkind <;> rw [hkind] <;> decide
  have hup : ¬(e.eventType = Wlc.eLink ∧ e.flags &&& Wlc.eventMsgLink ≠ 0) := by
    rintro ⟨hlink, hflag⟩
    rcases hloss with ⟨_, hzero⟩ | hind | hind
    · exact hflag hzero
    · exact absurd (hlink.symm.trans hind) (by decide)
    · exact absurd (hlink.symm.trans hind) (by decide)
  rw [handleEvent, hhandler]
  change (wlNotifyConnectStatus e answers priv).2 = _
  rw [wlNotifyConnectStatus, if_neg (by simp [hbss]), notifyConnectStatusBss, if_neg hup,
    if_pos (lostLinkTest_eq_true_iff.mpr hkind)]

theorem disconnections_dropAssociation (priv : Priv) :
    Priv.disconnections (dropAssociation (priv.call .disconnected)) =
      Priv.disconnections priv + 1 := by
  change (priv.upcalls ++ [Upcall.disconnected]).count Upcall.disconnected = _
  rw [List.count_append, List.count_singleton_self]
  rfl

/-- A step of the stage either handles a loss of link or leaves the driver's state alone. -/
theorem step_stale (hmode : wlIsIbssmode state.priv = false) (hstale : StaleStage state label)
    (hstep : step state label = some next) :
    next.connect = state.connect ∧
      next.priv =
        if label.isHandle then dropAssociation (state.priv.call .disconnected)
        else state.priv := by
  cases label with
  | handle answers =>
    cases hpc : state.thread <;> simp only [step, hpc] at hstep
    case handling ev =>
      obtain ⟨_, hnext⟩ := Option.ite_none_left_eq_some.mp hstep
      cases hnext
      exact ⟨rfl, handleEvent_of_linkLoss answers hmode (hstale ev hpc)⟩
    all_goals cases hstep
  | take =>
    simp only [step] at hstep
    split at hstep <;> cases hstep
    exact ⟨rfl, rfl⟩
  | put =>
    cases hpc : state.thread <;> simp only [step, hpc] at hstep <;> cases hstep
    exact ⟨rfl, rfl⟩
  | linkUp e =>
    obtain ⟨_, hnext⟩ := Option.ite_none_right_eq_some.mp hstep
    cases hnext
    exact ⟨rfl, rfl⟩
  | event e =>
    cases hstep
    exact ⟨rfl, rfl⟩
  | begin | configure | fill | setSsid | setConnecting => exact hstale.elim
  | abortScan | test | store | report | finish => exact hstale.elim

/-- The call stays pending, and every handled event is reported as a disconnection; without one
nothing changes. -/
theorem run_stale (h : machine.Reachable state) (hpending : Pending state)
    (hstale : machine.Along StaleStage state labels)
    (hrun : machine.run state labels = some final) :
    Pending final ∧
      Priv.disconnections final.priv =
        Priv.disconnections state.priv + labels.countP Label.isHandle ∧
      (labels.countP Label.isHandle = 0 → final.priv = state.priv) := by
  induction labels generalizing state with
  | nil =>
    cases hrun
    exact ⟨hpending, rfl, fun _ ↦ rfl⟩
  | cons label labels ih =>
    obtain ⟨hfirst, hrest⟩ := Machine.along_cons_iff.mp hstale
    obtain ⟨next, hnext, hrun⟩ := Machine.run_cons_eq_some.mp hrun
    obtain ⟨hconnect, hpriv⟩ := step_stale (reachable_inv h).mode hfirst hnext
    have hreturned : next.connect = .returned 0 := hconnect.trans hpending.returned
    cases hhandle : label.isHandle with
    | false =>
      rw [hhandle, if_neg Bool.false_ne_true] at hpriv
      have hnext' : Pending next := ⟨hreturned, hpriv ▸ hpending.connecting⟩
      rw [List.countP_cons_of_neg (by simp [hhandle]), ← hpriv]
      exact ih (h.step hnext) hnext' (hrest next hnext) hrun
    | true =>
      rw [hhandle, if_pos rfl] at hpriv
      have hnext' : Pending next := by
        refine ⟨hreturned, ?_⟩
        rw [hpriv]
        exact hpending.connecting
      obtain ⟨hfinal, hcount, _⟩ := ih (h.step hnext) hnext' (hrest next hnext) hrun
      rw [hpriv, disconnections_dropAssociation] at hcount
      rw [List.countP_cons_of_pos hhandle, hcount]
      exact ⟨hfinal, by omega, fun hzero ↦ absurd hzero (Nat.succ_ne_zero _)⟩

/-- A pending connect stays pending as long as only losses of link are handled. Its profile is
untouched and no disconnection is reported if and only if none was handled. -/
theorem pending_connect_isolated_iff (h : machine.Reachable state) (hpending : Pending state)
    (hstale : machine.Along StaleStage state labels)
    (hrun : machine.run state labels = some final) :
    Pending final ∧ (Isolated state final ↔ ∀ label ∈ labels, label.isHandle = false) := by
  obtain ⟨hfinal, hcount, hsame⟩ := run_stale h hpending hstale hrun
  have hnone : labels.countP Label.isHandle = 0 ↔ ∀ label ∈ labels, label.isHandle = false := by
    simp only [List.countP_eq_zero, Bool.not_eq_true]
  refine ⟨hfinal, ?_⟩
  rw [← hnone]
  constructor
  · intro hisolated
    have hunreported := hisolated.unreported
    omega
  · intro hzero
    rw [hzero] at hcount
    have hpriv := hsame hzero
    exact ⟨congrArg (·.profile.ssid) hpriv, congrArg (·.profile.sec) hpriv, hcount⟩

/-- A network is joined. -/
def associate : List Label :=
  [.begin, .configure ⟨0, 0, 0, 0, 0⟩ 0, .fill none [65], .setSsid 0, .setConnecting,
    .linkUp linkUpEvent, .take, .abortScan, .test, .store noElements, .report, .finish, .put]

/-- The access point ends the association. -/
def deauthEvent : WlEventMsg := ⟨Wlc.eDeauthInd, 0, 0, linkUpEvent.addr⟩

/-- Another network is joined while that event is queued. -/
def reconnect : List Label :=
  [.event deauthEvent, .begin, .configure ⟨2, 0, 4, 4, 2⟩ 0, .fill none [66], .setSsid 0,
    .setConnecting]

def handleStale : List Label := [.take, .handle noElements, .put]

theorem handleStale_wipes_pending_connect :
    ∃ established state final, Initial quietStart ∧
      machine.run quietStart associate = some established ∧
      established.priv.connected = true ∧ established.priv.bssid = deauthEvent.addr ∧
      machine.run established reconnect = some state ∧ Pending state ∧
      state.priv.profile.ssid = [66] ∧ state.priv.profile.sec = ⟨2, 0, 4, 4, 2⟩ ∧
      machine.run state handleStale = some final ∧ Pending final ∧
      final.priv.profile.ssid = [] ∧ final.priv.profile.sec = ⟨0, 0, 0, 0, 0⟩ ∧
      Priv.disconnections final.priv = Priv.disconnections state.priv + 1 :=
  ⟨_, _, _, ⟨rfl, fun _ hev ↦ absurd hev List.not_mem_nil, rfl, rfl, rfl, rfl, rfl, rfl,
    fun _ ↦ rfl, rfl⟩, rfl, rfl, rfl, rfl, ⟨rfl, rfl⟩, rfl, rfl, rfl, ⟨rfl, rfl⟩, rfl, rfl, rfl⟩

theorem along_take (state : State) : machine.Along StaleStage state [.take] :=
  ⟨trivial, fun _ _ ↦ trivial⟩

/-- Without an event in hand, a pending connect is isolated from the one that is queued. -/
theorem pending_connect_isolated_while_queued :
    ∃ state final, machine.run quietStart (associate ++ reconnect) = some state ∧
      machine.run state [.take] = some final ∧ Isolated state final :=
  ⟨_, _, rfl, rfl, (pending_connect_isolated_iff ⟨quietStart, associate ++ reconnect,
    ⟨rfl, fun _ hev ↦ absurd hev List.not_mem_nil, rfl, rfl, rfl, rfl, rfl, rfl, fun _ ↦ rfl,
      rfl⟩, rfl⟩ ⟨rfl, rfl⟩ (along_take _) rfl).2.mpr (by decide)⟩

end BroadcomWl.Cfg80211.Connect
