import BroadcomWl.Cfg80211.Calls

/-!
# Coherence of the connection state

`WL_STATUS_CONNECTED` and `profile->active` both say that there is a connection. The bit is
only set together with the field, or before it in the same handler, and wherever the profile
is wiped the bit was cleared; so the bit implies the field in every session, and a disconnect
is never refused while the bit is set.

A result is reported only by `wl_bss_connect_done` when it has found `WL_STATUS_CONNECTING`
set, which it clears. Results and a set bit together never exceed the connect calls that
returned zero.
-/

namespace BroadcomWl.Cfg80211

open BroadcomWl.Systems

def Upcall.isConnectResult : Upcall → Bool
  | .connectResult _ _ _ => true
  | _ => false

/-- How many results of connect calls cfg80211 was told. -/
def Priv.results (priv : Priv) : ℕ := priv.upcalls.countP Upcall.isConnectResult

/-- The bit implies the field. -/
def Priv.ActiveWhenConnected (priv : Priv) : Prop :=
  priv.connected = true → priv.profile.active = true

/-- Either the connect that is awaited stays as it is, or it is reported and no longer awaited. -/
def Consumes (priv next : Priv) : Prop :=
  (next.results = priv.results ∧ next.connecting = priv.connecting) ∨
    (next.results = priv.results + 1 ∧ priv.connecting = true ∧ next.connecting = false)

/-- The connection state is as it was. -/
structure SameConnection (priv next : Priv) : Prop where
  connected : next.connected = priv.connected
  profile : next.profile = priv.profile
  connecting : next.connecting = priv.connecting
  results : next.results = priv.results

variable {priv next : Priv}

theorem SameConnection.activeWhenConnected (h : SameConnection priv next)
    (hactive : priv.ActiveWhenConnected) : next.ActiveWhenConnected := by
  unfold Priv.ActiveWhenConnected
  rw [h.connected, h.profile]
  exact hactive

theorem SameConnection.consumes (h : SameConnection priv next) : Consumes priv next :=
  .inl ⟨h.results, h.connecting⟩

theorem results_call (priv : Priv) (upcall : Upcall) :
    (priv.call upcall).results = priv.results + if upcall.isConnectResult then 1 else 0 := by
  change (priv.upcalls ++ [upcall]).countP _ = _
  rw [List.countP_append, List.countP_singleton]
  rfl

theorem sameConnection_completeScan (aborted : Bool) (priv : Priv) :
    SameConnection priv (completeScan aborted priv) := by
  unfold completeScan
  split
  · exact ⟨rfl, rfl, rfl, rfl⟩
  · exact ⟨rfl, rfl, rfl, results_call priv _⟩

theorem sameConnection_wlGetAssocIes (answers : Answers) (priv : Priv) :
    SameConnection priv (wlGetAssocIes answers priv).2 := by
  unfold wlGetAssocIes
  dsimp only
  split
  · exact ⟨rfl, rfl, rfl, rfl⟩
  · split <;> exact ⟨rfl, rfl, rfl, rfl⟩

/-! ## Handlers -/

variable {e : WlEventMsg} {answers : Answers}

theorem consumes_wlBssConnectDone (completed : Bool) :
    Consumes priv (wlBssConnectDone e answers completed priv).2 := by
  have hscan := sameConnection_completeScan true priv
  unfold wlBssConnectDone testAndClearConnecting
  dsimp only
  rw [hscan.connecting]
  cases hconnecting : priv.connecting with
  | false => exact .inl ⟨hscan.results, hconnecting.symm⟩
  | true =>
    refine .inr ⟨?_, hconnecting, ?_⟩
    · rw [if_pos rfl, reportConnectResult, results_call]
      cases completed with
      | false => exact congrArg (· + 1) hscan.results
      | true =>
        have hies := sameConnection_wlGetAssocIes answers
          { completeScan true priv with connecting := false }
        exact congrArg (· + 1) (hies.results.trans hscan.results)
    · rw [if_pos rfl]
      cases completed with
      | false => rfl
      | true => exact (sameConnection_wlGetAssocIes answers
          { completeScan true priv with connecting := false }).connecting

/-- A join that failed leaves the bit and the profile alone. -/
theorem activeWhenConnected_wlBssConnectDone_false (h : priv.ActiveWhenConnected) :
    (wlBssConnectDone e answers false priv).2.ActiveWhenConnected := by
  have hscan := (sameConnection_completeScan true priv).activeWhenConnected h
  unfold wlBssConnectDone testAndClearConnecting
  dsimp only
  split <;> exact hscan

theorem dropAssociation_coherent (h : priv.results = next.results)
    (hconnecting : priv.connecting = next.connecting) :
    (dropAssociation priv).ActiveWhenConnected ∧ Consumes next (dropAssociation priv) :=
  ⟨fun hconnected ↦ absurd hconnected Bool.false_ne_true, .inl ⟨h, hconnecting⟩⟩

theorem connectStatus_coherent (h : priv.ActiveWhenConnected) :
    (wlNotifyConnectStatus e answers priv).2.ActiveWhenConnected ∧
      Consumes priv (wlNotifyConnectStatus e answers priv).2 := by
  unfold wlNotifyConnectStatus
  split
  · have hies := sameConnection_wlGetAssocIes answers priv
    unfold notifyConnectStatusIbss
    dsimp only
    split
    · split
      · exact ⟨hies.activeWhenConnected h, hies.consumes⟩
      · exact ⟨fun _ ↦ rfl, .inl ⟨(results_call _ _).trans hies.results, hies.connecting⟩⟩
    · split
      · exact dropAssociation_coherent rfl rfl
      · exact ⟨h, .inl ⟨rfl, rfl⟩⟩
  · unfold notifyConnectStatusBss
    dsimp only
    split
    · exact ⟨fun _ ↦ rfl, consumes_wlBssConnectDone true⟩
    · split
      · exact dropAssociation_coherent (results_call priv _) rfl
      · split
        · exact ⟨activeWhenConnected_wlBssConnectDone_false h,
            consumes_wlBssConnectDone false⟩
        · exact ⟨h, .inl ⟨rfl, rfl⟩⟩

theorem roamingStatus_coherent (h : priv.ActiveWhenConnected) :
    (wlNotifyRoamingStatus e answers priv).2.ActiveWhenConnected ∧
      Consumes priv (wlNotifyRoamingStatus e answers priv).2 := by
  have hies := sameConnection_wlGetAssocIes answers priv
  unfold wlNotifyRoamingStatus
  dsimp only
  split
  · refine ⟨fun _ ↦ rfl, .inl ?_⟩
    unfold wlBssRoamingDone
    dsimp only
    split
    · exact ⟨hies.results, hies.connecting⟩
    · split
      · exact ⟨hies.results, hies.connecting⟩
      · exact ⟨(results_call _ _).trans hies.results, hies.connecting⟩
  · exact ⟨h, .inl ⟨rfl, rfl⟩⟩

theorem handleEvent_coherent (h : priv.ActiveWhenConnected) :
    (handleEvent e answers priv).ActiveWhenConnected ∧
      Consumes priv (handleEvent e answers priv) := by
  have hscan := sameConnection_completeScan false priv
  unfold handleEvent
  split
  · rename_i handler _
    cases handler with
    | connectStatus => exact connectStatus_coherent h
    | roamingStatus => exact roamingStatus_coherent h
    | scanStatus => exact ⟨hscan.activeWhenConnected h, hscan.consumes⟩
    | micStatus => exact ⟨h, .inl ⟨results_call priv _, rfl⟩⟩
  · exact ⟨h, .inl ⟨rfl, rfl⟩⟩

/-! ## Sessions -/

section Sessions

variable {Device : Type*} {firmware : Firmware Device} {session after : Session Device}
  {action : Action}

/-- The calls other than connect leave the connection state as it is. -/
theorem sameConnection_step (session : Session Device) {call : Call}
    (hcall : ∀ sme, call ≠ .connect sme) :
    SameConnection session.world.priv (session.step firmware (.call call)).world.priv := by
  cases call with
  | connect sme => exact absurd rfl (hcall sme)
  | disconnect reasonCode =>
    change SameConnection _ (wlCfg80211Disconnect firmware reasonCode session.world).2.priv
    rw [wlCfg80211Disconnect_priv]
    exact ⟨rfl, rfl, rfl, rfl⟩
  | changeIface type =>
    obtain ⟨mode, hpriv⟩ := @wlCfg80211ChangeIface_priv _ firmware type session.world
    change SameConnection _ (wlCfg80211ChangeIface firmware type session.world).2.priv
    rw [hpriv]
    exact ⟨rfl, rfl, rfl, rfl⟩
  | joinIbss params =>
    change SameConnection _ (wlCfg80211JoinIbss firmware params session.world).2.priv
    rw [wlCfg80211JoinIbss_priv]
    exact ⟨rfl, rfl, rfl, rfl⟩
  | leaveIbss => exact ⟨rfl, rfl, rfl, rfl⟩
  | scan request ssid =>
    obtain ⟨pending, hpriv⟩ := @wlCfg80211Scan_priv _ firmware request ssid session.world
    change SameConnection _ (wlCfg80211Scan firmware request ssid session.world).2.priv
    rw [hpriv]
    exact ⟨rfl, rfl, rfl, rfl⟩

/-- The bit implies the field, and results and a set bit are paid for by connect calls. -/
structure Coherent (session : Session Device) : Prop where
  active : session.world.priv.ActiveWhenConnected
  counted : session.world.priv.results + session.world.priv.connecting.toNat ≤ session.connects

theorem Consumes.counted {priv next : Priv} (h : Consumes priv next) :
    next.results + next.connecting.toNat ≤ priv.results + priv.connecting.toNat := by
  rcases h with ⟨hresults, hconnecting⟩ | ⟨hresults, hset, hclear⟩
  · exact Nat.le_of_eq (by rw [hresults, hconnecting])
  · exact Nat.le_of_eq (by rw [hresults, hset, hclear]; rfl)

theorem Connects.results {priv : Priv} {result : ℤ × World Device} (h : Connects priv result) :
    result.2.priv.results = priv.results := by
  obtain ⟨profile, _, hpriv⟩ := h
  rw [hpriv]
  rfl

theorem Connects.connecting {priv : Priv} {result : ℤ × World Device}
    (h : Connects priv result) :
    result.2.priv.connecting = (decide (result.1 = 0) || priv.connecting) := by
  obtain ⟨profile, _, hpriv⟩ := h
  rw [hpriv]

theorem Connects.activeWhenConnected {priv : Priv} {result : ℤ × World Device}
    (h : Connects priv result) (hactive : priv.ActiveWhenConnected) :
    result.2.priv.ActiveWhenConnected := by
  obtain ⟨profile, hprofile, hpriv⟩ := h
  rw [hpriv]
  exact fun hconnected ↦ hprofile.trans (hactive hconnected)

theorem Coherent.connect (h : Coherent session) (sme : ConnectParams) :
    Coherent (session.step firmware (.call (.connect sme))) := by
  have hconnects := @connects_wlCfg80211Connect _ firmware sme session.world
  have hcounted := h.counted
  refine ⟨hconnects.activeWhenConnected h.active, ?_⟩
  change (wlCfg80211Connect firmware sme session.world).2.priv.results +
      (wlCfg80211Connect firmware sme session.world).2.priv.connecting.toNat ≤
    if (wlCfg80211Connect firmware sme session.world).1 = 0 then session.connects + 1
    else session.connects
  rw [hconnects.results, hconnects.connecting]
  by_cases herr : (wlCfg80211Connect firmware sme session.world).1 = 0
  · rw [if_pos herr, decide_eq_true herr, Bool.true_or]
    exact Nat.succ_le_succ (Nat.le_trans (Nat.le_add_right _ _) hcounted)
  · rw [if_neg herr, decide_eq_false herr, Bool.false_or]
    exact hcounted

theorem Coherent.step (h : Coherent session) (action : Action) :
    Coherent (session.step firmware action) := by
  cases action with
  | call call =>
    by_cases hconnect : ∃ sme, call = .connect sme
    · obtain ⟨sme, rfl⟩ := hconnect
      exact h.connect sme
    · have hsame := @sameConnection_step _ firmware session _ (not_exists.mp hconnect)
      have hconnects : (session.step firmware (.call call)).connects = session.connects := by
        cases call with
        | connect sme => exact absurd ⟨sme, rfl⟩ hconnect
        | disconnect | changeIface | joinIbss | leaveIbss | scan => rfl
      refine ⟨hsame.activeWhenConnected h.active, ?_⟩
      rw [hconnects]
      exact Nat.le_trans hsame.consumes.counted h.counted
  | event handled =>
    obtain ⟨hactive, hconsumes⟩ := handleEvent_coherent h.active
    exact ⟨hactive, Nat.le_trans hconsumes.counted h.counted⟩

theorem coherent_of_reachable (h : (sessionMachine firmware).Reachable session) :
    Coherent session := by
  refine h.invariant (fun session hinitial ↦ ?_) fun session action next hsession hstep ↦ ?_
  · obtain ⟨hattached, hconnects⟩ := hinitial
    constructor
    · intro hconnected
      rw [hattached.connected] at hconnected
      cases hconnected
    · rw [Priv.results, hattached.upcalls, hattached.connecting]
      exact Nat.zero_le _
  · cases hstep
    exact hsession.step action

/-- A step reports at most one result, and only by clearing the bit. -/
theorem step_results (h : Coherent session) :
    let next := session.step firmware action
    next.world.priv.results = session.world.priv.results ∨
      (next.world.priv.results = session.world.priv.results + 1 ∧
        session.world.priv.connecting = true ∧ next.world.priv.connecting = false) := by
  cases action with
  | call call =>
    by_cases hconnect : ∃ sme, call = .connect sme
    · obtain ⟨sme, rfl⟩ := hconnect
      exact .inl (connects_wlCfg80211Connect sme session.world).results
    · exact .inl (sameConnection_step session (not_exists.mp hconnect)).results
  | event handled => exact (handleEvent_coherent h.active).2.imp_left And.left

/-- In every session, with any firmware: `WL_STATUS_CONNECTED` implies `profile->active`; a
disconnect issued while the bit is set sends `WLC_DISASSOC` with the current BSSID; the results
reported never exceed the connect calls that returned zero; and every step that reports one
finds `WL_STATUS_CONNECTING` set and clears it. -/
theorem connection_state_coherent (h : (sessionMachine firmware).Reachable session) :
    (session.world.priv.connected = true → session.world.priv.profile.active = true) ∧
      (session.world.priv.connected = true → ∀ reasonCode,
        (wlCfg80211Disconnect firmware reasonCode session.world).2.requests =
          session.world.requests ++
            [.disassoc session.world.priv.bssid reasonCode.toUInt32]) ∧
      session.world.priv.results ≤ session.connects ∧
      ∀ action, let next := session.step firmware action
        next.world.priv.results = session.world.priv.results ∨
          (next.world.priv.results = session.world.priv.results + 1 ∧
            session.world.priv.connecting = true ∧ next.world.priv.connecting = false) := by
  have hcoherent := coherent_of_reachable h
  refine ⟨hcoherent.active, fun hconnected reasonCode ↦ ?_, ?_, fun action ↦ ?_⟩
  · rw [wlCfg80211Disconnect, if_pos (hcoherent.active hconnected)]
    rfl
  · exact Nat.le_trans (Nat.le_add_right _ _) hcoherent.counted
  · exact step_results hcoherent

end Sessions

/-- A firmware that accepts every request. -/
def acceptingFirmware : Firmware Unit := fun device _ ↦ (⟨0, 0⟩, device)

def attachedSession : Session Unit :=
  ⟨⟨{ ibssStart with mode := .bss }, .station, true, [], (), []⟩, 0⟩

/-- An open network. -/
def openNetwork : ConnectParams where
  channel := none
  bssid := none
  ssid := some [65]
  authType := Nl80211.authtypeOpenSystem
  crypto := ⟨0, 0, 0, 0, 0, 0⟩
  key := []
  keyIdx := 0

theorem connection_state_coherent_connected :
    ∃ session, (sessionMachine acceptingFirmware).run attachedSession
        [.call (.connect openNetwork), .event ⟨linkUpEvent, noElements⟩] = some session ∧
      session.world.priv.connected = true ∧ session.world.priv.results = 1 ∧
      (wlCfg80211Disconnect acceptingFirmware 3 session.world).2.requests =
        session.world.requests ++ [.disassoc linkUpEvent.addr 3] :=
  ⟨_, rfl, rfl, rfl, (connection_state_coherent ⟨attachedSession,
    [.call (.connect openNetwork), .event ⟨linkUpEvent, noElements⟩],
    ⟨⟨rfl, rfl, rfl, rfl, ⟨rfl, fun _ ↦ rfl⟩, rfl⟩, rfl⟩, rfl⟩).2.1 rfl 3⟩

end BroadcomWl.Cfg80211
