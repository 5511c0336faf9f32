import BroadcomWl.Cfg80211.Events

/-!
# Reporting the result of a connect

`wl_cfg80211_connect` programs the security settings, fills the profile, issues
`WLC_SET_SSID` and only then sets `WL_STATUS_CONNECTING`. The event thread reports a
result when it finds that bit set. The machine interleaves both, one step for every
access to the bit: the firmware may queue the event of the new link as soon as it has
accepted `WLC_SET_SSID`, and any other events may be queued at any time.

The steps of the event thread are the pieces of the sequential handlers; without
interleaving they compose to `handleEvent`. The number of a connect call tags the event
of its link and, as history, the setting of the bit and the results.
-/

namespace BroadcomWl.Cfg80211.Connect

open BroadcomWl.Systems

/-- A queued event; `join` is the connect call whose link it announces. -/
structure Queued where
  e : WlEventMsg
  join : Option ℕ

/-- Where `wl_cfg80211_connect` is: not called, programming the security settings, before the
network goes into the profile, before `WLC_SET_SSID`, between its acceptance and `set_bit`, or
returned. -/
inductive ConnectPc where
  | idle
  | configuring
  | filling
  | joining
  | accepted
  | returned (err : ℤ)
deriving DecidableEq

/-- Where the event thread is: idle, before the handler, before `test_and_clear_bit`, before the
association is stored, before the result is reported, after `wl_bss_connect_done`, or before
`wl_put_event`. `owner` is the connect call that had set the bit. -/
inductive ThreadPc where
  | idle
  | handling (ev : Queued)
  | testing (ev : Queued)
  | storing (ev : Queued) (owner : Option ℕ)
  | reporting (ev : Queued) (owner : Option ℕ)
  | finishing (ev : Queued)
  | putting (ev : Queued)

/-- The driver's state, the queue and both threads. `join` numbers the connect calls;
`linkUpQueued` and `linkUpHandled` are about the link of the current one. The last three fields
are history: the call that set the bit last, the results of each call, and whether the bit was
tested since the current call set it. -/
structure State where
  priv : Priv
  queue : List Queued
  thread : ThreadPc
  connect : ConnectPc
  join : ℕ
  linkUpQueued : Bool
  linkUpHandled : Bool
  bitOwner : Option ℕ
  results : ℕ → ℕ
  testedSince : Bool

/-- An event of a link that came up. -/
def isLinkUp (e : WlEventMsg) : Bool :=
  e.eventType == Wlc.eLink && e.flags &&& Wlc.eventMsgLink != 0

/-- An event for which `wl_notify_connect_status` calls `wl_bss_connect_done`. -/
def callsConnectDone (priv : Priv) (e : WlEventMsg) : Bool :=
  !wlIsIbssmode priv &&
    (isLinkUp e || (e.eventType == Wlc.eSetSsid && e.status == Wlc.eStatusNoNetworks))

def ieee80211MaxSsidLen : ℕ := 32

/-- The network that `wl_cfg80211_connect` notes in the profile. -/
def fillProfile (bssid : Option EtherAddr) (ssid : Ssid) (priv : Priv) : Priv :=
  { priv with profile :=
      { priv.profile with
        bssid := bssid.getD (Vector.replicate 6 0)
        ssid := ssid.take ieee80211MaxSsidLen } }

/-- `begin` to `setConnecting` are the steps of `wl_cfg80211_connect`, with the firmware's answers;
`linkUp` and `event` are the firmware's; the others are the steps of the event thread. `handle`
runs a handler that does not call `wl_bss_connect_done`. -/
inductive Label where
  | begin
  | configure (sec : Security) (err : ℤ)
  | fill (bssid : Option EtherAddr) (ssid : Ssid)
  | setSsid (answer : ℤ)
  | setConnecting
  | linkUp (e : WlEventMsg)
  | event (e : WlEventMsg)
  | take
  | handle (answers : Answers)
  | abortScan
  | test
  | store (answers : Answers)
  | report
  | finish
  | put

def step (state : State) : Label → Option State
  | .begin =>
      match state.connect with
      | .idle | .returned _ =>
          some { state with
            connect := .configuring
            join := state.join + 1
            linkUpQueued := false
            linkUpHandled := false
            testedSince := false }
      | _ => none
  | .configure sec err =>
      match state.connect with
      | .configuring =>
          some { state with
            priv := { state.priv with profile := { state.priv.profile with sec := sec } }
            connect := if err = 0 then .filling else .returned err }
      | _ => none
  | .fill bssid ssid =>
      match state.connect with
      | .filling =>
          some { state with priv := fillProfile bssid ssid state.priv, connect := .joining }
      | _ => none
  | .setSsid answer =>
      match state.connect with
      | .joining =>
          some { state with connect := if answer = 0 then .accepted else .returned answer }
      | _ => none
  | .setConnecting =>
      match state.connect with
      | .accepted =>
          some { state with
            priv := { state.priv with connecting := true }
            connect := .returned 0
            bitOwner := some state.join
            testedSince := false }
      | _ => none
  | .linkUp e =>
      if (state.connect = .accepted ∨ state.connect = .returned 0) ∧ isLinkUp e ∧
          !state.linkUpQueued then
        some { state with
          queue := state.queue ++ [⟨e, some state.join⟩]
          linkUpQueued := true }
      else none
  | .event e => some { state with queue := state.queue ++ [⟨e, none⟩] }
  | .take =>
      match state.thread, state.queue with
      | .idle, ev :: rest => some { state with queue := rest, thread := .handling ev }
      | _, _ => none
  | .handle answers =>
      match state.thread with
      | .handling ev =>
          if callsConnectDone state.priv ev.e then none
          else some { state with
            priv := handleEvent ev.e answers state.priv
            thread := .putting ev }
      | _ => none
  | .abortScan =>
      match state.thread with
      | .handling ev =>
          if callsConnectDone state.priv ev.e then
            some { state with priv := completeScan true state.priv, thread := .testing ev }
          else none
      | _ => none
  | .test =>
      match state.thread with
      | .testing ev =>
          let (connecting, priv) := testAndClearConnecting state.priv
          some { state with
            priv := priv
            thread :=
              if connecting then
                if isLinkUp ev.e then .storing ev state.bitOwner
                else .reporting ev state.bitOwner
              else .finishing ev
            testedSince := true }
      | _ => none
  | .store answers =>
      match state.thread with
      | .storing ev owner =>
          some { state with
            priv := storeAssociation ev.e answers state.priv
            thread := .reporting ev owner }
      | _ => none
  | .report =>
      match state.thread with
      | .reporting ev owner =>
          some { state with
            priv := reportConnectResult (isLinkUp ev.e) state.priv
            thread := .finishing ev
            results :=
              match owner with
              | some join => Function.update state.results join (state.results join + 1)
              | none => state.results }
      | _ => none
  | .finish =>
      match state.thread with
      | .finishing ev =>
          some { state with
            priv :=
              if isLinkUp ev.e then
                { state.priv with profile := { state.priv.profile with active := true } }
              else state.priv
            thread := .putting ev }
      | _ => none
  | .put =>
      match state.thread with
      | .putting ev =>
          some { state with
            thread := .idle
            linkUpHandled := state.linkUpHandled || decide (ev.join = some state.join) }
      | _ => none

/-- No connect call was made yet; the driver is in BSS mode, and any events may be queued. -/
def Initial (state : State) : Prop :=
  wlIsIbssmode state.priv = false ∧ (∀ ev ∈ state.queue, ev.join = none) ∧
    state.thread = .idle ∧ state.connect = .idle ∧ state.join = 0 ∧
    state.linkUpQueued = false ∧ state.linkUpHandled = false ∧ state.bitOwner = none ∧
    (∀ join, state.results join = 0) ∧ state.testedSince = false

def machine : Machine State Label where
  initial := Initial
  step := step

def ThreadPc.event : ThreadPc → Option Queued
  | .idle => none
  | .handling ev => some ev
  | .testing ev => some ev
  | .storing ev _ => some ev
  | .reporting ev _ => some ev
  | .finishing ev => some ev
  | .putting ev => some ev

/-- The event in hand once its test of the bit is done or was not needed. -/
def ThreadPc.pastTest : ThreadPc → Option Queued
  | .storing ev _ => some ev
  | .reporting ev _ => some ev
  | .finishing ev => some ev
  | .putting ev => some ev
  | _ => none

/-- The call whose result is about to be reported. -/
def ThreadPc.owner : ThreadPc → Option ℕ
  | .storing _ owner => owner
  | .reporting _ owner => owner
  | _ => none

/-- The events in the queue and in the thread's hands. -/
def State.Holds (state : State) (ev : Queued) : Prop :=
  ev ∈ state.queue ∨ state.thread.event = some ev

theorem ThreadPc.event_of_pastTest {thread : ThreadPc} {ev : Queued}
    (h : thread.pastTest = some ev) : thread.event = some ev := by
  cases thread <;> first | exact h | cases h

/-! ## Results and settings of the bit -/

/-- In every interleaving a result is reported for a call exactly when a test has found the bit
that the call set; `counted` is the conserved quantity. -/
structure Inv (state : State) : Prop where
  mode : wlIsIbssmode state.priv = false
  tags : ∀ ev, state.Holds ev → ∀ join, ev.join = some join →
    join ≤ state.join ∧ isLinkUp ev.e = true
  owner_le : ∀ join, state.bitOwner = some join ∨ state.thread.owner = some join →
    join ≤ state.join
  fresh : ∀ join, state.join < join → state.results join = 0
  unset : state.connect ≠ .returned 0 → state.bitOwner ≠ some state.join ∧
    state.thread.owner ≠ some state.join ∧ state.results state.join = 0
  pending : state.connect = .returned 0 → state.priv.connecting = !state.testedSince
  owned : state.connect = .returned 0 → state.testedSince = false →
    state.bitOwner = some state.join
  counted : state.connect = .returned 0 → state.results state.join +
    (if state.thread.owner = some state.join then 1 else 0) = state.testedSince.toNat

theorem Initial.inv {state : State} (h : Initial state) : Inv state := by
  obtain ⟨hmode, htags, hthread, hconnect, hjoin, -, -, howner, hresults, -⟩ := h
  constructor
  · exact hmode
  · intro ev hev join htag
    rcases hev with hev | hev
    · rw [htags ev hev] at htag
      cases htag
    · rw [hthread] at hev
      cases hev
  · intro join hjoin'
    rw [howner, hthread] at hjoin'
    rcases hjoin' with hnone | hnone <;> cases hnone
  · exact fun join _ ↦ hresults join
  · intro _
    rw [howner, hthread]
    exact ⟨fun hnone ↦ (nomatch hnone), fun hnone ↦ (nomatch hnone), hresults _⟩
  · intro hreturned
    rw [hconnect] at hreturned
    cases hreturned
  · intro hreturned
    rw [hconnect] at hreturned
    cases hreturned
  · intro hreturned
    rw [hconnect] at hreturned
    cases hreturned

section Steps

variable {state next : State}

/-- A step that touches neither the bit nor its history, nor makes the call return zero. -/
theorem Inv.frame (h : Inv state) (hmode : next.priv.mode = state.priv.mode)
    (hconnecting : next.priv.connecting = state.priv.connecting)
    (hconnect : next.connect = .returned 0 ↔ state.connect = .returned 0)
    (hhistory : next.join = state.join ∧ next.bitOwner = state.bitOwner ∧
      next.results = state.results ∧ next.testedSince = state.testedSince)
    (howner : next.thread.owner = state.thread.owner)
    (hholds : ∀ ev, next.Holds ev → state.Holds ev ∨ ev.join = none ∨
      (ev.join = some state.join ∧ isLinkUp ev.e = true)) : Inv next := by
  obtain ⟨hjoin, hbitOwner, hresults, htested⟩ := hhistory
  constructor
  · rw [← h.mode, wlIsIbssmode, wlIsIbssmode, hmode]
  · intro ev hev join htag
    rw [hjoin]
    rcases hholds ev hev with hold | hnone | ⟨hcurrent, hup⟩
    · exact h.tags ev hold join htag
    · rw [hnone] at htag
      cases htag
    · rw [hcurrent] at htag
      cases htag
      exact ⟨Nat.le_refl _, hup⟩
  · rw [hbitOwner, howner, hjoin]
    exact h.owner_le
  · rw [hjoin, hresults]
    exact h.fresh
  · rw [hbitOwner, howner, hjoin, hresults, Ne, hconnect]
    exact h.unset
  · rw [hconnecting, htested, hconnect]
    exact h.pending
  · rw [hbitOwner, htested, hjoin, hconnect]
    exact h.owned
  · rw [hresults, howner, htested, hjoin, hconnect]
    exact h.counted

/-- In an IBSS a connect status leaves the mode and the bit alone. -/
theorem notifyConnectStatusIbss_frame (e : WlEventMsg) (answers : Answers) (priv : Priv) :
    (notifyConnectStatusIbss e answers priv).2.mode = priv.mode ∧
      (notifyConnectStatusIbss e answers priv).2.connecting = priv.connecting := by
  have hframe := wlGetAssocIes_frame answers priv
  unfold notifyConnectStatusIbss
  dsimp only
  split
  · split <;> exact hframe
  · split <;> exact ⟨rfl, rfl⟩

/-- So does, in BSS mode, one that is neither a link nor a missing network. -/
theorem notifyConnectStatusBss_frame {e : WlEventMsg} (answers : Answers) {priv : Priv}
    (hbss : wlIsIbssmode priv = false) (h : callsConnectDone priv e = false) :
    (notifyConnectStatusBss e answers priv).2.mode = priv.mode ∧
      (notifyConnectStatusBss e answers priv).2.connecting = priv.connecting := by
  simp only [callsConnectDone, hbss, isLinkUp, Bool.not_false, Bool.true_and,
    Bool.or_eq_false_iff, Bool.and_eq_false_iff, beq_eq_false_iff_ne, bne_eq_false_iff_eq] at h
  unfold notifyConnectStatusBss
  dsimp only
  split
  · rename_i hup
    exact absurd h.1 (by simp [hup.1, hup.2])
  · split
    · exact ⟨rfl, rfl⟩
    · split
      · rename_i hnone
        exact absurd h.2 (by simp [hnone.1, hnone.2])
      · exact ⟨rfl, rfl⟩

/-- Handlers that do not call `wl_bss_connect_done` leave the mode and the bit alone. -/
theorem handleEvent_frame {e : WlEventMsg} (answers : Answers) {priv : Priv}
    (h : callsConnectDone priv e = false) :
    (handleEvent e answers priv).mode = priv.mode ∧
      (handleEvent e answers priv).connecting = priv.connecting := by
  unfold handleEvent
  split
  · rename_i handler _
    cases handler with
    | connectStatus =>
      change (wlNotifyConnectStatus e answers priv).2.mode = _ ∧
        (wlNotifyConnectStatus e answers priv).2.connecting = _
      unfold wlNotifyConnectStatus
      split
      · exact notifyConnectStatusIbss_frame e answers priv
      · rename_i hbss
        exact notifyConnectStatusBss_frame answers (Bool.eq_false_iff.mpr hbss) h
    | roamingStatus =>
      change (wlNotifyRoamingStatus e answers priv).2.mode = _ ∧
        (wlNotifyRoamingStatus e answers priv).2.connecting = _
      unfold wlNotifyRoamingStatus
      split
      · exact wlBssRoamingDone_frame e answers priv
      · exact ⟨rfl, rfl⟩
    | scanStatus => exact completeScan_frame false priv
    | micStatus => exact ⟨rfl, rfl⟩
  · exact ⟨rfl, rfl⟩

/-- The event thread goes on with its event. -/
theorem Inv.goOn (h : Inv state) {priv : Priv} {thread : ThreadPc}
    (hpriv : priv.mode = state.priv.mode ∧ priv.connecting = state.priv.connecting)
    (howner : thread.owner = state.thread.owner) (hevent : thread.event = state.thread.event) :
    Inv { state with priv := priv, thread := thread } := by
  refine h.frame hpriv.1 hpriv.2 Iff.rfl ⟨rfl, rfl, rfl, rfl⟩ howner fun ev hev ↦ .inl ?_
  exact hev.imp_right fun hthread ↦ hevent.symm.trans hthread

/-- A new call has no results yet, and nothing in the system belongs to it. -/
theorem begin_inv (h : Inv state) :
    Inv { state with
      connect := .configuring
      join := state.join + 1
      linkUpQueued := false
      linkUpHandled := false
      testedSince := false } := by
  have hnew : ∀ join, state.bitOwner = some join ∨ state.thread.owner = some join →
      join ≠ state.join + 1 := fun join howner ↦
    Nat.ne_of_lt (Nat.lt_succ_of_le (h.owner_le join howner))
  refine ⟨h.mode, ?_, ?_, ?_, ?_, fun hzero ↦ (nomatch hzero), fun hzero ↦ (nomatch hzero),
    fun hzero ↦ (nomatch hzero)⟩
  · intro ev hev join htag
    have hold := h.tags ev hev join htag
    exact ⟨Nat.le_succ_of_le hold.1, hold.2⟩
  · intro join howner
    exact Nat.le_succ_of_le (h.owner_le join howner)
  · intro join hjoin
    exact h.fresh join (Nat.lt_of_succ_lt hjoin)
  · intro _
    refine ⟨fun howner ↦ ?_, fun howner ↦ ?_, h.fresh _ (Nat.lt_succ_self _)⟩
    · exact hnew _ (.inl howner) rfl
    · exact hnew _ (.inr howner) rfl

/-- `set_bit` makes the bit the current call's. -/
theorem setConnecting_inv (h : Inv state) (haccepted : state.connect = .accepted) :
    Inv { state with
      priv := { state.priv with connecting := true }
      connect := .returned 0
      bitOwner := some state.join
      testedSince := false } := by
  obtain ⟨_, howner, hresults⟩ := h.unset (by rw [haccepted]; exact fun hne ↦ nomatch hne)
  refine ⟨h.mode, h.tags, ?_, h.fresh, fun hne ↦ absurd rfl hne, fun _ ↦ rfl, fun _ _ ↦ rfl, ?_⟩
  · intro join hjoin
    rcases hjoin with hbit | hthread
    · cases hbit
      exact Nat.le_refl _
    · exact h.owner_le join (.inr hthread)
  · intro _
    dsimp only
    rw [hresults, if_neg howner]
    rfl

/-- The event thread after `test_and_clear_bit`. -/
def testedThread (state : State) (ev : Queued) : ThreadPc :=
  if state.priv.connecting then
    if isLinkUp ev.e then .storing ev state.bitOwner else .reporting ev state.bitOwner
  else .finishing ev

theorem testedThread_event (state : State) (ev : Queued) :
    (testedThread state ev).event = some ev := by
  unfold testedThread
  split
  · split <;> rfl
  · rfl

theorem testedThread_owner (state : State) (ev : Queued) :
    (testedThread state ev).owner = if state.priv.connecting then state.bitOwner else none := by
  unfold testedThread
  split
  · split <;> rfl
  · rfl

/-- A test that finds the bit takes it over for the call that set it. -/
theorem test_inv (h : Inv state) {ev : Queued} (htesting : state.thread = .testing ev) :
    Inv { state with
      priv := { state.priv with connecting := false }
      thread := testedThread state ev
      testedSince := true } := by
  have hbefore : state.thread.owner = none := by rw [htesting]; rfl
  constructor
  · exact h.mode
  · intro ev' hev'
    refine h.tags ev' (hev'.imp_right fun hthread ↦ ?_)
    change (testedThread state ev).event = some ev' at hthread
    rw [testedThread_event] at hthread
    rw [htesting]
    exact hthread
  · intro join howner
    refine h.owner_le join (.inl ?_)
    rcases howner with hbit | hthread
    · exact hbit
    · change (testedThread state ev).owner = some join at hthread
      rw [testedThread_owner] at hthread
      split at hthread
      · exact hthread
      · cases hthread
  · exact h.fresh
  · intro hne
    obtain ⟨hbit, _, hresults⟩ := h.unset hne
    refine ⟨hbit, ?_, hresults⟩
    change (testedThread state ev).owner ≠ some state.join
    rw [testedThread_owner]
    split
    · exact hbit
    · exact fun hnone ↦ nomatch hnone
  · exact fun _ ↦ rfl
  · exact fun _ htested ↦ nomatch htested
  · intro hreturned
    have hcounted := h.counted hreturned
    have hpending := h.pending hreturned
    change state.results state.join +
      (if (testedThread state ev).owner = some state.join then 1 else 0) = 1
    rw [hbefore, if_neg (fun hnone ↦ nomatch hnone)] at hcounted
    rw [testedThread_owner, hpending]
    cases htested : state.testedSince with
    | false =>
      rw [htested] at hcounted
      rw [h.owned hreturned htested]
      simpa using hcounted
    | true =>
      rw [htested] at hcounted
      simpa using hcounted

/-- A report counts for the call that had set the bit. -/
def reportedResults (state : State) : Option ℕ → ℕ → ℕ
  | some join => Function.update state.results join (state.results join + 1)
  | none => state.results

theorem report_inv (h : Inv state) {ev : Queued} {owner : Option ℕ}
    (hreporting : state.thread = .reporting ev owner) :
    Inv { state with
      priv := reportConnectResult (isLinkUp ev.e) state.priv
      thread := .finishing ev
      results := reportedResults state owner } := by
  have howner : state.thread.owner = owner := by rw [hreporting]; rfl
  have hle : ∀ join, owner = some join → join ≤ state.join := fun join hjoin ↦
    h.owner_le join (.inr (howner.trans hjoin))
  constructor
  · exact h.mode
  · intro ev' hev'
    refine h.tags ev' (hev'.imp_right fun hthread ↦ ?_)
    rw [hreporting]
    exact hthread
  · intro join hjoin
    rcases hjoin with hbit | hnone
    · exact h.owner_le join (.inl hbit)
    · cases hnone
  · intro join hjoin
    change reportedResults state owner join = 0
    cases owner with
    | none => exact h.fresh join hjoin
    | some reported =>
      have hne : join ≠ reported := fun heq ↦ Nat.not_le_of_lt hjoin (hle join (heq ▸ rfl))
      exact (Function.update_of_ne hne ..).trans (h.fresh join hjoin)
  · intro hne
    obtain ⟨hbit, hthread, hresults⟩ := h.unset hne
    refine ⟨hbit, fun hnone ↦ (nomatch hnone), ?_⟩
    change reportedResults state owner state.join = 0
    rw [howner] at hthread
    cases owner with
    | none => exact hresults
    | some reported =>
      have hother : state.join ≠ reported := fun heq ↦ hthread (by rw [heq])
      exact (Function.update_of_ne hother ..).trans hresults
  · exact h.pending
  · exact h.owned
  · intro hreturned
    have hcounted := h.counted hreturned
    change reportedResults state owner state.join + 0 = state.testedSince.toNat
    rw [howner] at hcounted
    cases owner with
    | none =>
      rw [if_neg fun hnone ↦ nomatch hnone] at hcounted
      exact hcounted
    | some reported =>
      by_cases hsame : reported = state.join
      · rw [if_pos (by rw [hsame])] at hcounted
        rw [hsame]
        exact (congrArg (· + 0) (Function.update_self ..)).trans hcounted
      · rw [if_neg (fun heq ↦ hsame (Option.some.inj heq))] at hcounted
        have hother : state.join ≠ reported := fun heq ↦ hsame heq.symm
        exact (congrArg (· + 0) (Function.update_of_ne hother ..)).trans hcounted

/-- An event that is put into the queue is the only new one. -/
theorem State.holds_append (state : State) {next : State} {added ev : Queued}
    (h : next.Holds ev) (hqueue : next.queue = state.queue ++ [added])
    (hthread : next.thread = state.thread) : state.Holds ev ∨ ev = added := by
  rcases h with hmem | hevent
  · rw [hqueue, List.mem_append, List.mem_singleton] at hmem
    exact hmem.imp_left .inl
  · rw [hthread] at hevent
    exact .inl (.inr hevent)

/-- Taking the first event keeps it in hand. -/
theorem State.holds_take {first ev : Queued} {rest : List Queued}
    (hqueue : state.queue = first :: rest) (hrest : next.queue = rest)
    (hthread : next.thread.event = some first) (h : next.Holds ev) : state.Holds ev := by
  left
  rw [hqueue, List.mem_cons]
  rcases h with hmem | hevent
  · exact .inr (hrest ▸ hmem)
  · exact .inl (Option.some.inj (hevent.symm.trans hthread))

theorem step_inv {label : Label} (h : Inv state) (hstep : step state label = some next) :
    Inv next := by
  cases label with
  | begin =>
    cases hpc : state.connect <;> simp only [step, hpc] at hstep <;> cases hstep <;>
    exact begin_inv h
  | configure sec err =>
    cases hpc : state.connect <;> simp only [step, hpc] at hstep <;> cases hstep
    refine h.frame rfl rfl ?_ ⟨rfl, rfl, rfl, rfl⟩ rfl fun ev hev ↦ .inl hev
    rw [hpc]
    by_cases herr : err = 0
    · simp [herr]
    · simp [herr]
  | fill bssid ssid =>
    cases hpc : state.connect <;> simp only [step, hpc] at hstep <;> cases hstep
    exact h.frame rfl rfl (by simp [hpc]) ⟨rfl, rfl, rfl, rfl⟩ rfl fun ev hev ↦ .inl hev
  | setSsid answer =>
    cases hpc : state.connect <;> simp only [step, hpc] at hstep <;> cases hstep
    refine h.frame rfl rfl ?_ ⟨rfl, rfl, rfl, rfl⟩ rfl fun ev hev ↦ .inl hev
    rw [hpc]
    by_cases hanswer : answer = 0
    · simp [hanswer]
    · simp [hanswer]
  | setConnecting =>
    cases hpc : state.connect <;> simp only [step, hpc] at hstep <;> cases hstep
    exact setConnecting_inv h hpc
  | linkUp e =>
    obtain ⟨⟨_, hup, _⟩, hnext⟩ := Option.ite_none_right_eq_some.mp hstep
    cases hnext
    refine h.frame rfl rfl Iff.rfl ⟨rfl, rfl, rfl, rfl⟩ rfl fun ev hev ↦ ?_
    rcases state.holds_append hev rfl rfl with hev | rfl
    · exact .inl hev
    · exact .inr (.inr ⟨rfl, hup⟩)
  | event e =>
    cases hstep
    refine h.frame rfl rfl Iff.rfl ⟨rfl, rfl, rfl, rfl⟩ rfl fun ev hev ↦ ?_
    rcases state.holds_append hev rfl rfl with hev | rfl
    · exact .inl hev
    · exact .inr (.inl rfl)
  | take =>
    cases hpc : state.thread <;> simp only [step, hpc] at hstep <;> try cases hstep
    cases hqueue : state.queue <;> simp only [hqueue] at hstep <;> cases hstep
    refine h.frame rfl rfl Iff.rfl ⟨rfl, rfl, rfl, rfl⟩ (by rw [hpc]; rfl) fun ev hev ↦ ?_
    exact .inl (State.holds_take hqueue rfl rfl hev)
  | handle answers =>
    cases hpc : state.thread <;> simp only [step, hpc] at hstep <;> try cases hstep
    obtain ⟨hcalls, hnext⟩ := Option.ite_none_left_eq_some.mp hstep
    cases hnext
    have hframe := handleEvent_frame answers (Bool.eq_false_iff.mpr hcalls)
    exact h.goOn hframe (by rw [hpc]; rfl) (by rw [hpc]; rfl)
  | abortScan =>
    cases hpc : state.thread <;> simp only [step, hpc] at hstep <;> try cases hstep
    obtain ⟨_, hnext⟩ := Option.ite_none_right_eq_some.mp hstep
    cases hnext
    exact h.goOn (completeScan_frame true state.priv) (by rw [hpc]; rfl) (by rw [hpc]; rfl)
  | test =>
    cases hpc : state.thread <;> simp only [step, hpc] at hstep <;> cases hstep
    exact test_inv h hpc
  | store answers =>
    cases hpc : state.thread <;> simp only [step, hpc] at hstep <;> cases hstep
    exact h.goOn (wlGetAssocIes_frame answers state.priv) (by rw [hpc]; rfl) (by rw [hpc]; rfl)
  | report =>
    cases hpc : state.thread <;> simp only [step, hpc] at hstep <;> cases hstep
    exact report_inv h hpc
  | finish =>
    cases hpc : state.thread <;> simp only [step, hpc] at hstep <;> cases hstep
    refine h.goOn ?_ (by rw [hpc]; rfl) (by rw [hpc]; rfl)
    split <;> exact ⟨rfl, rfl⟩
  | put =>
    cases hpc : state.thread <;> simp only [step, hpc] at hstep <;> cases hstep
    refine h.frame rfl rfl Iff.rfl ⟨rfl, rfl, rfl, rfl⟩ (by rw [hpc]; rfl) fun ev hev ↦ ?_
    exact .inl (hev.imp_right fun hnone ↦ nomatch hnone)

theorem reachable_inv (h : machine.Reachable state) : Inv state := by
  refine h.invariant ?_ ?_
  · intro state hinitial
    exact Initial.inv hinitial
  · intro state label next hinv hstep
    exact step_inv hinv hstep

/-! ## When the new link is noticed after the bit was set -/

/-- The event thread tests the bit for the link of the current call only after that call has set
it. -/
def linkUpTestedAfterSet (state : State) : Label → Bool
  | .test =>
      match state.thread with
      | .testing ev => ev.join != some state.join || state.connect == .returned 0
      | _ => true
  | _ => true

/-- The event of the current call's link has passed the test of the bit. -/
def LinkUpTested (state : State) : Prop :=
  state.linkUpHandled = true ∨
    ∃ ev, state.thread.pastTest = some ev ∧ ev.join = some state.join

theorem LinkUpTested.handled {state : State} (h : LinkUpTested state)
    (hnone : state.thread.pastTest = none) : state.linkUpHandled = true := by
  rcases h with hhandled | ⟨ev, hev, _⟩
  · exact hhandled
  · rw [hnone] at hev
    cases hev

/-- The bit was set before the link's event was tested, and the result is out once the event was
handled. -/
structure InOrder (state : State) : Prop where
  tested : LinkUpTested state → state.connect = .returned 0 ∧ state.testedSince = true
  quiet : state.linkUpHandled = true → state.thread.owner ≠ some state.join

theorem Initial.inOrder (h : Initial state) : InOrder state := by
  obtain ⟨-, -, hthread, -, -, -, hhandled, -, -, -⟩ := h
  have hnot : ¬state.linkUpHandled = true := by
    rw [hhandled]
    exact Bool.false_ne_true
  have hnone : state.thread.pastTest = none := by
    rw [hthread]
    rfl
  exact ⟨fun htested ↦ absurd (htested.handled hnone) hnot, fun htrue ↦ absurd htrue hnot⟩

/-- A step that tests no bit of this call and leaves its history alone. -/
theorem InOrder.frame (h : InOrder state) (htested : LinkUpTested next → LinkUpTested state)
    (hset : state.connect = .returned 0 → next.connect = .returned 0)
    (hsince : next.testedSince = state.testedSince)
    (hquiet : next.linkUpHandled = true → next.thread.owner ≠ some next.join) : InOrder next := by
  refine ⟨fun hnext ↦ ?_, hquiet⟩
  obtain ⟨hconnect, htrue⟩ := h.tested (htested hnext)
  exact ⟨hset hconnect, hsince.trans htrue⟩

/-- The event of a link takes the path on which the bit is tested. -/
theorem Inv.callsConnectDone (h : Inv state) {ev : Queued} (hev : state.Holds ev) {join : ℕ}
    (htag : ev.join = some join) : callsConnectDone state.priv ev.e = true := by
  have hup := (h.tags ev hev join htag).2
  simp [Connect.callsConnectDone, h.mode, hup]

theorem test_inOrder (hinv : Inv state) (h : InOrder state) {ev : Queued}
    (htesting : state.thread = .testing ev)
    (hcondition : linkUpTestedAfterSet state .test = true) :
    InOrder { state with
      priv := { state.priv with connecting := false }
      thread := testedThread state ev
      testedSince := true } := by
  refine ⟨fun htested ↦ ⟨?_, rfl⟩, fun hhandled ↦ ?_⟩
  · rcases htested with hhandled | ⟨ev', hev', htag⟩
    · exact (h.tested (.inl hhandled)).1
    · have hevent := ThreadPc.event_of_pastTest hev'
      change (testedThread state ev).event = some ev' at hevent
      rw [testedThread_event] at hevent
      cases hevent
      rw [linkUpTestedAfterSet, htesting] at hcondition
      simpa [show ev.join = some state.join from htag] using hcondition
  · obtain ⟨hconnect, htrue⟩ := h.tested (.inl hhandled)
    change (testedThread state ev).owner ≠ some state.join
    rw [testedThread_owner, hinv.pending hconnect, htrue]
    exact fun hnone ↦ nomatch hnone

theorem step_inOrder {label : Label} (hinv : Inv state) (h : InOrder state)
    (hcondition : linkUpTestedAfterSet state label = true)
    (hstep : step state label = some next) : InOrder next := by
  cases label with
  | begin =>
    have hnot : ∀ ev, state.thread.pastTest = some ev → ev.join ≠ some (state.join + 1) := by
      intro ev hev htag
      have hle := (hinv.tags ev (.inr (ThreadPc.event_of_pastTest hev)) _ htag).1
      exact Nat.not_succ_le_self _ hle
    cases hpc : state.connect <;> simp only [step, hpc] at hstep <;> cases hstep <;>
    · refine ⟨fun htested ↦ ?_, fun hfalse ↦ nomatch hfalse⟩
      rcases htested with hfalse | ⟨ev, hev, htag⟩
      · cases hfalse
      · exact absurd htag (hnot ev hev)
  | configure sec err =>
    cases hpc : state.connect <;> simp only [step, hpc] at hstep <;> cases hstep
    exact h.frame id (fun hset ↦ by rw [hpc] at hset; cases hset) rfl h.quiet
  | fill bssid ssid =>
    cases hpc : state.connect <;> simp only [step, hpc] at hstep <;> cases hstep
    exact h.frame id (fun hset ↦ by rw [hpc] at hset; cases hset) rfl h.quiet
  | setSsid answer =>
    cases hpc : state.connect <;> simp only [step, hpc] at hstep <;> cases hstep
    exact h.frame id (fun hset ↦ by rw [hpc] at hset; cases hset) rfl h.quiet
  | setConnecting =>
    cases hpc : state.connect <;> simp only [step, hpc] at hstep <;> cases hstep
    have hnot : ¬LinkUpTested state := fun htested ↦ by
      have hconnect := (h.tested htested).1
      rw [hpc] at hconnect
      cases hconnect
    exact ⟨fun htested ↦ absurd htested hnot, fun hhandled ↦ absurd (.inl hhandled) hnot⟩
  | linkUp e =>
    obtain ⟨_, hnext⟩ := Option.ite_none_right_eq_some.mp hstep
    cases hnext
    exact h.frame id id rfl h.quiet
  | event e =>
    cases hstep
    exact h.frame id id rfl h.quiet
  | take =>
    cases hpc : state.thread <;> simp only [step, hpc] at hstep <;> try cases hstep
    cases hqueue : state.queue <;> simp only [hqueue] at hstep <;> cases hstep
    exact h.frame (fun htested ↦ .inl (htested.handled rfl)) id rfl fun _ hnone ↦ nomatch hnone
  | handle answers =>
    cases hpc : state.thread <;> simp only [step, hpc] at hstep <;> try cases hstep
    rename_i ev
    obtain ⟨hcalls, hnext⟩ := Option.ite_none_left_eq_some.mp hstep
    cases hnext
    refine h.frame (fun htested ↦ ?_) id rfl fun _ hnone ↦ nomatch hnone
    rcases htested with hhandled | ⟨_, hev, htag⟩
    · exact .inl hhandled
    · cases hev
      have hheld : state.Holds ev := .inr (by rw [hpc]; rfl)
      exact absurd (hinv.callsConnectDone hheld htag) hcalls
  | abortScan =>
    cases hpc : state.thread <;> simp only [step, hpc] at hstep <;> try cases hstep
    obtain ⟨_, hnext⟩ := Option.ite_none_right_eq_some.mp hstep
    cases hnext
    exact h.frame (fun htested ↦ .inl (htested.handled rfl)) id rfl fun _ hnone ↦ nomatch hnone
  | test =>
    cases hpc : state.thread <;> simp only [step, hpc] at hstep <;> cases hstep
    exact test_inOrder hinv h hpc hcondition
  | store answers =>
    cases hpc : state.thread <;> simp only [step, hpc] at hstep <;> cases hstep
    have hquiet := h.quiet
    rw [hpc] at hquiet
    refine h.frame (fun htested ↦ ?_) id rfl hquiet
    exact htested.imp_right fun htag ↦ by rw [hpc]; exact htag
  | report =>
    cases hpc : state.thread <;> simp only [step, hpc] at hstep <;> cases hstep
    refine h.frame (fun htested ↦ ?_) id rfl fun _ hnone ↦ nomatch hnone
    exact htested.imp_right fun htag ↦ by rw [hpc]; exact htag
  | finish =>
    cases hpc : state.thread <;> simp only [step, hpc] at hstep <;> cases hstep
    refine h.frame (fun htested ↦ ?_) id rfl fun _ hnone ↦ nomatch hnone
    exact htested.imp_right fun htag ↦ by rw [hpc]; exact htag
  | put =>
    cases hpc : state.thread <;> simp only [step, hpc] at hstep <;> cases hstep
    rename_i ev
    refine h.frame (fun htested ↦ ?_) id rfl fun _ hnone ↦ nomatch hnone
    rcases (Bool.or_eq_true_iff ..).mp (htested.handled rfl) with hbefore | htag
    · exact .inl hbefore
    · exact .inr ⟨ev, by rw [hpc]; rfl, of_decide_eq_true htag⟩

theorem restrict_inOrder
    (h : (machine.restrict fun state label ↦
      linkUpTestedAfterSet state label = true).Reachable state) : InOrder state := by
  have hinvariant : Inv state ∧ InOrder state := by
    refine @Machine.Reachable.invariant _ _ _ (fun state ↦ Inv state ∧ InOrder state) ?_ ?_ _ h
    · exact fun _ hinitial ↦ ⟨Initial.inv hinitial, Initial.inOrder hinitial⟩
    · intro state label next hstate hstep
      obtain ⟨hcondition, hstep⟩ := Machine.restrict_step_eq_some.mp hstep
      exact ⟨step_inv hstate.1 hstep, step_inOrder hstate.1 hstate.2 hcondition hstep⟩
  exact hinvariant.2

/-! ## The result of a connect -/

/-- The connect call has returned zero, the event of its link was handled, and no event waits. -/
def Settled (state : State) : Prop :=
  state.connect = .returned 0 ∧ state.linkUpHandled = true ∧ state.queue = []

/-- Exactly one result was reported for the connect call and the bit is clear. -/
def Reported (state : State) : Prop :=
  state.results state.join = 1 ∧ state.priv.connecting = false

theorem Inv.reported_iff (h : Inv state) (hconnect : state.connect = .returned 0)
    (howner : state.thread.owner ≠ some state.join) :
    Reported state ↔ state.testedSince = true := by
  have hcounted := h.counted hconnect
  rw [if_neg howner, Nat.add_zero] at hcounted
  rw [Reported, hcounted, h.pending hconnect]
  cases state.testedSince
  · exact iff_of_false (fun hone ↦ nomatch hone.1) (fun hfalse ↦ nomatch hfalse)
  · exact iff_of_true ⟨rfl, rfl⟩ rfl

/-- When the event of the link is never tested before the bit is set, every settled connect has
been reported exactly once. In any run a settled connect was reported if and only if some event
was tested after the bit was set. -/
theorem connect_reported_once (state : State) :
    ((machine.restrict fun state label ↦ linkUpTestedAfterSet state label = true).Reachable
        state → Settled state → Reported state) ∧
      (machine.Reachable state → Settled state → state.thread = .idle →
        (Reported state ↔ state.testedSince = true)) := by
  constructor
  · intro h hsettled
    obtain ⟨hconnect, hhandled, _⟩ := hsettled
    have horder := restrict_inOrder h
    have hreported := (reachable_inv h.of_restrict).reported_iff hconnect (horder.quiet hhandled)
    exact hreported.mpr (horder.tested (.inl hhandled)).2
  · intro h hsettled hidle
    refine (reachable_inv h).reported_iff hsettled.1 ?_
    rw [hidle]
    exact fun hnone ↦ nomatch hnone

end Steps

/-- A driver in BSS mode with nothing queued. -/
def quietStart : State where
  priv := { ibssStart with mode := .bss }
  queue := []
  thread := .idle
  connect := .idle
  join := 0
  linkUpQueued := false
  linkUpHandled := false
  bitOwner := none
  results _ := 0
  testedSince := false

/-- The link comes up before `wl_cfg80211_connect` has returned, but is noticed after it. -/
theorem connect_reported_once_in_order :
    ∃ state, (machine.restrict fun state label ↦ linkUpTestedAfterSet state label = true).run
        quietStart [.begin, .configure ⟨0, 0, 0, 0, 0⟩ 0, .fill none [65], .setSsid 0,
          .linkUp linkUpEvent, .take, .abortScan, .setConnecting, .test, .store noElements,
          .report, .finish, .put] = some state ∧ Settled state ∧ Reported state :=
  ⟨_, rfl, ⟨rfl, rfl, rfl⟩, (connect_reported_once _).1 ⟨quietStart, [.begin,
    .configure ⟨0, 0, 0, 0, 0⟩ 0, .fill none [65], .setSsid 0, .linkUp linkUpEvent, .take,
    .abortScan, .setConnecting, .test, .store noElements, .report, .finish, .put],
    ⟨rfl, fun _ hev ↦ absurd hev List.not_mem_nil, rfl, rfl, rfl, rfl, rfl, rfl, fun _ ↦ rfl,
      rfl⟩, rfl⟩ ⟨rfl, rfl, rfl⟩⟩

/-- The link comes up and is handled between the acceptance of `WLC_SET_SSID` and `set_bit`. -/
theorem connect_result_lost :
    ∃ state, machine.run quietStart [.begin, .configure ⟨0, 0, 0, 0, 0⟩ 0, .fill none [65],
        .setSsid 0, .linkUp linkUpEvent, .take, .abortScan, .test, .finish, .put,
        .setConnecting] = some state ∧
      Initial quietStart ∧ Settled state ∧ state.thread = .idle ∧ state.results state.join = 0 ∧
      state.priv.connecting = true :=
  ⟨_, rfl, ⟨rfl, fun _ hev ↦ absurd hev List.not_mem_nil, rfl, rfl, rfl, rfl, rfl, rfl,
    fun _ ↦ rfl, rfl⟩, ⟨rfl, rfl, rfl⟩, rfl, rfl, rfl⟩

end BroadcomWl.Cfg80211.Connect
