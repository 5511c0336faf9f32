import BroadcomWl.Cfg80211.EventQueue
import BroadcomWl.Cfg80211.Events

/-!
# Dispatching events of any type

The type of an event comes from the firmware's message. It indexes two tables: `wl_cfg80211_event`
looks up a name for it, and `wl_event_handler`, in another thread, looks up a handler. Only the
lookup of the name tests whether the table is that long.

The number of handlers, `WLC_E_LAST`, is in a header that is not in the repository. Behind the table
lie other members of `struct wl_cfg80211_priv`; a word there that is not zero is called as if it
were a handler.
-/

namespace BroadcomWl.Cfg80211.EventDispatch

open BroadcomWl.Systems BroadcomWl.Cfg80211.EventQueue

/-- `wl_dbg_estr`. -/
def wlDbgEstr : List String :=
  ["SET_SSID", "JOIN", "START", "AUTH", "AUTH_IND",
    "DEAUTH", "DEAUTH_IND", "ASSOC", "ASSOC_IND", "REASSOC",
    "REASSOC_IND", "DISASSOC", "DISASSOC_IND", "QUIET_START", "QUIET_END",
    "BEACON_RX", "LINK", "MIC_ERROR", "NDIS_LINK", "ROAM",
    "TXFAIL", "PMKID_CACHE", "RETROGRADE_TSF", "PRUNE", "AUTOAUTH",
    "EAPOL_MSG", "SCAN_COMPLETE", "ADDTS_IND", "DELTS_IND", "BCNSENT_IND",
    "BCNRX_MSG", "BCNLOST_MSG", "ROAM_PREP", "PFN_NET_FOUND", "PFN_NET_LOST",
    "RESET_COMPLETE", "JOIN_START", "ROAM_START", "ASSOC_START", "IBSS_ASSOC",
    "RADIO", "PSM_WATCHDOG", "PROBREQ_MSG", "SCAN_CONFIRM_IND", "PSK_SUP",
    "COUNTRY_CODE_CHANGED", "EXCEEDED_MEDIUM_TIME", "ICV_ERROR",
    "UNICAST_DECODE_ERROR", "MULTICAST_DECODE_ERROR", "TRACE", "IF",
    "RSSI", "PFN_SCAN_COMPLETE", "ACTION_FRAME", "ACTION_FRAME_COMPLETE"]

def wlDbgEstrMax : ℕ := 32

/-- A row of the table has `WL_DBG_ESTR_MAX` bytes. -/
def sizeofWlDbgEstr : ℕ := wlDbgEstr.length * wlDbgEstrMax

/-- The rows of the table of names that `wl_cfg80211_event` reads. -/
def nameReads (etype : ℕ) : List ℕ :=
  if etype ≤ sizeofWlDbgEstr / wlDbgEstrMax - 1 then [etype] else []

/-- What is called: a registered handler, or a word behind the table. -/
inductive Target where
  | handler (handler : Handler)
  | stray (word : UInt64)
deriving DecidableEq

section Lookup

variable (wlcELast : ℕ) (behind : ℕ → UInt64)

/-- `wl->el.handler[etype]`. -/
def handlerAt (etype : ℕ) : Option Target :=
  if etype < wlcELast then (wlInitEloopHandler etype).map .handler
  else if behind etype = 0 then none
  else some (.stray (behind etype))

/-- The word is tested, and read again for the call. -/
def tableReads (etype : ℕ) : List ℕ :=
  match handlerAt wlcELast behind etype with
  | none => [etype]
  | some _ => [etype, etype]

/-- The call for an event in hand, with the message that was queued. -/
def callOf {Msg : Type*} (e : Event Msg) : Option (Target × Msg) :=
  (handlerAt wlcELast behind e.etype).map (·, e.emsg)

end Lookup

/-- The queue with its threads, the rows read in the two tables, and the calls of handlers with the
messages they were passed. -/
structure State (Producer Msg : Type*) where
  queue : EventQueue.State Producer Msg
  names : List ℕ
  handlers : List ℕ
  calls : List (Target × Msg)

section Source

variable {Producer Msg : Type*} [DecidableEq Producer] (wlcELast : ℕ) (behind : ℕ → UInt64)
  (eventType : Msg → UInt32)

/-- `wl_cfg80211_event` passes `EVENT_TYPE(e)` to `wl_enq_event`, before or after it has looked up a
name. The event thread looks up the handler when it has an event in hand. -/
def step (state : State Producer Msg) :
    EventQueue.Label Producer Msg → Option (State Producer Msg)
  | .alloc p etype emsg success =>
      if etype = (eventType emsg).toNat then
        (EventQueue.step state.queue (.alloc p etype emsg success)).map fun queue ↦
          { state with
            queue := queue
            names := state.names ++ nameReads etype }
      else none
  | .dispatch =>
      match state.queue.consumer with
      | .handling e =>
          (EventQueue.step state.queue .dispatch).map fun queue ↦
            { state with
              queue := queue
              handlers := state.handlers ++ tableReads wlcELast behind e.etype
              calls := state.calls ++ (callOf wlcELast behind e).toList }
      | _ => none
  | label => (EventQueue.step state.queue label).map fun queue ↦ { state with queue := queue }

def initialized : State Producer Msg := ⟨EventQueue.initialized, [], [], []⟩

def machine : Machine (State Producer Msg) (EventQueue.Label Producer Msg) where
  initial state := state = initialized
  step := step wlcELast behind eventType

end Source

/-! ## What a step adds to the history -/

section History

variable {Producer Msg : Type*} [DecidableEq Producer] {state next : EventQueue.State Producer Msg}
  {label : EventQueue.Label Producer Msg}

/-- Only `dispatch` dispatches. -/
theorem dispatched_of_step (hstep : EventQueue.step state label = some next)
    (h : label ≠ .dispatch) : next.dispatched = state.dispatched := by
  cases label with
  | alloc p etype emsg success =>
    cases hpc : state.producer p <;> simp only [EventQueue.step, hpc] at hstep <;> cases hstep
    cases success <;> rfl
  | append p | up p =>
    cases hpc : state.producer p <;> simp only [EventQueue.step, hpc] at hstep <;> cases hstep
    rfl
  | down =>
    cases hpc : state.consumer <;> simp only [EventQueue.step, hpc] at hstep <;> try cases hstep
    cases hsem : state.eventSync <;> simp only [hsem] at hstep <;> cases hstep
    rfl
  | interrupt | shouldStop stop | put =>
    cases hpc : state.consumer <;> simp only [EventQueue.step, hpc] at hstep <;> cases hstep
    rfl
  | deq =>
    cases hpc : state.consumer <;> simp only [EventQueue.step, hpc] at hstep <;> cases hstep
    cases hlist : state.eqList <;> simp only [wlDeqEvent, hlist]
  | dispatch => exact absurd rfl h

/-- Only `alloc` allocates, and the event holds what it was given. -/
theorem allocated_of_step (hstep : EventQueue.step state label = some next) :
    next.allocated = state.allocated ∨
      ∃ p etype emsg, label = .alloc p etype emsg true ∧
        next.allocated = state.allocated ++ [⟨state.allocated.length, etype, emsg⟩] := by
  cases label with
  | alloc p etype emsg success =>
    cases hpc : state.producer p <;> simp only [EventQueue.step, hpc] at hstep <;> cases hstep
    cases success with
    | false => exact .inl rfl
    | true => exact .inr ⟨p, etype, emsg, rfl, rfl⟩
  | append p | up p =>
    cases hpc : state.producer p <;> simp only [EventQueue.step, hpc] at hstep <;> cases hstep
    exact .inl rfl
  | down =>
    cases hpc : state.consumer <;> simp only [EventQueue.step, hpc] at hstep <;> try cases hstep
    cases hsem : state.eventSync <;> simp only [hsem] at hstep <;> cases hstep
    exact .inl rfl
  | interrupt | shouldStop stop | put | dispatch =>
    cases hpc : state.consumer <;> simp only [EventQueue.step, hpc] at hstep <;> cases hstep
    exact .inl rfl
  | deq =>
    cases hpc : state.consumer <;> simp only [EventQueue.step, hpc] at hstep <;> cases hstep
    exact .inl (by cases hlist : state.eqList <;> simp only [wlDeqEvent, hlist])

end History

/-! ## What the logs hold -/

section Logs

variable {Producer Msg : Type*} [DecidableEq Producer] {wlcELast : ℕ} {behind : ℕ → UInt64}
  {eventType : Msg → UInt32}

/-- The event has the type that its message names. -/
def Typed (eventType : Msg → UInt32) (e : Event Msg) : Prop := e.etype = (eventType e.emsg).toNat

/-- The queue is one of its own machine, its events are typed, and the logs are what the dispatched
events have added. -/
structure Logged (wlcELast : ℕ) (behind : ℕ → UInt64) (eventType : Msg → UInt32)
    (state : State Producer Msg) : Prop where
  reachable : (EventQueue.machine Producer Msg).Reachable state.queue
  typed : ∀ e ∈ state.queue.allocated, Typed eventType e
  names : ∀ i ∈ state.names, i < wlDbgEstr.length
  handlers : state.handlers =
    state.queue.dispatched.flatMap fun e ↦ tableReads wlcELast behind e.etype
  calls : state.calls = state.queue.dispatched.filterMap (callOf wlcELast behind)

theorem nameReads_lt (etype : ℕ) : ∀ i ∈ nameReads etype, i < wlDbgEstr.length := by
  intro i hi
  unfold nameReads at hi
  have hlast : sizeofWlDbgEstr / wlDbgEstrMax - 1 = 55 := rfl
  have hlength : wlDbgEstr.length = 56 := rfl
  split at hi
  next hle =>
    rw [List.mem_singleton.mp hi]
    omega
  next => cases hi

theorem initialized_logged :
    Logged wlcELast behind eventType (initialized : State Producer Msg) where
  reachable := .start rfl
  typed := List.forall_mem_nil _
  names := List.forall_mem_nil _
  handlers := rfl
  calls := rfl

/-- A step of the queue that looks nothing up. -/
theorem Logged.queue {state : State Producer Msg} (h : Logged wlcELast behind eventType state)
    {queue : EventQueue.State Producer Msg} {label : EventQueue.Label Producer Msg}
    (hstep : EventQueue.step state.queue label = some queue) (hdispatch : label ≠ .dispatch)
    (halloc : ∀ p etype emsg, label = .alloc p etype emsg true → etype = (eventType emsg).toNat)
    {names : List ℕ} (hnames : ∀ i ∈ names, i < wlDbgEstr.length) :
    Logged wlcELast behind eventType
      { state with
        queue := queue
        names := state.names ++ names } where
  reachable := h.reachable.step hstep
  typed := by
    intro e he
    rcases allocated_of_step hstep with hsame | ⟨p, etype, emsg, hlabel, hadded⟩
    · exact h.typed e (hsame ▸ he)
    · rcases List.mem_append.mp (hadded ▸ he) with hold | hnew
      · exact h.typed e hold
      · rw [List.mem_singleton.mp hnew]
        exact halloc p etype emsg hlabel
  names := List.forall_mem_append.mpr ⟨h.names, hnames⟩
  handlers := by rw [h.handlers, ← dispatched_of_step hstep hdispatch]
  calls := by rw [h.calls, ← dispatched_of_step hstep hdispatch]

theorem Logged.dispatch {state : State Producer Msg} (h : Logged wlcELast behind eventType state)
    {e : Event Msg} (hhandling : state.queue.consumer = .handling e) :
    Logged wlcELast behind eventType
      { state with
        queue :=
          { state.queue with
            dispatched := state.queue.dispatched ++ [e]
            consumer := .putting e }
        handlers := state.handlers ++ tableReads wlcELast behind e.etype
        calls := state.calls ++ (callOf wlcELast behind e).toList } where
  reachable := by
    have hstep : (EventQueue.machine Producer Msg).step state.queue .dispatch = some
        { state.queue with
          dispatched := state.queue.dispatched ++ [e]
          consumer := .putting e } := by
      simp only [EventQueue.machine, EventQueue.step, hhandling]
    exact h.reachable.step hstep
  typed := h.typed
  names := h.names
  handlers := by rw [List.flatMap_append, List.flatMap_singleton, h.handlers]
  calls := by
    have hlast : [e].filterMap (callOf wlcELast behind) = (callOf wlcELast behind e).toList := by
      cases hcall : callOf wlcELast behind e with
      | none => exact List.filterMap_cons_none hcall
      | some call => exact List.filterMap_cons_some hcall
    rw [List.filterMap_append, h.calls, hlast]

/-- The steps that look something up. -/
def looksUp : EventQueue.Label Producer Msg → Bool
  | .alloc .. | .dispatch => true
  | _ => false

theorem step_logged {state next : State Producer Msg} {label : EventQueue.Label Producer Msg}
    (h : Logged wlcELast behind eventType state)
    (hstep : step wlcELast behind eventType state label = some next) :
    Logged wlcELast behind eventType next := by
  have hother : ∀ label : EventQueue.Label Producer Msg, looksUp label = false →
      ((EventQueue.step state.queue label).map fun queue ↦ { state with queue := queue }) =
        some next → Logged wlcELast behind eventType next := by
    intro label hquiet hnext
    have hdispatch : label ≠ .dispatch := by
      rintro rfl
      cases hquiet
    have halloc : ∀ p etype emsg, label = .alloc p etype emsg true →
        etype = (eventType emsg).toNat := by
      rintro p etype emsg rfl
      cases hquiet
    obtain ⟨queue, hqueue, rfl⟩ := Option.map_eq_some_iff.mp hnext
    have hlogged := h.queue hqueue hdispatch halloc (List.forall_mem_nil _)
    rwa [List.append_nil] at hlogged
  cases label with
  | alloc p etype emsg success =>
    obtain ⟨htype, hnext⟩ := Option.ite_none_right_eq_some.mp hstep
    obtain ⟨queue, hqueue, rfl⟩ := Option.map_eq_some_iff.mp hnext
    have hdispatch : EventQueue.Label.alloc p etype emsg success ≠ .dispatch := by
      intro heq
      cases heq
    refine h.queue hqueue hdispatch (fun p' etype' emsg' hlabel ↦ ?_) (nameReads_lt etype)
    cases hlabel
    exact htype
  | dispatch =>
    unfold step at hstep
    cases hpc : state.queue.consumer <;> rw [hpc] at hstep <;> try cases hstep
    obtain ⟨queue, hqueue, rfl⟩ := Option.map_eq_some_iff.mp hstep
    simp only [EventQueue.step, hpc] at hqueue
    cases hqueue
    exact h.dispatch hpc
  | append p => exact hother (.append p) rfl hstep
  | up p => exact hother (.up p) rfl hstep
  | down => exact hother .down rfl hstep
  | interrupt => exact hother .interrupt rfl hstep
  | shouldStop stop => exact hother (.shouldStop stop) rfl hstep
  | deq => exact hother .deq rfl hstep
  | put => exact hother .put rfl hstep

theorem reachable_logged {state : State Producer Msg}
    (h : (machine wlcELast behind eventType).Reachable state) :
    Logged wlcELast behind eventType state := by
  have hinitial : ∀ state : State Producer Msg, (machine wlcELast behind eventType).initial state →
      Logged wlcELast behind eventType state := by
    rintro state rfl
    exact initialized_logged
  exact h.invariant hinitial fun _ _ _ hlogged hstep ↦ step_logged hlogged hstep

end Logs

/-! ## Total dispatch -/

section Total

variable {Producer Msg : Type*} [DecidableEq Producer] (wlcELast : ℕ) (behind : ℕ → UInt64)
  (eventType : Msg → UInt32)

/-- The call of the handler that is registered for the type of the message. -/
def registeredCall (e : Event Msg) : Option (Target × Msg) :=
  (wlInitEloopHandler (eventType e.emsg).toNat).map fun handler ↦ (.handler handler, e.emsg)

/-- Both tables are read inside. The events are dispatched in the order of the queue, each to the
handler of its type with the message that was queued, and freed once. The thread goes on to the next
event. -/
structure Total (state : State Producer Msg) : Prop where
  names : ∀ i ∈ state.names, i < wlDbgEstr.length
  handlers : ∀ i ∈ state.handlers, i < wlcELast
  calls : state.calls = state.queue.dispatched.filterMap (registeredCall eventType)
  order : state.queue.dispatched <+: state.queue.enqueued
  freed : state.queue.dispatched = state.queue.freed ++ state.queue.consumer.handled
  once : state.queue.dispatched.Nodup
  finishes : ∀ e, state.queue.consumer = .handling e → ∃ next,
    (machine wlcELast behind eventType).run state [.dispatch, .put] = some next ∧
      next.queue.consumer = .waiting ∧ next.queue.freed = state.queue.freed ++ [e]
  continues : state.queue.consumer = .waiting → 0 < state.queue.eventSync → ∃ e next,
    state.queue.eqList.head? = some e ∧
      (machine wlcELast behind eventType).run state [.down, .shouldStop false, .deq] = some next ∧
        next.queue.consumer = .handling e

variable {wlcELast behind eventType} {state : State Producer Msg}

theorem finishes {e : Event Msg} (h : state.queue.consumer = .handling e) :
    ∃ next, (machine wlcELast behind eventType).run state [.dispatch, .put] = some next ∧
      next.queue.consumer = .waiting ∧ next.queue.freed = state.queue.freed ++ [e] := by
  let putting : EventQueue.State Producer Msg :=
    { state.queue with
      dispatched := state.queue.dispatched ++ [e]
      consumer := .putting e }
  refine ⟨{ state with
    queue := wlPutEvent e putting
    handlers := state.handlers ++ tableReads wlcELast behind e.etype
    calls := state.calls ++ (callOf wlcELast behind e).toList }, ?_, rfl, rfl⟩
  simp only [Machine.run, machine, step, EventQueue.step, h]
  rfl

/-- A semaphore that is not zero stands for an event on the list. -/
theorem continues [Fintype Producer] {channel : Channel (Event Msg)}
    (h : Refines state.queue channel) (hwaiting : state.queue.consumer = .waiting)
    (hsem : 0 < state.queue.eventSync) :
    ∃ e next, state.queue.eqList.head? = some e ∧
      (machine wlcELast behind eventType).run state [.down, .shouldStop false, .deq] = some next ∧
        next.queue.consumer = .handling e := by
  obtain ⟨count, hcount⟩ := Nat.exists_eq_succ_of_ne_zero (Nat.ne_of_gt hsem)
  have hlength := h.count
  cases hlist : state.queue.eqList with
  | nil =>
    rw [hlist, List.length_nil] at hlength
    omega
  | cons e rest =>
    refine ⟨e, { state with
      queue :=
        { state.queue with
          eqList := rest
          eventSync := count
          consumer := .handling e } }, rfl, ?_, rfl⟩
    simp only [Machine.run, machine, step, EventQueue.step, hwaiting, hcount, wlDeqEvent, hlist]
    rfl

/-- A type below the end of the table is looked up inside it and finds what is registered. -/
theorem callOf_of_lt {e : Event Msg} (htyped : Typed eventType e) (h : e.etype < wlcELast) :
    callOf wlcELast behind e = registeredCall eventType e := by
  unfold callOf handlerAt registeredCall
  rw [if_pos h, Option.map_map, ← htyped]
  rfl

theorem mem_tableReads {etype i : ℕ} : i ∈ tableReads wlcELast behind etype ↔ i = etype := by
  unfold tableReads
  split <;> simp

/-- In every interleaving, dispatch is total if and only if the types of all events dispatched so
far are below `WLC_E_LAST`. -/
theorem event_dispatch_total_iff [Fintype Producer]
    (h : (machine wlcELast behind eventType).Reachable state) :
    Total wlcELast behind eventType state ↔
      ∀ e ∈ state.queue.dispatched, (eventType e.emsg).toNat < wlcELast := by
  have hlogged := reachable_logged h
  obtain ⟨channel, -, hrefines⟩ := EventQueue.simulation.reachable hlogged.reachable
  have horder := hrefines.dispatched_prefix
  have htyped : ∀ e ∈ state.queue.dispatched, Typed eventType e := fun e he ↦
    hlogged.typed e (hrefines.owned.subset e (horder.subset he))
  constructor
  · intro htotal e he
    rw [← htyped e he]
    apply htotal.handlers
    rw [hlogged.handlers]
    exact List.mem_flatMap.mpr ⟨e, he, mem_tableReads.mpr rfl⟩
  · intro hlt
    have hetype : ∀ e ∈ state.queue.dispatched, e.etype < wlcELast := by
      intro e he
      rw [htyped e he]
      exact hlt e he
    exact
      { names := hlogged.names
        handlers := by
          rw [hlogged.handlers]
          intro i hi
          obtain ⟨e, he, hread⟩ := List.mem_flatMap.mp hi
          rw [mem_tableReads.mp hread]
          exact hetype e he
        calls := by
          rw [hlogged.calls]
          exact List.filterMap_congr fun e he ↦ callOf_of_lt (htyped e he) (hetype e he)
        order := horder
        freed := hrefines.dispatched
        once := hrefines.owned.nodup.sublist horder.sublist
        finishes := fun e hhandling ↦ finishes hhandling
        continues := continues hrefines }

/-- One message is queued, dispatched and freed; there are 56 handlers, with zeroes behind them. -/
def oneEvent (emsg : UInt32) : List (EventQueue.Label Unit UInt32) :=
  [.alloc () emsg.toNat emsg true, .append (), .up (), .down, .shouldStop false, .deq, .dispatch,
    .put]

def afterOneEvent (emsg : UInt32) : State Unit UInt32 where
  queue :=
    { EventQueue.initialized with
      allocated := [⟨0, emsg.toNat, emsg⟩]
      enqueued := [⟨0, emsg.toNat, emsg⟩]
      dispatched := [⟨0, emsg.toNat, emsg⟩]
      freed := [⟨0, emsg.toNat, emsg⟩] }
  names := nameReads emsg.toNat
  handlers := tableReads 56 (fun _ ↦ 0) emsg.toNat
  calls := (callOf 56 (fun _ ↦ 0) (⟨0, emsg.toNat, emsg⟩ : Event UInt32)).toList

theorem reachable_afterOneEvent (emsg : UInt32) :
    (machine 56 (fun _ ↦ 0) id).Reachable (afterOneEvent emsg) := by
  refine ⟨initialized, oneEvent emsg, rfl, ?_⟩
  simp only [oneEvent, Machine.run, machine, step, id_eq, if_true]
  rfl

theorem event_dispatch_total_link : Total 56 (fun _ ↦ 0) id (afterOneEvent 16) :=
  (event_dispatch_total_iff (reachable_afterOneEvent 16)).mpr (by decide)

theorem largestEventType_not_total :
    (machine 56 (fun _ ↦ 0) id).Reachable (afterOneEvent 0xFFFFFFFF) ∧
      (afterOneEvent 0xFFFFFFFF).handlers = [0xFFFFFFFF] ∧
        ¬ Total 56 (fun _ ↦ 0) id (afterOneEvent 0xFFFFFFFF) := by
  refine ⟨reachable_afterOneEvent 0xFFFFFFFF, by decide, fun htotal ↦ ?_⟩
  have hread : 0xFFFFFFFF ∈ (afterOneEvent 0xFFFFFFFF).handlers := by decide
  exact absurd (htotal.handlers 0xFFFFFFFF hread) (by decide)

end Total

end BroadcomWl.Cfg80211.EventDispatch
