import BroadcomWl.Cfg80211.Coherence
import BroadcomWl.Cfg80211.EventDispatch

/-!
# Sessions through the event queue

The firmware's messages do not reach the handlers at once: `wl_cfg80211_event` queues them in the
contexts they arrive in, and `wl_event_handler` handles them later in its own thread, while
cfg80211 makes its calls. The machine of this module holds both, the queue with its threads and
the session whose handlers the event thread runs.

Its abstraction is the session that knows no queue and no threads: it takes a call, or a message,
at a time. As long as no call runs at the same time as a handler or another call, every
interleaving leaves the session where one such sequence leaves it, and the messages of the sequence
are the queued ones in the order in which they were appended.

The driver has no lock that would keep calls and handlers apart. What they leave when they overlap
is any session here, and the overlap is noted; the modules on connections and scans follow some of
them step by step. What a word behind the table of handlers does when it is called is not modelled
either; such a call is only noted.
-/

namespace BroadcomWl.Cfg80211.Pipeline

open BroadcomWl.Systems BroadcomWl.Cfg80211.EventQueue BroadcomWl.Cfg80211.EventDispatch

/-- The queue with its threads, the session, the calls that cfg80211 has made, whether a word behind
the table of handlers was called, and whether a call has overlapped a handler or another call. -/
structure State (Producer Device : Type*) where
  queue : EventQueue.State Producer WlEventMsg
  session : Session Device
  calls : List Call
  stray : Bool
  overlapped : Bool

/-- `handle` is the step of the event thread in which it looks up the handler and runs it. After
calls and handlers that ran at the same time, `overlap` is the session that they have left. -/
inductive Label (Producer Device : Type*) where
  | queue (label : EventQueue.Label Producer WlEventMsg)
  | handle (answers : Answers)
  | call (call : Call)
  | overlap (session : Session Device)

section Source

variable {Producer Device : Type*} [DecidableEq Producer] (firmware : Firmware Device)
  (wlcELast : ℕ) (behind : ℕ → UInt64)

/-- `wl_cfg80211_event` queues a message under its own type. An event is dispatched by
`handle`. -/
def permitted : EventQueue.Label Producer WlEventMsg → Bool
  | .alloc _ etype emsg _ => etype == emsg.eventType
  | .dispatch => false
  | _ => true

/-- `wl->el.handler[e->etype] (wl, wl_to_ndev(wl), &e->emsg, e->edata)`. -/
def runTarget (emsg : WlEventMsg) (answers : Answers) (state : State Producer Device) :
    Option Target → State Producer Device
  | some (.handler handler) =>
      let world := state.session.world
      { state with session := { state.session with world := { world with
          priv := (handler.run emsg answers world.priv).2 } } }
  | some (.stray _) => { state with stray := true }
  | none => state

def step (state : State Producer Device) :
    Label Producer Device → Option (State Producer Device)
  | .queue label =>
      if permitted label then
        (EventQueue.step state.queue label).map fun queue ↦ { state with queue := queue }
      else none
  | .handle answers =>
      match state.queue.consumer with
      | .handling e =>
          (EventQueue.step state.queue .dispatch).map fun queue ↦
            { runTarget e.emsg answers state (handlerAt wlcELast behind e.etype) with
              queue := queue }
      | _ => none
  | .call call =>
      some { state with
        session := state.session.step firmware (.call call)
        calls := state.calls ++ [call] }
  | .overlap session => some { state with session := session, overlapped := true }

/-- The event thread has just been started by the attach, and nothing was called. -/
structure Initial (state : State Producer Device) : Prop where
  queue : state.queue = EventQueue.initialized
  session : (sessionMachine firmware).initial state.session
  calls : state.calls = []
  stray : state.stray = false
  overlapped : state.overlapped = false

def machine : Machine (State Producer Device) (Label Producer Device) where
  initial := Initial firmware
  step := step firmware wlcELast behind

end Source

/-! ## The session without a queue -/

def messageOf : Action → Option WlEventMsg
  | .event handled => some handled.e
  | .call _ => none

def callOf : Action → Option Call
  | .event _ => none
  | .call call => some call

/-- A sequence of actions that has brought the session where it is: its messages are the
dispatched ones in the order of the dispatches, and its calls are those that were made. -/
structure Explains {Producer Device : Type*} (firmware : Firmware Device)
    (state : State Producer Device) (start : Session Device) (actions : List Action) : Prop where
  initial : (sessionMachine firmware).initial start
  run : (sessionMachine firmware).run start actions = some state.session
  messages : actions.filterMap messageOf = state.queue.dispatched.map Event.emsg
  calls : actions.filterMap callOf = state.calls

section Refinement

variable {Producer Device : Type*} {firmware : Firmware Device}
  {state : State Producer Device} {start : Session Device} {actions : List Action}

/-- One action more. -/
theorem Explains.action (h : Explains firmware state start actions) {action : Action}
    {next : State Producer Device} (hsession : next.session = state.session.step firmware action)
    (hmessages : next.queue.dispatched.map Event.emsg =
      state.queue.dispatched.map Event.emsg ++ (messageOf action).toList)
    (hcalls : next.calls = state.calls ++ (callOf action).toList) :
    Explains firmware next start (actions ++ [action]) where
  initial := h.initial
  run := by
    rw [Machine.run_append, h.run, hsession]
    rfl
  messages := by
    rw [List.filterMap_append, h.messages, hmessages]
    cases action <;> rfl
  calls := by
    rw [List.filterMap_append, h.calls, hcalls]
    cases action <;> rfl

/-- A step of the queue that dispatches nothing. -/
theorem Explains.queue (h : Explains firmware state start actions)
    {queue : EventQueue.State Producer WlEventMsg}
    (hsame : queue.dispatched = state.queue.dispatched) :
    Explains firmware { state with queue := queue } start actions :=
  ⟨h.initial, h.run, by rw [h.messages, hsame], h.calls⟩

variable {wlcELast : ℕ} {behind : ℕ → UInt64}

/-- A type below the end of the table has its own handler run, as in a session without a queue. -/
theorem runTarget_of_lt {e : Event WlEventMsg} (htyped : e.etype = e.emsg.eventType)
    (hlt : e.etype < wlcELast) (answers : Answers) :
    runTarget e.emsg answers state (handlerAt wlcELast behind e.etype) =
      { state with session := state.session.step firmware (.event ⟨e.emsg, answers⟩) } := by
  rw [handlerAt, if_pos hlt, htyped]
  simp only [Session.step, handleEvent]
  cases wlInitEloopHandler e.emsg.eventType <;> rfl

variable (firmware wlcELast) in
/-- The queue is one of its own machine, an event has the type of its message, and as long as the
table of handlers was not left and nothing has overlapped a sequence of actions explains the
session. -/
structure Sequential [DecidableEq Producer] (state : State Producer Device) : Prop where
  reachable : (EventQueue.machine Producer WlEventMsg).Reachable state.queue
  typed : ∀ e ∈ state.queue.allocated, e.etype = e.emsg.eventType
  explained : (∀ e ∈ state.queue.dispatched, e.etype < wlcELast) → state.overlapped = false →
    state.stray = false ∧ ∃ start actions, Explains firmware state start actions

variable [DecidableEq Producer]

theorem Sequential.queue (h : Sequential firmware wlcELast state)
    {queue : EventQueue.State Producer WlEventMsg}
    {label : EventQueue.Label Producer WlEventMsg} (hpermitted : permitted label = true)
    (hstep : EventQueue.step state.queue label = some queue) :
    Sequential firmware wlcELast { state with queue := queue } := by
  have hdispatch : label ≠ .dispatch := by
    rintro rfl
    cases hpermitted
  have hsame := dispatched_of_step hstep hdispatch
  refine ⟨h.reachable.step hstep, fun e he ↦ ?_, fun hlt hserial ↦ ?_⟩
  · rcases allocated_of_step hstep with hold | ⟨p, etype, emsg, rfl, hnew⟩
    · exact h.typed e (hold ▸ he)
    · rcases List.mem_append.mp (hnew ▸ he) with he | he
      · exact h.typed e he
      · rw [List.mem_singleton.mp he]
        exact beq_iff_eq.mp hpermitted
  · obtain ⟨hstray, start, actions, hexplains⟩ := h.explained (hsame ▸ hlt) hserial
    exact ⟨hstray, start, actions, hexplains.queue hsame⟩

theorem Sequential.call (h : Sequential firmware wlcELast state) (call : Call) :
    Sequential firmware wlcELast { state with
      session := state.session.step firmware (.call call)
      calls := state.calls ++ [call] } := by
  refine ⟨h.reachable, h.typed, fun hlt hserial ↦ ?_⟩
  obtain ⟨hstray, start, actions, hexplains⟩ := h.explained hlt hserial
  exact ⟨hstray, start, actions ++ [.call call],
    hexplains.action rfl (List.append_nil _).symm rfl⟩

/-- The event in hand was taken off the queue, so it has the type of its message. -/
theorem Sequential.typed_of_handling [Fintype Producer] (h : Sequential firmware wlcELast state)
    {e : Event WlEventMsg} (hhandling : state.queue.consumer = .handling e) :
    e.etype = e.emsg.eventType := by
  obtain ⟨channel, -, hrefines⟩ := EventQueue.simulation.reachable h.reachable
  have hmem : e ∈ state.queue.enqueued := by
    rw [hrefines.enqueued_eq, hhandling]
    simp [ConsumerPc.inHand]
  exact h.typed e (hrefines.owned.subset e hmem)

theorem Sequential.handle [Fintype Producer] (h : Sequential firmware wlcELast state)
    {e : Event WlEventMsg} (hhandling : state.queue.consumer = .handling e) (answers : Answers) :
    Sequential firmware wlcELast
      { runTarget e.emsg answers state (handlerAt wlcELast behind e.etype) with
        queue :=
          { state.queue with
            dispatched := state.queue.dispatched ++ [e]
            consumer := .putting e } } := by
  have hstep : (EventQueue.machine Producer WlEventMsg).step state.queue .dispatch = some
      { state.queue with
        dispatched := state.queue.dispatched ++ [e]
        consumer := .putting e } := by
    simp only [EventQueue.machine, EventQueue.step, hhandling]
  have hrun (hlt : e.etype < wlcELast) := @runTarget_of_lt _ _ firmware state _ behind _
    (h.typed_of_handling hhandling) hlt answers
  refine ⟨h.reachable.step hstep, h.typed, fun hlt hserial ↦ ?_⟩
  obtain ⟨hbefore, hlast⟩ := List.forall_mem_append.mp hlt
  rw [hrun (hlast e (List.mem_singleton_self e))] at hserial ⊢
  obtain ⟨hstray, start, actions, hexplains⟩ := h.explained hbefore hserial
  refine ⟨hstray, start, actions ++ [.event ⟨e.emsg, answers⟩], hexplains.action rfl ?_ ?_⟩
  · exact List.map_append
  · exact (List.append_nil _).symm

end Refinement

/-! ## Every interleaving -/

section Interleavings

variable {Producer Device : Type*}

/-- The event thread waits, the semaphore is zero, and no producer is between append and `up`. -/
structure Settled (queue : EventQueue.State Producer WlEventMsg) : Prop where
  waiting : queue.consumer = .waiting
  eventSync : queue.eventSync = 0
  announced : ∀ p, (queue.producer p).hasAppended = false

variable [DecidableEq Producer] [Fintype Producer] {firmware : Firmware Device} {wlcELast : ℕ}
  {behind : ℕ → UInt64} {state : State Producer Device}

end Interleavings

end BroadcomWl.Cfg80211.Pipeline
