import BroadcomWl.Systems.Channel
import BroadcomWl.Memory.LinkedList
import Mathlib.Data.Int.Order.Basic
import Mathlib.Tactic.Common

/-!
# The transmit queue in passive dispatch mode

In passive mode `wl_start` appends the packet to a list threaded through
`skb->prev` and, when no worker is dispatched, schedules `txq_task`. The work item
runs `wl_start_txqwork`, which takes the packets off the list one by one and drops
`txq_lock` around every `wl_start_int`. The machine below has one label for every
critical section and for every call made outside the lock; any number of callers of
`wl_start` may interleave with the worker.

The queue is simulated by a first-in first-out channel: acceptance sends, the call
of `wl_start_int` delivers. The simulation relation carries the joint invariant over
the links, the tail pointer, the counter, the dispatched flag and the worker.
-/

namespace BroadcomWl.Linux.TxQueue

open BroadcomWl.Systems BroadcomWl.Memory

/-- Where the work item is: not running, about to take `txq_lock`, or outside the lock with a
packet it has taken off the list. -/
inductive Worker (Skb : Type*) where
  | idle
  | loop
  | sending (skb : Skb)

/-- The fields of `wl_info` the queue uses, the state of the work item, and the history.
`oops` records a null dereference; `otherCallbacks` is what the rest of the driver has added
to `wl->callbacks`. -/
structure State (Skb : Type*) where
  prev : Skb → Option Skb
  txqHead : Option Skb
  txqTail : Option Skb
  txqCnt : ℤ
  txqDispatched : Bool
  callbacks : ℤ
  pending : Bool
  worker : Worker Skb
  oops : Bool
  accepted : List Skb
  passed : List Skb
  dropped : List Skb
  otherCallbacks : ℤ

variable {Skb : Type*}

/-- The packet the worker has taken off the list and not yet passed on. -/
def Worker.inHand : Worker Skb → List Skb
  | .sending skb => [skb]
  | _ => []

def Worker.running : Worker Skb → Bool
  | .idle => false
  | _ => true

/-- The packets that belong to the driver: accepted and not yet passed to `wl_start_int`. -/
def State.outstanding (state : State Skb) : List Skb :=
  state.accepted.drop state.passed.length

section Source

variable [DecidableEq Skb]

/-- The list append of `wl_start`. -/
def linkTail (skb : Skb) (state : State Skb) : State Skb :=
  match state.txqHead, state.txqTail with
  | none, _ => { state with txqHead := some skb, txqTail := some skb, txqCnt := state.txqCnt + 1 }
  | some _, some tail =>
      { state with
        prev := Function.update state.prev tail (some skb)
        txqTail := some skb
        txqCnt := state.txqCnt + 1 }
  | some _, none => { state with oops := true }

/-- `schedule_work` fails only when the work is already pending; the error is then only
logged. -/
def scheduleTxqTask (state : State Skb) : State Skb :=
  if state.pending then state
  else { state with pending := true, callbacks := state.callbacks + 1, txqDispatched := true }

/-- `wl_start`, the whole body under `txq_lock`. -/
def wlStart (wlTxqThresh : ℤ) (skb : Skb) (state : State Skb) : State Skb :=
  let state := { state with prev := Function.update state.prev skb none }
  if 0 < wlTxqThresh ∧ wlTxqThresh ≤ state.txqCnt then
    { state with dropped := state.dropped ++ [skb] }
  else
    let state := linkTail skb { state with accepted := state.accepted ++ [skb] }
    if state.txqDispatched then state else scheduleTxqTask state

/-- One critical section of `wl_start_txqwork`: take the first packet, or finish. -/
def takeOrFinish (state : State Skb) : State Skb :=
  match state.txqHead with
  | some skb =>
      { state with
        txqHead := state.prev skb
        prev := Function.update state.prev skb none
        txqTail := if state.prev skb = none then none else state.txqTail
        txqCnt := state.txqCnt - 1
        worker := .sending skb }
  | none =>
      { state with
        txqDispatched := false
        callbacks := state.callbacks - 1
        worker := .idle }

/-- `start` is one call of `wl_start`; `begin`, `take` and `send` are the worker's steps;
`other` is any change the rest of the driver makes to `wl->callbacks`. -/
inductive Label (Skb : Type*) where
  | start (skb : Skb)
  | begin
  | take
  | send
  | other (change : ℤ)

/-- The network stack never hands over a packet the driver still owns, and the work queue
never runs one work item twice at a time. -/
def step (wlTxqThresh : ℤ) (state : State Skb) : Label Skb → Option (State Skb)
  | .start skb =>
      if skb ∈ state.outstanding then none else some (wlStart wlTxqThresh skb state)
  | .begin =>
      match state.worker, state.pending with
      | .idle, true => some { state with pending := false, worker := .loop }
      | _, _ => none
  | .take =>
      match state.worker with
      | .loop => some (takeOrFinish state)
      | _ => none
  | .send =>
      match state.worker with
      | .sending skb => some { state with passed := state.passed ++ [skb], worker := .loop }
      | _ => none
  | .other change =>
      some { state with
        callbacks := state.callbacks + change
        otherCallbacks := state.otherCallbacks + change }

/-- The queue as `wl_attach` leaves it. -/
def attached (prev : Skb → Option Skb) (callbacks : ℤ) : State Skb where
  prev := prev
  txqHead := none
  txqTail := none
  txqCnt := 0
  txqDispatched := false
  callbacks := callbacks
  pending := false
  worker := .idle
  oops := false
  accepted := []
  passed := []
  dropped := []
  otherCallbacks := callbacks

def machine (wlTxqThresh : ℤ) : Machine (State Skb) (Label Skb) where
  initial state := ∃ prev callbacks, state = attached prev callbacks
  step := step wlTxqThresh

end Source

/-! ## What one step of the worker does -/

section StepCases

variable [DecidableEq Skb] {wlTxqThresh : ℤ} {state next : State Skb}

theorem step_begin (h : (machine wlTxqThresh).step state .begin = some next) :
    state.worker = .idle ∧ state.pending = true ∧
      next = { state with pending := false, worker := .loop } := by
  simp only [machine, step] at h
  split at h
  · exact ⟨‹_›, ‹_›, (Option.some.inj h).symm⟩
  · cases h

theorem step_take (h : (machine wlTxqThresh).step state .take = some next) :
    state.worker = .loop ∧ next = takeOrFinish state := by
  simp only [machine, step] at h
  split at h
  · exact ⟨‹_›, (Option.some.inj h).symm⟩
  · cases h

theorem step_send (h : (machine wlTxqThresh).step state .send = some next) :
    ∃ skb, state.worker = .sending skb ∧
      next = { state with passed := state.passed ++ [skb], worker := .loop } := by
  simp only [machine, step] at h
  split at h
  · exact ⟨_, ‹_›, (Option.some.inj h).symm⟩
  · cases h

end StepCases

/-! ## The simulation by a channel -/

/-- The links, the tail pointer and the counter describe the list `waiting`, and the channel
holds the packet in the worker's hand followed by that list. -/
structure ListInv (state : State Skb) (channel : Channel Skb) (waiting : List Skb) : Prop where
  accepted : state.accepted = channel.sent
  passed : state.passed = channel.delivered
  queue : channel.queue = state.worker.inHand ++ waiting
  linked : Linked state.prev state.txqHead waiting
  tail : state.txqTail = waiting.getLast?
  count : state.txqCnt = waiting.length
  nodup : channel.queue.Nodup
  oops : state.oops = false

/-- A dispatched worker is either scheduled or running, never both, and accounts for one
callback. -/
structure WorkInv (state : State Skb) : Prop where
  dispatched : state.txqDispatched = (state.pending || state.worker.running)
  exclusive : state.pending = true → state.worker.running = false
  callbacks : state.callbacks = state.otherCallbacks + if state.txqDispatched then 1 else 0

/-- The simulation relation; the last clause excludes a lost wakeup. -/
structure Refines (state : State Skb) (channel : Channel Skb) (waiting : List Skb) : Prop where
  list : ListInv state channel waiting
  work : WorkInv state
  wakeup : waiting ≠ [] → state.txqDispatched = true

theorem attached_refines (prev : Skb → Option Skb) (callbacks : ℤ) :
    Refines (attached prev callbacks) ⟨[], []⟩ [] where
  list := ⟨rfl, rfl, rfl, rfl, rfl, rfl, List.nodup_nil, rfl⟩
  work := ⟨rfl, by simp [attached], by simp [attached]⟩
  wakeup h := absurd rfl h

theorem ListInv.outstanding {state : State Skb} {channel : Channel Skb} {waiting : List Skb}
    (h : ListInv state channel waiting) : state.outstanding = channel.queue := by
  rw [State.outstanding, h.accepted, h.passed, Channel.sent, List.drop_left]

theorem ListInv.notMem_waiting {state : State Skb} {channel : Channel Skb} {waiting : List Skb}
    {skb : Skb} (h : ListInv state channel waiting) (hskb : skb ∉ state.outstanding) :
    skb ∉ waiting := by
  rw [h.outstanding, h.queue, List.mem_append, not_or] at hskb
  exact hskb.2

/-- The links of the list exclude a null head in front of packets and a packet in front of
none. -/
theorem ListInv.head_eq_none {state : State Skb} {channel : Channel Skb} {waiting : List Skb}
    (h : ListInv state channel waiting) : state.txqHead = none ↔ waiting = [] := by
  cases waiting with
  | nil => simpa using segment_nil.mp h.linked
  | cons skb rest => simp [(segment_cons.mp h.linked).1]

/-- A worker that is not dispatched can be scheduled, since its work is not pending. -/
theorem scheduleTxqTask_refines {state : State Skb} {channel : Channel Skb} {waiting : List Skb}
    (hlist : ListInv state channel waiting) (hwork : WorkInv state)
    (hidle : state.txqDispatched = false) :
    Refines (scheduleTxqTask state) channel waiting := by
  have hdispatched := hwork.dispatched
  rw [hidle] at hdispatched
  have hpending : state.pending = false := by
    cases hp : state.pending
    · rfl
    · simp [hp] at hdispatched
  have hrunning : state.worker.running = false := by simpa [hpending] using hdispatched.symm
  have hcallbacks := hwork.callbacks
  simp only [scheduleTxqTask, hpending, Bool.false_eq_true, if_false]
  refine ⟨⟨hlist.accepted, hlist.passed, hlist.queue, hlist.linked, hlist.tail, hlist.count,
    hlist.nodup, hlist.oops⟩, ⟨by simp, fun _ ↦ hrunning, ?_⟩, fun _ ↦ rfl⟩
  simp [hcallbacks, hidle]

/-- The packet in hand is the front of the channel. -/
theorem Refines.deliver {state : State Skb} {channel : Channel Skb} {waiting : List Skb} {skb : Skb}
    (h : Refines state channel waiting) (hsending : state.worker = .sending skb) :
    channel.deliver = some ⟨channel.delivered ++ [skb], waiting⟩ := by
  have hqueue : channel.queue = skb :: waiting := by
    simpa [hsending, Worker.inHand] using h.list.queue
  rw [Channel.deliver, hqueue]

/-- The call of `wl_start_int` is the delivery of the packet in hand. -/
theorem send_refines {state : State Skb} {channel : Channel Skb} {waiting : List Skb} {skb : Skb}
    (h : Refines state channel waiting) (hsending : state.worker = .sending skb) :
    Refines { state with passed := state.passed ++ [skb], worker := .loop }
      ⟨channel.delivered ++ [skb], waiting⟩ waiting := by
  have haccepted := h.list.accepted.trans (Channel.sent_deliver (h.deliver hsending)).symm
  have hnodup := h.list.nodup
  rw [h.list.queue, hsending] at hnodup
  have hdispatched := h.work.dispatched
  refine ⟨⟨haccepted, ?_, rfl, h.list.linked, h.list.tail, h.list.count,
    (List.nodup_cons.mp hnodup).2, h.list.oops⟩, ⟨?_, ?_, h.work.callbacks⟩, h.wakeup⟩
  · rw [h.list.passed]
  · simpa [hsending, Worker.running] using hdispatched
  · simpa [hsending, Worker.running] using h.work.exclusive

theorem begin_refines {state : State Skb} {channel : Channel Skb} {waiting : List Skb}
    (h : Refines state channel waiting) (hidle : state.worker = .idle)
    (hpending : state.pending = true) :
    Refines { state with pending := false, worker := .loop } channel waiting := by
  have hqueue : channel.queue = waiting := by simpa [hidle, Worker.inHand] using h.list.queue
  have hdispatched := h.work.dispatched
  rw [hpending, Bool.true_or] at hdispatched
  exact ⟨⟨h.list.accepted, h.list.passed, hqueue, h.list.linked, h.list.tail, h.list.count,
    h.list.nodup, h.list.oops⟩, ⟨hdispatched, by simp, h.work.callbacks⟩, h.wakeup⟩

theorem other_refines {state : State Skb} {channel : Channel Skb} {waiting : List Skb}
    (h : Refines state channel waiting) (change : ℤ) :
    Refines { state with
      callbacks := state.callbacks + change
      otherCallbacks := state.otherCallbacks + change } channel waiting := by
  have hcallbacks := h.work.callbacks
  refine ⟨⟨h.list.accepted, h.list.passed, h.list.queue, h.list.linked, h.list.tail, h.list.count,
    h.list.nodup, h.list.oops⟩, ⟨h.work.dispatched, h.work.exclusive, ?_⟩, h.wakeup⟩
  change state.callbacks + change = _
  rw [hcallbacks]
  exact Int.add_right_comm _ _ _

/-- The queue invariant in terms of the driver's own fields. -/
structure Sound (state : State Skb) (waiting : List Skb) : Prop where
  linked : Linked state.prev state.txqHead waiting
  accepted : state.accepted = state.passed ++ state.worker.inHand ++ waiting
  count : state.txqCnt = waiting.length
  tail : state.txqTail = waiting.getLast?
  tail_eq_none : state.txqTail = none ↔ state.txqHead = none
  wakeup : state.txqHead ≠ none →
    state.txqDispatched = true ∧ (state.pending = true ∨ state.worker.running = true)
  callbacks : state.callbacks = state.otherCallbacks + if state.txqDispatched then 1 else 0
  oops : state.oops = false

theorem Refines.sound {state : State Skb} {channel : Channel Skb} {waiting : List Skb}
    (h : Refines state channel waiting) : Sound state waiting where
  linked := h.list.linked
  accepted := by
    rw [h.list.accepted, h.list.passed, Channel.sent, h.list.queue, List.append_assoc]
  count := h.list.count
  tail := h.list.tail
  tail_eq_none := by rw [h.list.head_eq_none, h.list.tail, List.getLast?_eq_none_iff]
  wakeup hhead := by
    have hdispatched := h.wakeup fun hnil ↦ hhead (h.list.head_eq_none.mpr hnil)
    exact ⟨hdispatched, by simpa [hdispatched] using h.work.dispatched.symm⟩
  callbacks := h.work.callbacks
  oops := h.list.oops

section Steps

variable [DecidableEq Skb]

/-- Clearing the link of a packet the driver does not own changes nothing. -/
theorem ListInv.clear {state : State Skb} {channel : Channel Skb} {waiting : List Skb} {skb : Skb}
    (h : ListInv state channel waiting) (hskb : skb ∉ state.outstanding) :
    ListInv { state with prev := Function.update state.prev skb none } channel waiting :=
  { h with linked := (segment_update_of_notMem none (h.notMem_waiting hskb)).mpr h.linked }

/-- Linking a packet behind the tail is a send on the channel. -/
theorem ListInv.linkTail {state : State Skb} {channel : Channel Skb} {waiting : List Skb}
    {skb : Skb} (h : ListInv state channel waiting) (hskb : skb ∉ state.outstanding)
    (hlink : state.prev skb = none) :
    ListInv (linkTail skb { state with accepted := state.accepted ++ [skb] })
      (channel.send skb) (waiting ++ [skb]) := by
  have hqueue : (channel.send skb).queue = state.worker.inHand ++ (waiting ++ [skb]) := by
    rw [Channel.send, h.queue, List.append_assoc]
  have hnodup : (channel.send skb).queue.Nodup :=
    Channel.queue_send_nodup h.nodup (by rwa [← h.outstanding])
  have haccepted : state.accepted ++ [skb] = (channel.send skb).sent := by
    rw [Channel.sent_send, h.accepted]
  rcases List.eq_nil_or_concat' waiting with hnil | ⟨front, last, hconcat⟩
  · subst hnil
    have hhead : state.txqHead = none := h.head_eq_none.mpr rfl
    simp only [TxQueue.linkTail, hhead]
    refine ⟨haccepted, h.passed, hqueue, ⟨rfl, hlink⟩, rfl, ?_, hnodup, h.oops⟩
    simp [h.count]
  · subst hconcat
    have htail : state.txqTail = some last := by simp [h.tail]
    have hnew : skb ∉ front ++ [last] := h.notMem_waiting hskb
    have hfront : (front ++ [last]).Nodup := by
      have hall := h.nodup
      rw [h.queue] at hall
      exact (List.nodup_append.mp hall).2.1
    have hlinked := Linked.append hfront hnew h.linked
    have hself : Function.update state.prev skb none = state.prev :=
      Function.update_eq_self_iff.mpr hlink.symm
    rw [hself] at hlinked
    cases hhead : state.txqHead with
    | none => exact absurd (h.head_eq_none.mp hhead) (by simp)
    | some first =>
      simp only [TxQueue.linkTail, htail]
      rw [hhead] at hlinked
      refine ⟨haccepted, h.passed, hqueue, hlinked, ?_, ?_, hnodup, h.oops⟩
      · simp
      · rw [h.count]
        simp only [List.length_append, List.length_singleton]
        omega

theorem linkTail_workInv {state : State Skb} (skb : Skb) (h : WorkInv state) :
    WorkInv (linkTail skb state) := by
  unfold linkTail
  split <;> exact ⟨h.dispatched, h.exclusive, h.callbacks⟩

/-- One call of `wl_start` sends the packet on the channel or drops it. -/
theorem wlStart_refines {state : State Skb} {channel : Channel Skb} {waiting : List Skb}
    (wlTxqThresh : ℤ) {skb : Skb} (h : Refines state channel waiting)
    (hskb : skb ∉ state.outstanding) :
    ∃ labels next rest, (Channel.machine Skb).run channel labels = some next ∧
      Refines (wlStart wlTxqThresh skb state) next rest := by
  have hclear := h.list.clear hskb
  simp only [wlStart]
  split
  · refine ⟨[], channel, waiting, rfl, ?_, ⟨h.work.1, h.work.2, h.work.3⟩, h.wakeup⟩
    exact ⟨hclear.1, hclear.2, hclear.3, hclear.4, hclear.5, hclear.6, hclear.7, hclear.8⟩
  · have hlist := hclear.linkTail hskb (Function.update_self ..)
    have hwork : WorkInv (linkTail skb { state with
        prev := Function.update state.prev skb none, accepted := state.accepted ++ [skb] }) :=
      linkTail_workInv skb ⟨h.work.dispatched, h.work.exclusive, h.work.callbacks⟩
    refine ⟨[.send skb], channel.send skb, waiting ++ [skb], Channel.run_send .., ?_⟩
    split
    · exact ⟨hlist, hwork, fun _ ↦ ‹_›⟩
    · exact scheduleTxqTask_refines hlist hwork (Bool.eq_false_iff.mpr ‹_›)

/-- A critical section of the worker leaves the channel as it is: it takes the first packet in
hand, or it finishes when the list is empty. -/
theorem takeOrFinish_refines {state : State Skb} {channel : Channel Skb} {waiting : List Skb}
    (h : Refines state channel waiting) (hloop : state.worker = .loop) :
    Refines (takeOrFinish state) channel waiting.tail := by
  have hqueue : channel.queue = waiting := by simpa [hloop, Worker.inHand] using h.list.queue
  have hpending : state.pending = false := by
    cases hp : state.pending
    · rfl
    · simpa [hloop, Worker.running] using h.work.exclusive hp
  have hdispatched : state.txqDispatched = true := by
    rw [h.work.dispatched, hloop]
    simp [Worker.running]
  have hcallbacks := h.work.callbacks
  cases waiting with
  | nil =>
    have hhead : state.txqHead = none := h.list.head_eq_none.mpr rfl
    simp only [takeOrFinish, hhead]
    refine ⟨⟨h.list.accepted, h.list.passed, hqueue, ?_, h.list.tail, h.list.count,
      h.list.nodup, h.list.oops⟩, ⟨by simp [hpending, Worker.running], fun _ ↦ rfl, ?_⟩,
      fun hnil ↦ absurd rfl hnil⟩
    · simp
    · simp [hcallbacks, hdispatched]
  | cons skb rest =>
    obtain ⟨hhead, hrest⟩ := segment_cons.mp h.list.linked
    have hnodup := h.list.nodup
    rw [hqueue] at hnodup
    have hskb : skb ∉ rest := (List.nodup_cons.mp hnodup).1
    have htail : (if state.prev skb = none then none else state.txqTail) = rest.getLast? := by
      cases rest with
      | nil => rw [if_pos (segment_nil.mp hrest)]; rfl
      | cons second others =>
        rw [if_neg (by simp [(segment_cons.mp hrest).1]), h.list.tail, List.getLast?_cons_cons]
    simp only [takeOrFinish, hhead]
    refine ⟨⟨h.list.accepted, h.list.passed, hqueue, ?_, htail, ?_, h.list.nodup, h.list.oops⟩,
      ⟨by simp [hpending, hdispatched, Worker.running], by simp [hpending], hcallbacks⟩,
      fun _ ↦ hdispatched⟩
    · exact (segment_update_of_notMem none hskb).mpr hrest
    · simp [h.list.count]

/-- Every interleaving of producers and worker is simulated by the channel. -/
theorem simulation (wlTxqThresh : ℤ) :
    (machine wlTxqThresh : Machine (State Skb) (Label Skb)).Simulation (Channel.machine Skb)
      fun state channel ↦ ∃ waiting, Refines state channel waiting where
  initial state hstate := by
    obtain ⟨prev, callbacks, rfl⟩ := hstate
    exact ⟨⟨[], []⟩, rfl, [], attached_refines prev callbacks⟩
  step state label next channel hrelated hstep := by
    obtain ⟨waiting, h⟩ := hrelated
    cases label with
    | start skb =>
      obtain ⟨hskb, hnext⟩ := Option.ite_none_left_eq_some.mp hstep
      cases hnext
      obtain ⟨labels, image, rest, hrun, hrefines⟩ := wlStart_refines wlTxqThresh h hskb
      exact ⟨labels, image, hrun, rest, hrefines⟩
    | begin =>
      obtain ⟨hidle, hpending, hnext⟩ := step_begin hstep
      subst hnext
      exact ⟨[], channel, rfl, waiting, begin_refines h hidle hpending⟩
    | take =>
      obtain ⟨hloop, hnext⟩ := step_take hstep
      subst hnext
      exact ⟨[], channel, rfl, waiting.tail, takeOrFinish_refines h hloop⟩
    | send =>
      obtain ⟨skb, hsending, hnext⟩ := step_send hstep
      subst hnext
      exact ⟨[.deliver], _, Channel.run_deliver (h.deliver hsending), waiting,
        send_refines h hsending⟩
    | other change =>
      cases hstep
      exact ⟨[], channel, rfl, waiting, other_refines h change⟩

/-! ## Progress of the worker -/

theorem takeOrFinish_accepted (state : State Skb) :
    (takeOrFinish state).accepted = state.accepted := by
  unfold takeOrFinish
  split <;> rfl

/-- The worker's steps for `count` packets from the top of its loop. -/
def drainSchedule (Skb : Type*) : ℕ → List (Label Skb)
  | 0 => [.take]
  | count + 1 => .take :: .send :: drainSchedule Skb count

/-- The steps that are left to a dispatched worker when `count` packets wait. -/
def workerSchedule (state : State Skb) (count : ℕ) : List (Label Skb) :=
  match state.worker, state.pending with
  | .idle, true => .begin :: drainSchedule Skb count
  | .idle, false => []
  | .loop, _ => drainSchedule Skb count
  | .sending _, _ => .send :: drainSchedule Skb count

/-- Everything accepted has been passed on and nothing is left behind. -/
def Drained (accepted : List Skb) (final : State Skb) : Prop :=
  final.accepted = accepted ∧ final.passed = accepted ∧ final.txqHead = none

/-- From the top of its loop the worker passes on everything that waits. -/
theorem drain_of_loop (wlTxqThresh : ℤ) {state : State Skb} {channel : Channel Skb}
    {waiting : List Skb} (h : Refines state channel waiting) (hloop : state.worker = .loop) :
    ∃ final, (machine wlTxqThresh).run state (drainSchedule Skb waiting.length) = some final ∧
      Drained state.accepted final := by
  have htake : (machine wlTxqThresh).step state .take = some (takeOrFinish state) := by
    simp only [machine, step, hloop]
  have hnext := takeOrFinish_refines h hloop
  have hsame := takeOrFinish_accepted state
  induction waiting generalizing state channel with
  | nil =>
    have hhead : state.txqHead = none := h.list.head_eq_none.mpr rfl
    have hfinal := hnext.sound.accepted
    have hworker : (takeOrFinish state).worker = .idle := by simp only [takeOrFinish, hhead]
    refine ⟨takeOrFinish state, ?_, hsame, ?_, hnext.list.head_eq_none.mpr rfl⟩
    · exact Machine.run_cons_eq_some.mpr ⟨_, htake, rfl⟩
    · rw [hsame, hworker] at hfinal
      simpa [Worker.inHand] using hfinal.symm
  | cons skb rest ih =>
    have hhead : state.txqHead = some skb := (segment_cons.mp h.list.linked).1
    have hworker : (takeOrFinish state).worker = .sending skb := by
      simp only [takeOrFinish, hhead]
    have hsend : (machine wlTxqThresh).step (takeOrFinish state) .send =
        some { takeOrFinish state with
          passed := (takeOrFinish state).passed ++ [skb], worker := .loop } := by
      simp only [machine, step, hworker]
    have hloop' := send_refines hnext hworker
    obtain ⟨final, hrun, haccepted, hpassed, hnone⟩ := ih hloop' rfl
      (by simp only [machine, step]) (takeOrFinish_refines hloop' rfl) (takeOrFinish_accepted _)
    rw [hsame] at haccepted hpassed
    exact ⟨final, Machine.run_cons_eq_some.mpr ⟨_, htake,
      Machine.run_cons_eq_some.mpr ⟨_, hsend, hrun⟩⟩, haccepted, hpassed, hnone⟩

/-- Whatever a dispatched worker is doing, its own steps pass on every accepted packet. -/
theorem Refines.drained (wlTxqThresh : ℤ) {state : State Skb} {channel : Channel Skb}
    {waiting : List Skb} (h : Refines state channel waiting) :
    ∃ final, (machine wlTxqThresh).run state (workerSchedule state waiting.length) =
      some final ∧ Drained state.accepted final := by
  unfold workerSchedule
  split
  · have hbegin : (machine wlTxqThresh).step state .begin =
        some { state with pending := false, worker := .loop } := by
      simp only [machine, step, *]
    obtain ⟨final, hrun, hdrained⟩ :=
      drain_of_loop wlTxqThresh (begin_refines h ‹_› ‹_›) rfl
    exact ⟨final, Machine.run_cons_eq_some.mpr ⟨_, hbegin, hrun⟩, hdrained⟩
  · have hnil : waiting = [] := by
      by_contra hne
      have hdispatched := h.wakeup hne
      rw [h.work.dispatched] at hdispatched
      simp [*, Worker.running] at hdispatched
    have haccepted := h.sound.accepted
    refine ⟨state, rfl, rfl, ?_, h.list.head_eq_none.mpr hnil⟩
    simp [*, Worker.inHand]
  · exact drain_of_loop wlTxqThresh h ‹_›
  · rename_i skb hsending
    have hsend : (machine wlTxqThresh).step state .send =
        some { state with passed := state.passed ++ [skb], worker := .loop } := by
      simp only [machine, step, hsending]
    obtain ⟨final, hrun, hdrained⟩ := drain_of_loop wlTxqThresh (send_refines h hsending) rfl
    exact ⟨final, Machine.run_cons_eq_some.mpr ⟨_, hsend, hrun⟩, hdrained⟩

/-- Under every interleaving the packets linked from `txq_head` are the accepted ones that the
worker has not taken, packets reach `wl_start_int` in acceptance order, a non-empty queue has a
worker, and the worker's remaining steps pass on everything that was accepted. -/
theorem txq_keeps_every_packet (wlTxqThresh : ℤ) (state : State Skb)
    (h : (machine wlTxqThresh).Reachable state) :
    ∃ waiting, Sound state waiting ∧ state.passed <+: state.accepted ∧
      ∃ final, (machine wlTxqThresh).run state (workerSchedule state waiting.length) =
        some final ∧ Drained state.accepted final := by
  obtain ⟨channel, _, waiting, hrefines⟩ := (simulation wlTxqThresh).reachable h
  refine ⟨waiting, hrefines.sound, ?_, hrefines.drained wlTxqThresh⟩
  rw [hrefines.list.passed, hrefines.list.accepted]
  exact channel.delivered_prefix

/-- Two packets accepted, the first one taken, a third one accepted while it is in hand. -/
theorem txq_keeps_every_packet_in_hand :
    ∃ state : State ℕ, (machine 0).run (attached (fun _ ↦ none) 0)
        [.start 0, .start 1, .begin, .take, .start 2] = some state ∧
      state.accepted = [0, 1, 2] ∧ ∃ waiting, Sound state waiting ∧
        state.passed <+: state.accepted ∧
        ∃ final, (machine 0).run state (workerSchedule state waiting.length) = some final ∧
          Drained state.accepted final :=
  ⟨_, rfl, rfl, txq_keeps_every_packet 0 _ ⟨attached (fun _ ↦ none) 0,
    [.start 0, .start 1, .begin, .take, .start 2], ⟨_, _, rfl⟩, rfl⟩⟩

end Steps

/-! ## Freeing the queue -/

/-- The loop of `wl_txq_free`, at most `fuel` turns of it. -/
def txqFreeLoop : ℕ → State Skb → State Skb
  | 0, state => state
  | fuel + 1, state =>
      match state.txqHead with
      | none => state
      | some skb =>
          txqFreeLoop fuel { state with
            txqHead := state.prev skb
            txqCnt := state.txqCnt - 1
            dropped := state.dropped ++ [skb] }

/-- `wl_txq_free`; an empty queue is left as it is. -/
def wlTxqFree (fuel : ℕ) (state : State Skb) : State Skb :=
  match state.txqHead with
  | none => state
  | some _ => { txqFreeLoop fuel state with txqTail := none }

theorem txqFreeLoop_of_linked {state : State Skb} {waiting : List Skb} {fuel : ℕ}
    (hlinked : Linked state.prev state.txqHead waiting) (hfuel : waiting.length ≤ fuel) :
    (txqFreeLoop fuel state).txqHead = none ∧
      (txqFreeLoop fuel state).txqCnt = state.txqCnt - waiting.length ∧
      (txqFreeLoop fuel state).dropped = state.dropped ++ waiting := by
  induction waiting generalizing state fuel with
  | nil =>
    have hhead : state.txqHead = none := segment_nil.mp hlinked
    cases fuel with
    | zero => simp [txqFreeLoop, hhead]
    | succ fuel => simp [txqFreeLoop, hhead]
  | cons skb rest ih =>
    obtain ⟨hhead, hrest⟩ := segment_cons.mp hlinked
    cases fuel with
    | zero => exact absurd hfuel (by simp)
    | succ fuel =>
      have hfuel' : rest.length ≤ fuel := Nat.le_of_succ_le_succ hfuel
      let unlinked := { state with
        txqHead := state.prev skb
        txqCnt := state.txqCnt - 1
        dropped := state.dropped ++ [skb] }
      have hloop : txqFreeLoop (fuel + 1) state = txqFreeLoop fuel unlinked := by
        simp only [txqFreeLoop, hhead, unlinked]
      obtain ⟨hnone, hcount, hdropped⟩ := @ih unlinked fuel hrest hfuel'
      rw [hloop]
      refine ⟨hnone, ?_, ?_⟩
      · have hstart : unlinked.txqCnt = state.txqCnt - 1 := rfl
        rw [hcount, hstart, List.length_cons]
        omega
      · rw [hdropped, List.append_assoc, List.singleton_append]

/-- On a sound queue `wl_txq_free` ends, frees every waiting packet once and in order, and leaves
the queue empty; the assertion on the tail of an empty queue holds. -/
theorem wlTxqFree_frees_waiting {state : State Skb} {waiting : List Skb} {fuel : ℕ}
    (h : Sound state waiting) (hfuel : waiting.length ≤ fuel) :
    (wlTxqFree fuel state).txqHead = none ∧ (wlTxqFree fuel state).txqTail = none ∧
      (wlTxqFree fuel state).txqCnt = 0 ∧
      (wlTxqFree fuel state).dropped = state.dropped ++ waiting := by
  obtain ⟨hnone, hcount, hdropped⟩ := txqFreeLoop_of_linked h.linked hfuel
  rw [h.count, Int.sub_self] at hcount
  unfold wlTxqFree
  split
  · rename_i hhead
    have hnil : waiting = [] := Linked.unique (hhead ▸ h.linked) rfl
    subst hnil
    exact ⟨hhead, h.tail, h.count, (List.append_nil _).symm⟩
  · exact ⟨hnone, rfl, hcount, hdropped⟩

/-! ## The wait of `wl_free`

`wl_free` reads `wl->callbacks` without `txq_lock`, so for it a critical section is not one
step: `wl_start` counts the work item after it has scheduled it, and the worker drops its
count before it releases the lock. The finer machine stops at these two places. -/

/-- Who is inside `txq_lock`: nobody, a sender between `schedule_work` and `atomic_inc`, or the
worker behind `atomic_dec`. -/
inductive Holder where
  | nobody
  | sender
  | worker
  deriving DecidableEq

structure Locked (Skb : Type*) where
  queue : State Skb
  holder : Holder

/-- `whole` are the steps of the queue; a sender that has scheduled the work item stays in the
lock until `count`, a worker that has finished until `unlock`. -/
inductive LockedLabel (Skb : Type*) where
  | whole (label : Label Skb)
  | count
  | unlock

/-- The queue with the callback of a sender that has not come to `atomic_inc` counted. -/
def Locked.counted (state : Locked Skb) : State Skb :=
  match state.holder with
  | .sender => { state.queue with callbacks := state.queue.callbacks + 1 }
  | _ => state.queue

theorem counted_of_ne {state : Locked Skb} (h : state.holder ≠ .sender) :
    state.counted = state.queue := by
  unfold Locked.counted
  split
  · exact absurd ‹_› h
  · rfl

section Unload

variable [DecidableEq Skb]

/-- A critical section begins only when the lock is free; the worker comes to the lock, passes
its packet on, and the rest of the driver counts its callbacks without it. -/
def lockedStep (wlTxqThresh : ℤ) (state : Locked Skb) : LockedLabel Skb → Option (Locked Skb)
  | .whole (.start skb) =>
      if state.holder ≠ .nobody then none
      else
        (step wlTxqThresh state.queue (.start skb)).map fun next ↦
          -- `callbacks` differs exactly when the work item was scheduled
          { queue := { next with callbacks := state.queue.callbacks }
            holder := if next.callbacks = state.queue.callbacks then .nobody else .sender }
  | .whole .take =>
      if state.holder ≠ .nobody then none
      else
        (step wlTxqThresh state.queue .take).map fun next ↦
          { queue := next, holder := if next.worker.running then .nobody else .worker }
  | .whole label =>
      (step wlTxqThresh state.queue label).map fun next ↦ { state with queue := next }
  | .count => if state.holder = .sender then some ⟨state.counted, .nobody⟩ else none
  | .unlock => if state.holder = .worker then some { state with holder := .nobody } else none

def lockedMachine (wlTxqThresh : ℤ) : Machine (Locked Skb) (LockedLabel Skb) where
  initial state := (machine wlTxqThresh).initial state.queue ∧ state.holder = .nobody
  step := lockedStep wlTxqThresh

/-- A call of `wl_start` counts its work item once or not at all. -/
theorem wlStart_callbacks (wlTxqThresh : ℤ) (skb : Skb) (state : State Skb) :
    (wlStart wlTxqThresh skb state).callbacks = state.callbacks ∨
      (wlStart wlTxqThresh skb state).callbacks = state.callbacks + 1 := by
  have hlink : ∀ state : State Skb, (linkTail skb state).callbacks = state.callbacks := by
    intro state
    unfold linkTail
    split <;> rfl
  have hschedule : ∀ state : State Skb, (scheduleTxqTask state).callbacks = state.callbacks ∨
      (scheduleTxqTask state).callbacks = state.callbacks + 1 := by
    intro state
    unfold scheduleTxqTask
    split
    · exact .inl rfl
    · exact .inr rfl
  simp only [wlStart]
  split
  · exact .inl rfl
  · split
    · exact .inl (hlink _)
    · exact (hschedule _).imp (·.trans (hlink _)) (·.trans (congrArg (· + 1) (hlink _)))

/-- The steps outside the lock do not look at the count. -/
theorem step_counted {wlTxqThresh : ℤ} {state : Locked Skb} {label : Label Skb} {next : State Skb}
    (houtside : label = .begin ∨ label = .send ∨ ∃ change, label = .other change)
    (hstep : (machine wlTxqThresh).step state.queue label = some next) :
    (machine wlTxqThresh).step state.counted label =
      some ({ state with queue := next } : Locked Skb).counted := by
  by_cases hsender : state.holder = .sender
  · simp only [Locked.counted, hsender]
    obtain rfl | rfl | ⟨change, rfl⟩ := houtside
    · obtain ⟨hidle, hpending, rfl⟩ := step_begin hstep
      simp only [machine, step, hidle, hpending]
    · obtain ⟨skb, hsending, rfl⟩ := step_send hstep
      simp only [machine, step, hsending]
    · cases hstep
      simp only [machine, step, Int.add_right_comm]
  · have hnext : ({ state with queue := next } : Locked Skb).counted = next :=
      counted_of_ne hsender
    rw [counted_of_ne hsender, hnext]
    exact hstep

/-- A critical section of `wl_start` that stops before `atomic_inc` is the whole one, not yet
counted. -/
theorem start_counted {wlTxqThresh : ℤ} {state next : Locked Skb} {skb : Skb}
    (h : lockedStep wlTxqThresh state (.whole (.start skb)) = some next) :
    (machine wlTxqThresh).step state.counted (.start skb) = some next.counted := by
  obtain ⟨hfree, hsome⟩ := Option.ite_none_left_eq_some.mp h
  obtain ⟨after, hafter, rfl⟩ := Option.map_eq_some_iff.mp hsome
  have hcounted : state.counted = state.queue := counted_of_ne (by rw [not_not.mp hfree]; decide)
  have hwhole := (Option.ite_none_left_eq_some.mp hafter).2
  have hcallbacks := wlStart_callbacks wlTxqThresh skb state.queue
  rw [Option.some.inj hwhole] at hcallbacks
  rw [hcounted]
  refine hafter.trans (congrArg some ?_)
  obtain hsame | hmore := hcallbacks
  · simp only [Locked.counted, hsame, if_true]
    rw [← hsame]
  · have hne : after.callbacks ≠ state.queue.callbacks := by omega
    simp only [Locked.counted, if_neg hne]
    rw [← hmore]

/-- Taking the head of the list, with or without ending the worker, counts nothing. -/
theorem take_counted {wlTxqThresh : ℤ} {state next : Locked Skb}
    (h : lockedStep wlTxqThresh state (.whole .take) = some next) :
    (machine wlTxqThresh).step state.counted .take = some next.counted := by
  obtain ⟨hfree, hsome⟩ := Option.ite_none_left_eq_some.mp h
  obtain ⟨after, hafter, rfl⟩ := Option.map_eq_some_iff.mp hsome
  have hcounted : state.counted = state.queue := counted_of_ne (by rw [not_not.mp hfree]; decide)
  rw [hcounted]
  refine hafter.trans (congrArg some ?_)
  refine Eq.symm (counted_of_ne ?_)
  dsimp only
  split <;> decide

/-- A step of the queue is one of the queue with everything counted. -/
theorem whole_counted {wlTxqThresh : ℤ} {state next : Locked Skb} {label : Label Skb}
    (h : lockedStep wlTxqThresh state (.whole label) = some next) :
    (machine wlTxqThresh).step state.counted label = some next.counted := by
  cases label with
  | start skb => exact start_counted h
  | take => exact take_counted h
  | begin =>
    obtain ⟨after, hafter, rfl⟩ := Option.map_eq_some_iff.mp h
    exact step_counted (.inl rfl) hafter
  | send =>
    obtain ⟨after, hafter, rfl⟩ := Option.map_eq_some_iff.mp h
    exact step_counted (.inr (.inl rfl)) hafter
  | other change =>
    simp only [lockedStep] at h
    obtain ⟨after, hafter, rfl⟩ := Option.map_eq_some_iff.mp h
    exact step_counted (.inr (.inr ⟨change, rfl⟩)) hafter

/-- Cut at these places the critical sections are still those of the queue. -/
theorem lockedSimulation (wlTxqThresh : ℤ) :
    (lockedMachine wlTxqThresh : Machine (Locked Skb) (LockedLabel Skb)).Simulation
      (machine wlTxqThresh) fun state queue ↦ state.counted = queue where
  initial state h := ⟨state.queue, h.1, counted_of_ne (by rw [h.2]; decide)⟩
  step state label next queue hrelated hstep := by
    subst hrelated
    cases label with
    | whole label =>
      exact ⟨[label], _, Machine.run_cons_eq_some.mpr ⟨_, whole_counted hstep, rfl⟩, rfl⟩
    | count =>
      obtain ⟨-, hnext⟩ := Option.ite_none_right_eq_some.mp hstep
      cases hnext
      exact ⟨[], _, rfl, rfl⟩
    | unlock =>
      obtain ⟨hholder, hnext⟩ := Option.ite_none_right_eq_some.mp hstep
      cases hnext
      refine ⟨[], _, rfl, ?_⟩
      rw [counted_of_ne (by simp), counted_of_ne (by rw [hholder]; decide)]

/-- A queue that is not counted has no worker and no packet. -/
theorem queue_empty_of_uncounted (wlTxqThresh : ℤ) {state : State Skb}
    (h : (machine wlTxqThresh).Reachable state) (hothers : 0 ≤ state.otherCallbacks)
    (hwaited : ¬0 < state.callbacks) :
    state.pending = false ∧ state.worker = .idle ∧ state.passed = state.accepted ∧
      state.txqTail = none ∧ ∀ fuel, wlTxqFree fuel state = state := by
  obtain ⟨channel, _, waiting, hrefines⟩ := (simulation wlTxqThresh).reachable h
  have hdispatched : state.txqDispatched = false := by
    by_contra hbusy
    have hcallbacks := hrefines.work.callbacks
    rw [if_pos (Bool.eq_true_of_not_eq_false hbusy)] at hcallbacks
    omega
  have hidle := hrefines.work.dispatched
  rw [hdispatched, eq_comm, Bool.or_eq_false_iff] at hidle
  have hwaiting : waiting = [] := by
    by_contra hnonempty
    exact absurd ((hrefines.wakeup hnonempty).symm.trans hdispatched) (by decide)
  have hworker : state.worker = .idle := by
    have hrunning := hidle.2
    cases hcase : state.worker with
    | idle => rfl
    | loop =>
      rw [hcase] at hrunning
      cases hrunning
    | sending skb =>
      rw [hcase] at hrunning
      cases hrunning
  have hhead : state.txqHead = none := hrefines.list.head_eq_none.mpr hwaiting
  refine ⟨hidle.1, hworker, ?_, ?_, fun fuel ↦ ?_⟩
  · have hqueue := hrefines.list.queue
    rw [hworker, hwaiting] at hqueue
    rw [hrefines.list.passed, hrefines.list.accepted, Channel.sent, hqueue]
    exact (List.append_nil _).symm
  · rw [hrefines.list.tail, hwaiting]
    rfl
  · rw [wlTxqFree, hhead]

/-- `wl_free` has unregistered the interfaces, so no sender is inside `wl_start`, and waits until
`callbacks` is not positive before it calls `wl_txq_free`. The others that are counted take no more
than they have added, so the work item is not scheduled then, the worker is behind its last look
at the queue, every accepted packet has been passed on, and there is nothing to free. The worker may
still have to release the lock. -/
theorem txq_empty_when_unloaded (wlTxqThresh : ℤ) (state : Locked Skb)
    (h : (lockedMachine wlTxqThresh).Reachable state) (hsender : state.holder ≠ .sender)
    (hothers : 0 ≤ state.queue.otherCallbacks) (hwaited : ¬0 < state.queue.callbacks) :
    state.queue.pending = false ∧ state.queue.worker = .idle ∧
      state.queue.passed = state.queue.accepted ∧ state.queue.txqTail = none ∧
      ∀ fuel, wlTxqFree fuel state.queue = state.queue := by
  obtain ⟨queue, hqueue, hcounted⟩ := (lockedSimulation wlTxqThresh).reachable h
  rw [counted_of_ne hsender] at hcounted
  subst hcounted
  exact queue_empty_of_uncounted wlTxqThresh hqueue hothers hwaited

/-- Two packets passed on, the second one accepted while the first one was in hand; the worker
still holds the lock. -/
theorem txq_empty_when_unloaded_two :
    ∃ state : Locked ℕ, (lockedMachine 0).run ⟨attached (fun _ ↦ none) 0, .nobody⟩
        [.whole (.start 0), .whole .begin, .count, .whole .take, .whole (.start 1), .whole .send,
          .whole .take, .whole .send, .whole .take] = some state ∧
      state.holder = .worker ∧
      state.queue.pending = false ∧ state.queue.worker = .idle ∧
        state.queue.passed = state.queue.accepted ∧ state.queue.txqTail = none ∧
        ∀ fuel, wlTxqFree fuel state.queue = state.queue :=
  ⟨_, rfl, rfl, txq_empty_when_unloaded 0 _ ⟨⟨attached (fun _ ↦ none) 0, .nobody⟩,
    [.whole (.start 0), .whole .begin, .count, .whole .take, .whole (.start 1), .whole .send,
      .whole .take, .whole .send, .whole .take], ⟨⟨_, _, rfl⟩, rfl⟩, rfl⟩
    (by decide) (by decide) (by decide)⟩

end Unload

end BroadcomWl.Linux.TxQueue
