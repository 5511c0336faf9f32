import BroadcomWl.Systems.Channel
import BroadcomWl.Systems.Threads
import Mathlib.Data.Fintype.Basic
import Mathlib.Tactic.Common

/-!
# The event queue and the event thread

`wl_cfg80211_event` allocates an event, appends it to `eq_list` under `eq_lock` and
then does `up` on `event_sync`; when the allocation fails it does neither. The event
thread `wl_event_handler` does `down`, asks whether it should stop, takes the first
event off the list under `eq_lock`, runs the handler and frees the event. The list and
the semaphore are updated in different steps by different threads. Any number of
producers may be between any two of their steps.

The handler's effect is not part of this module; an event is counted as dispatched when
the thread has passed the test of the handler table, with or without a handler for it.
The queue is simulated by a first-in first-out channel: appending sends, taking off
delivers.
-/

namespace BroadcomWl.Cfg80211.EventQueue

open BroadcomWl.Systems

/-- `struct wl_cfg80211_event_q` without its link; `id` tells allocations apart. -/
structure Event (Msg : Type*) where
  id : ℕ
  etype : ℕ
  emsg : Msg
deriving DecidableEq

/-- Where a caller of `wl_cfg80211_event` is: outside, between the allocation and the append,
or between the append and `up`. -/
inductive ProducerPc (Msg : Type*) where
  | idle
  | allocated (e : Event Msg)
  | appended

/-- Where `wl_event_handler` is: in `down_interruptible`, before `kthread_should_stop`, before
`wl_deq_event`, in the handler, before `wl_put_event`, or returned. A thread that returned after
a successful `down` has `tookUp` set. -/
inductive ConsumerPc (Msg : Type*) where
  | waiting
  | downed
  | checked
  | handling (e : Event Msg)
  | putting (e : Event Msg)
  | returned (tookUp : Bool)

/-- The queue, the semaphore `event_sync`, the threads, and the history of the queue. -/
structure State (Producer Msg : Type*) where
  eqList : List (Event Msg)
  eventSync : ℕ
  producer : Producer → ProducerPc Msg
  consumer : ConsumerPc Msg
  bug : Bool
  allocated : List (Event Msg)
  enqueued : List (Event Msg)
  dispatched : List (Event Msg)
  freed : List (Event Msg)

variable {Producer Msg : Type*}

def ProducerPc.hasAppended : ProducerPc Msg → Bool
  | .appended => true
  | _ => false

/-- The event the thread has taken off the list and not yet freed. -/
def ConsumerPc.inHand : ConsumerPc Msg → List (Event Msg)
  | .handling e => [e]
  | .putting e => [e]
  | _ => []

/-- The event in hand after its handler has run. -/
def ConsumerPc.handled : ConsumerPc Msg → List (Event Msg)
  | .putting e => [e]
  | _ => []

/-- One when the thread has done `down` and not taken an event for it. -/
def ConsumerPc.owed : ConsumerPc Msg → ℕ
  | .downed => 1
  | .checked => 1
  | .returned true => 1
  | _ => 0

section Source

variable [DecidableEq Producer]

def State.setProducer (state : State Producer Msg) (p : Producer) (pc : ProducerPc Msg) :
    State Producer Msg :=
  { state with producer := Function.update state.producer p pc }

/-- `kzalloc` and the assignments in `wl_enq_event`; on failure the caller returns without
waking the thread. -/
def allocEvent (p : Producer) (etype : ℕ) (emsg : Msg) (success : Bool)
    (state : State Producer Msg) : State Producer Msg :=
  if success then
    let e := ⟨state.allocated.length, etype, emsg⟩
    { state.setProducer p (.allocated e) with allocated := state.allocated ++ [e] }
  else state

/-- `list_add_tail` in `wl_enq_event` under `eq_lock`. -/
def wlEnqEvent (p : Producer) (e : Event Msg) (state : State Producer Msg) :
    State Producer Msg :=
  { state.setProducer p .appended with
    eqList := state.eqList ++ [e]
    enqueued := state.enqueued ++ [e] }

/-- `wl_wakeup_event`, after which `wl_cfg80211_event` returns. -/
def wlWakeupEvent (p : Producer) (state : State Producer Msg) : State Producer Msg :=
  { state.setProducer p .idle with eventSync := state.eventSync + 1 }

/-- `wl_deq_event` under `eq_lock` and the test of its result; the thread does not survive
`BUG`. -/
def wlDeqEvent (state : State Producer Msg) : State Producer Msg :=
  match state.eqList with
  | [] => { state with bug := true, consumer := .returned false }
  | e :: rest => { state with eqList := rest, consumer := .handling e }

/-- `wl_put_event`. -/
def wlPutEvent (e : Event Msg) (state : State Producer Msg) : State Producer Msg :=
  { state with freed := state.freed ++ [e], consumer := .waiting }

/-- The first three labels are the steps of a producer, the others those of the event thread.
`interrupt` is a `down_interruptible` that returns non-zero. -/
inductive Label (Producer Msg : Type*) where
  | alloc (p : Producer) (etype : ℕ) (emsg : Msg) (success : Bool)
  | append (p : Producer)
  | up (p : Producer)
  | down
  | interrupt
  | shouldStop (stop : Bool)
  | deq
  | dispatch
  | put

def Label.isProducer : Label Producer Msg → Bool
  | .alloc .. => true
  | .append _ => true
  | .up _ => true
  | _ => false

def step (state : State Producer Msg) : Label Producer Msg → Option (State Producer Msg)
  | .alloc p etype emsg success =>
      match state.producer p with
      | .idle => some (allocEvent p etype emsg success state)
      | _ => none
  | .append p =>
      match state.producer p with
      | .allocated e => some (wlEnqEvent p e state)
      | _ => none
  | .up p =>
      match state.producer p with
      | .appended => some (wlWakeupEvent p state)
      | _ => none
  | .down =>
      match state.consumer, state.eventSync with
      | .waiting, count + 1 => some { state with eventSync := count, consumer := .downed }
      | _, _ => none
  | .interrupt =>
      match state.consumer with
      | .waiting => some { state with consumer := .returned false }
      | _ => none
  | .shouldStop stop =>
      match state.consumer with
      | .downed => some { state with consumer := if stop then .returned true else .checked }
      | _ => none
  | .deq =>
      match state.consumer with
      | .checked => some (wlDeqEvent state)
      | _ => none
  | .dispatch =>
      match state.consumer with
      | .handling e =>
          some { state with dispatched := state.dispatched ++ [e], consumer := .putting e }
      | _ => none
  | .put =>
      match state.consumer with
      | .putting e => some (wlPutEvent e state)
      | _ => none

/-- The queue after `wl_init_eq` and `sema_init`, with the thread just started. -/
def initialized : State Producer Msg where
  eqList := []
  eventSync := 0
  producer _ := .idle
  consumer := .waiting
  bug := false
  allocated := []
  enqueued := []
  dispatched := []
  freed := []

def machine (Producer Msg : Type*) [DecidableEq Producer] :
    Machine (State Producer Msg) (Label Producer Msg) where
  initial state := state = initialized
  step := step

/-- A thread that has returned takes no more steps, so only producers move. -/
theorem step_of_returned {state next : State Producer Msg} {label : Label Producer Msg}
    {tookUp : Bool} (hreturned : state.consumer = .returned tookUp)
    (hstep : step state label = some next) : label.isProducer = true := by
  cases label <;> simp only [step, hreturned] at hstep <;> first | rfl | cases hstep

end Source

/-! ## Which event is where -/

/-- Allocations are told apart by their number, and an allocated event is either still held by
the producer that allocated it or was appended once. -/
structure Owned (allocated enqueued : List (Event Msg)) (producer : Producer → ProducerPc Msg) :
    Prop where
  id_lt : ∀ e ∈ allocated, e.id < allocated.length
  nodup : enqueued.Nodup
  subset : ∀ e ∈ enqueued, e ∈ allocated
  held : ∀ p e, producer p = .allocated e → e ∈ allocated ∧ e ∉ enqueued
  unique : ∀ p q e, producer p = .allocated e → producer q = .allocated e → p = q
  placed : ∀ e ∈ allocated, e ∈ enqueued ∨ ∃ p, producer p = .allocated e

theorem Owned.fresh {allocated enqueued : List (Event Msg)}
    {producer : Producer → ProducerPc Msg} (h : Owned allocated enqueued producer) {etype : ℕ}
    {emsg : Msg} : ⟨allocated.length, etype, emsg⟩ ∉ allocated := fun hmem ↦
  Nat.lt_irrefl _ (h.id_lt _ hmem)

section Owners

variable [DecidableEq Producer]

/-- A producer that holds nothing and still holds nothing after its step. -/
theorem Owned.move {allocated enqueued : List (Event Msg)}
    {producer : Producer → ProducerPc Msg} (h : Owned allocated enqueued producer) {p : Producer}
    {new : ProducerPc Msg} (hold : ∀ e, producer p ≠ .allocated e)
    (hnew : ∀ e, new ≠ .allocated e) :
    Owned allocated enqueued (Function.update producer p new) := by
  have hback : ∀ q e, Function.update producer p new q = .allocated e →
      producer q = .allocated e := by
    intro q e hq
    rcases update_eq hq with ⟨_, hmoved⟩ | ⟨_, hother⟩
    · exact absurd hmoved (hnew e)
    · exact hother
  refine ⟨h.id_lt, h.nodup, h.subset, fun q e hq ↦ h.held q e (hback q e hq),
    fun q r e hq hr ↦ h.unique q r e (hback q e hq) (hback r e hr), fun e he ↦ ?_⟩
  rcases h.placed e he with henqueued | ⟨q, hq⟩
  · exact .inl henqueued
  · have hqp : q ≠ p := fun heq ↦ hold e (heq ▸ hq)
    exact .inr ⟨q, by rwa [Function.update_of_ne hqp]⟩

/-- A successful allocation. -/
theorem Owned.alloc {allocated enqueued : List (Event Msg)}
    {producer : Producer → ProducerPc Msg} (h : Owned allocated enqueued producer) {p : Producer}
    (hold : producer p = .idle) (etype : ℕ) (emsg : Msg) :
    Owned (allocated ++ [⟨allocated.length, etype, emsg⟩]) enqueued
      (Function.update producer p (.allocated ⟨allocated.length, etype, emsg⟩)) := by
  have hfresh : ⟨allocated.length, etype, emsg⟩ ∉ allocated := h.fresh
  have hcases : ∀ q e, Function.update producer p
      (.allocated ⟨allocated.length, etype, emsg⟩) q = .allocated e →
      (q = p ∧ e = ⟨allocated.length, etype, emsg⟩) ∨ producer q = .allocated e := by
    intro q e hq
    rcases update_eq hq with ⟨hqp, hmoved⟩ | ⟨_, hother⟩
    · cases hmoved
      exact .inl ⟨hqp, rfl⟩
    · exact .inr hother
  refine ⟨?_, h.nodup, fun e he ↦ List.mem_append_left _ (h.subset e he), ?_, ?_, ?_⟩
  · intro e he
    rw [List.length_append, List.length_singleton]
    rcases List.mem_append.mp he with he | he
    · exact Nat.lt_succ_of_lt (h.id_lt e he)
    · rw [List.mem_singleton.mp he]
      exact Nat.lt_succ_self _
  · intro q e hq
    rcases hcases q e hq with ⟨_, rfl⟩ | hq
    · exact ⟨List.mem_append_right _ (List.mem_singleton_self _), fun he ↦ hfresh (h.subset _ he)⟩
    · exact ⟨List.mem_append_left _ (h.held q e hq).1, (h.held q e hq).2⟩
  · intro q r e hq hr
    rcases hcases q e hq with ⟨rfl, rfl⟩ | hq
    · rcases hcases r _ hr with ⟨rfl, _⟩ | hr
      · rfl
      · exact absurd (h.held r _ hr).1 hfresh
    · rcases hcases r e hr with ⟨_, rfl⟩ | hr
      · exact absurd (h.held q _ hq).1 hfresh
      · exact h.unique q r e hq hr
  · intro e he
    rcases List.mem_append.mp he with he | he
    · rcases h.placed e he with henqueued | ⟨q, hq⟩
      · exact .inl henqueued
      · have hqp : q ≠ p := by
          intro heq
          rw [heq, hold] at hq
          cases hq
        exact .inr ⟨q, by rwa [Function.update_of_ne hqp]⟩
    · rw [List.mem_singleton.mp he]
      exact .inr ⟨p, Function.update_self ..⟩

/-- The append hands the event over from its producer to the list. -/
theorem Owned.append {allocated enqueued : List (Event Msg)}
    {producer : Producer → ProducerPc Msg} (h : Owned allocated enqueued producer) {p : Producer}
    {e : Event Msg} (hold : producer p = .allocated e) :
    Owned allocated (enqueued ++ [e]) (Function.update producer p .appended) := by
  have hback : ∀ q e', Function.update producer p .appended q = .allocated e' →
      q ≠ p ∧ producer q = .allocated e' := by
    intro q e' hq
    rcases update_eq hq with ⟨_, hmoved⟩ | hother
    · cases hmoved
    · exact hother
  have hheld := h.held p e hold
  refine ⟨h.id_lt, ?_, ?_, ?_, ?_, ?_⟩
  · have hconcat := h.nodup.concat hheld.2
    rwa [List.concat_eq_append] at hconcat
  · intro e' he'
    rcases List.mem_append.mp he' with he' | he'
    · exact h.subset e' he'
    · rw [List.mem_singleton.mp he']
      exact hheld.1
  · intro q e' hq
    obtain ⟨hqp, hq⟩ := hback q e' hq
    refine ⟨(h.held q e' hq).1, fun he' ↦ ?_⟩
    rcases List.mem_append.mp he' with he' | he'
    · exact (h.held q e' hq).2 he'
    · rw [List.mem_singleton.mp he'] at hq
      exact hqp (h.unique q p e hq hold)
  · intro q r e' hq hr
    exact h.unique q r e' (hback q e' hq).2 (hback r e' hr).2
  · intro e' he'
    rcases h.placed e' he' with henqueued | ⟨q, hq⟩
    · exact .inl (List.mem_append_left _ henqueued)
    · by_cases hqp : q = p
      · subst hqp
        rw [hold] at hq
        cases hq
        exact .inl (List.mem_append_right _ (List.mem_singleton_self _))
      · exact .inr ⟨q, by rwa [Function.update_of_ne hqp]⟩

end Owners

/-! ## The channel -/

section Thread

variable [Fintype Producer]

/-- The events taken off the list are the delivered ones. `count` is the conserved quantity: an
event on the list is announced by the semaphore, or its producer is about to announce it, or the
event thread has already consumed the announcement. -/
structure Refines (state : State Producer Msg) (channel : Channel (Event Msg)) : Prop where
  sent : state.enqueued = channel.sent
  queue : state.eqList = channel.queue
  delivered : channel.delivered = state.freed ++ state.consumer.inHand
  dispatched : state.dispatched = state.freed ++ state.consumer.handled
  count : state.eqList.length =
    state.eventSync + threadsAt ProducerPc.hasAppended state.producer + state.consumer.owed
  owned : Owned state.allocated state.enqueued state.producer
  bug : state.bug = false

theorem initialized_refines : Refines (initialized : State Producer Msg) ⟨[], []⟩ := by
  have hnone : threadsAt ProducerPc.hasAppended
      (initialized : State Producer Msg).producer = 0 := threadsAt_eq_zero fun _ ↦ rfl
  refine ⟨rfl, rfl, rfl, rfl, by rw [hnone]; rfl, ?_, rfl⟩
  constructor <;> simp [initialized]

variable {state : State Producer Msg} {channel : Channel (Event Msg)}

/-- The appended events are, in order, the freed ones, the one in hand and the waiting ones. -/
theorem Refines.enqueued_eq (h : Refines state channel) :
    state.enqueued = state.freed ++ state.consumer.inHand ++ state.eqList := by
  rw [h.sent, Channel.sent, h.delivered, h.queue]

theorem ConsumerPc.handled_prefix (consumer : ConsumerPc Msg) :
    consumer.handled <+: consumer.inHand := by
  cases consumer <;> simp [inHand, handled]

/-- Events are dispatched in the order in which they were appended. -/
theorem Refines.dispatched_prefix (h : Refines state channel) :
    state.dispatched <+: state.enqueued := by
  rw [h.enqueued_eq, h.dispatched]
  have hinHand := (List.prefix_append_right_inj state.freed).mpr state.consumer.handled_prefix
  exact hinHand.trans (List.prefix_append _ _)

/-- The event thread moves without touching the list, an event or the history. -/
theorem consumer_refines (h : Refines state channel) {count : ℕ} {consumer : ConsumerPc Msg}
    (hinHand : consumer.inHand = state.consumer.inHand)
    (hhandled : consumer.handled = state.consumer.handled)
    (howed : count + consumer.owed = state.eventSync + state.consumer.owed) :
    Refines { state with eventSync := count, consumer := consumer } channel := by
  refine ⟨h.sent, h.queue, ?_, ?_, ?_, h.owned, h.bug⟩
  · exact h.delivered.trans (by rw [hinHand])
  · exact h.dispatched.trans (by rw [hhandled])
  · have hcount := h.count
    dsimp only
    omega

/-- After a successful `down` the list is not empty. -/
theorem wlDeqEvent_refines (h : Refines state channel) (hchecked : state.consumer = .checked) :
    ∃ image, channel.deliver = some image ∧ Refines (wlDeqEvent state) image := by
  have hcount := h.count
  have hdelivered := h.delivered
  have hdispatched := h.dispatched
  rw [hchecked] at hcount hdelivered hdispatched
  simp only [ConsumerPc.inHand, ConsumerPc.handled, ConsumerPc.owed, List.append_nil] at *
  unfold wlDeqEvent
  split
  · rename_i hnil
    rw [hnil, List.length_nil] at hcount
    omega
  · rename_i e rest hcons
    have hdeliver : channel.deliver = some ⟨channel.delivered ++ [e], rest⟩ := by
      unfold Channel.deliver
      rw [← h.queue, hcons]
    refine ⟨_, hdeliver, ?_, rfl, ?_, ?_, ?_, h.owned, h.bug⟩
    · exact h.sent.trans (Channel.sent_deliver hdeliver).symm
    · change channel.delivered ++ [e] = state.freed ++ [e]
      rw [hdelivered]
    · exact hdispatched.trans (List.append_nil _).symm
    · rw [hcons, List.length_cons] at hcount
      change rest.length = state.eventSync +
        threadsAt ProducerPc.hasAppended state.producer + 0
      omega

theorem dispatch_refines (h : Refines state channel) {e : Event Msg}
    (hhandling : state.consumer = .handling e) :
    Refines { state with dispatched := state.dispatched ++ [e], consumer := .putting e }
      channel := by
  have hcount := h.count
  have hdelivered := h.delivered
  have hdispatched := h.dispatched
  rw [hhandling] at hcount hdelivered hdispatched
  refine ⟨h.sent, h.queue, hdelivered, ?_, hcount, h.owned, h.bug⟩
  change state.dispatched ++ [e] = state.freed ++ [e]
  rw [hdispatched]
  exact congrArg (· ++ [e]) (List.append_nil _)

theorem wlPutEvent_refines (h : Refines state channel) {e : Event Msg}
    (hputting : state.consumer = .putting e) : Refines (wlPutEvent e state) channel := by
  have hcount := h.count
  have hdelivered := h.delivered
  have hdispatched := h.dispatched
  rw [hputting] at hcount hdelivered hdispatched
  refine ⟨h.sent, h.queue, ?_, ?_, hcount, h.owned, h.bug⟩
  · exact hdelivered.trans (List.append_nil _).symm
  · exact hdispatched.trans (List.append_nil _).symm

end Thread

section Steps

variable [DecidableEq Producer] [Fintype Producer]

/-- The number of producers between append and `up` after a step of one of them. -/
theorem hasAppended_update {producer : Producer → ProducerPc Msg} {p : Producer}
    {old : ProducerPc Msg} (hold : producer p = old) (new : ProducerPc Msg) :
    threadsAt ProducerPc.hasAppended (Function.update producer p new) + old.hasAppended.toNat =
      threadsAt ProducerPc.hasAppended producer + new.hasAppended.toNat := by
  rw [← hold]
  exact threadsAt_update ..

variable {state : State Producer Msg} {channel : Channel (Event Msg)}

theorem allocEvent_refines (h : Refines state channel) {p : Producer}
    (hidle : state.producer p = .idle) (etype : ℕ) (emsg : Msg) (success : Bool) :
    Refines (allocEvent p etype emsg success state) channel := by
  cases success with
  | false => exact h
  | true =>
    have hcount := hasAppended_update hidle
      (.allocated ⟨state.allocated.length, etype, emsg⟩)
    refine ⟨h.sent, h.queue, h.delivered, h.dispatched, ?_, h.owned.alloc hidle etype emsg, h.bug⟩
    change state.eqList.length = state.eventSync + threadsAt ProducerPc.hasAppended
      (Function.update state.producer p (.allocated ⟨state.allocated.length, etype, emsg⟩)) +
        state.consumer.owed
    rw [h.count]
    simp only [ProducerPc.hasAppended, Bool.toNat_false] at hcount
    omega

theorem wlEnqEvent_refines (h : Refines state channel) {p : Producer} {e : Event Msg}
    (hheld : state.producer p = .allocated e) :
    Refines (wlEnqEvent p e state) (channel.send e) := by
  have hcount := hasAppended_update hheld .appended
  refine ⟨?_, ?_, h.delivered, h.dispatched, ?_, h.owned.append hheld, h.bug⟩
  · rw [Channel.sent_send, ← h.sent]
    rfl
  · change state.eqList ++ [e] = channel.queue ++ [e]
    rw [h.queue]
  · change (state.eqList ++ [e]).length = state.eventSync +
      threadsAt ProducerPc.hasAppended (Function.update state.producer p .appended) +
        state.consumer.owed
    rw [List.length_append, List.length_singleton, h.count]
    simp only [ProducerPc.hasAppended, Bool.toNat_true, Bool.toNat_false] at hcount
    omega

theorem wlWakeupEvent_refines (h : Refines state channel) {p : Producer}
    (happended : state.producer p = .appended) : Refines (wlWakeupEvent p state) channel := by
  have hcount := hasAppended_update happended .idle
  have howned : Owned state.allocated state.enqueued (Function.update state.producer p .idle) :=
    h.owned.move (by simp [happended]) (by simp)
  refine ⟨h.sent, h.queue, h.delivered, h.dispatched, ?_, howned, h.bug⟩
  change state.eqList.length = state.eventSync + 1 +
    threadsAt ProducerPc.hasAppended (Function.update state.producer p .idle) +
      state.consumer.owed
  rw [h.count]
  simp only [ProducerPc.hasAppended, Bool.toNat_true, Bool.toNat_false] at hcount
  omega

/-- Every step of a producer or of the event thread is a step of the channel or none. -/
theorem step_refines {next : State Producer Msg} {label : Label Producer Msg}
    (h : Refines state channel) (hstep : step state label = some next) :
    ∃ labels image, (Channel.machine (Event Msg)).run channel labels = some image ∧
      Refines next image := by
  have hsame : Refines next channel →
      ∃ labels image, (Channel.machine (Event Msg)).run channel labels = some image ∧
        Refines next image := fun hnext ↦ ⟨[], channel, rfl, hnext⟩
  cases label with
  | alloc p etype emsg success =>
    cases hpc : state.producer p <;> simp only [step, hpc] at hstep <;> cases hstep
    exact hsame (allocEvent_refines h hpc etype emsg success)
  | append p =>
    cases hpc : state.producer p <;> simp only [step, hpc] at hstep <;> cases hstep
    rename_i e
    exact ⟨[.send e], channel.send e, Channel.run_send .., wlEnqEvent_refines h hpc⟩
  | up p =>
    cases hpc : state.producer p <;> simp only [step, hpc] at hstep <;> cases hstep
    exact hsame (wlWakeupEvent_refines h hpc)
  | down =>
    cases hpc : state.consumer <;> simp only [step, hpc] at hstep <;> try cases hstep
    cases hsem : state.eventSync <;> simp only [hsem] at hstep <;> cases hstep
    exact hsame (consumer_refines h (by rw [hpc]; rfl) (by rw [hpc]; rfl) (by rw [hpc, hsem]; rfl))
  | interrupt =>
    cases hpc : state.consumer <;> simp only [step, hpc] at hstep <;> cases hstep
    exact hsame (consumer_refines h (by rw [hpc]; rfl) (by rw [hpc]; rfl) (by rw [hpc]; rfl))
  | shouldStop stop =>
    cases hpc : state.consumer <;> simp only [step, hpc] at hstep <;> cases hstep
    cases stop <;>
    exact hsame (consumer_refines h (by rw [hpc]; rfl) (by rw [hpc]; rfl) (by rw [hpc]; rfl))
  | deq =>
    cases hpc : state.consumer <;> simp only [step, hpc] at hstep <;> cases hstep
    obtain ⟨image, hdeliver, hrefines⟩ := wlDeqEvent_refines h hpc
    exact ⟨[.deliver], image, Channel.run_deliver hdeliver, hrefines⟩
  | dispatch =>
    cases hpc : state.consumer <;> simp only [step, hpc] at hstep <;> cases hstep
    exact hsame (dispatch_refines h hpc)
  | put =>
    cases hpc : state.consumer <;> simp only [step, hpc] at hstep <;> cases hstep
    exact hsame (wlPutEvent_refines h hpc)

/-- The thread returns when `down_interruptible` fails or when it is asked to stop. -/
theorem returned_of_step {next : State Producer Msg} {label : Label Producer Msg} {tookUp : Bool}
    (h : Refines state channel) (hstep : step state label = some next)
    (hreturned : next.consumer = .returned tookUp) :
    state.consumer = .returned tookUp ∨ label = .interrupt ∨ label = .shouldStop true := by
  cases label with
  | alloc p etype emsg success =>
    cases hpc : state.producer p <;> simp only [step, hpc] at hstep <;> cases hstep
    cases success <;> exact .inl hreturned
  | append p | up p =>
    cases hpc : state.producer p <;> simp only [step, hpc] at hstep <;> cases hstep
    exact .inl hreturned
  | down =>
    cases hpc : state.consumer <;> simp only [step, hpc] at hstep <;> try cases hstep
    cases hsem : state.eventSync <;> simp only [hsem] at hstep <;> cases hstep
    cases hreturned
  | interrupt => exact .inr (.inl rfl)
  | shouldStop stop =>
    cases hpc : state.consumer <;> simp only [step, hpc] at hstep <;> cases hstep
    cases stop
    · cases hreturned
    · exact .inr (.inr rfl)
  | deq =>
    cases hpc : state.consumer <;> simp only [step, hpc] at hstep <;> cases hstep
    obtain ⟨image, _, hnext⟩ := wlDeqEvent_refines h hpc
    have hbug := hnext.bug
    cases hlist : state.eqList <;> simp only [wlDeqEvent, hlist] at hbug hreturned
    · cases hbug
    · cases hreturned
  | dispatch | put =>
    cases hpc : state.consumer <;> simp only [step, hpc] at hstep <;> cases hstep
    cases hreturned

theorem simulation :
    (machine Producer Msg).Simulation (Channel.machine (Event Msg)) Refines where
  initial state hstate := by
    subst hstate
    exact ⟨⟨[], []⟩, rfl, initialized_refines⟩
  step _ _ _ _ h hstep := step_refines h hstep

/-! ## Progress of the event thread -/

/-- The event thread's steps for `count` announced events. -/
def rounds (Producer Msg : Type*) : ℕ → List (Label Producer Msg)
  | 0 => []
  | count + 1 =>
      .down :: .shouldStop false :: .deq :: .dispatch :: .put :: rounds Producer Msg count

/-- The steps that are left to the thread, when it is not asked to stop, before it waits for
a semaphore that is zero. -/
def threadSchedule (state : State Producer Msg) : List (Label Producer Msg) :=
  let rest := rounds Producer Msg state.eventSync
  match state.consumer with
  | .waiting => rest
  | .downed => .shouldStop false :: .deq :: .dispatch :: .put :: rest
  | .checked => .deq :: .dispatch :: .put :: rest
  | .handling _ => .dispatch :: .put :: rest
  | .putting _ => .put :: rest
  | .returned _ => []

/-- The schedule can be followed, and after it everything enqueued was freed or is not yet
announced by its producer. -/
def Settles (state : State Producer Msg) (labels : List (Label Producer Msg)) : Prop :=
  ∃ final, (machine Producer Msg).run state labels = some final ∧
    state.enqueued = final.freed ++ final.eqList ∧
      final.eqList.length = threadsAt ProducerPc.hasAppended final.producer

theorem Settles.cons {next : State Producer Msg} {label : Label Producer Msg}
    {labels : List (Label Producer Msg)} (h : Settles next labels)
    (hstep : step state label = some next) (henqueued : next.enqueued = state.enqueued) :
    Settles state (label :: labels) := by
  obtain ⟨final, hrun, hfreed, hlength⟩ := h
  exact ⟨final, Machine.run_cons_eq_some.mpr ⟨next, hstep, hrun⟩, henqueued ▸ hfreed, hlength⟩

/-- Every waiting thread settles the announced events. -/
def WaitingSettles (Producer Msg : Type*) [DecidableEq Producer] [Fintype Producer] (count : ℕ) :
    Prop :=
  ∀ (state : State Producer Msg) channel, Refines state channel → state.consumer = .waiting →
    state.eventSync = count → Settles state (rounds Producer Msg count)

theorem settles_of_putting {count : ℕ} (hwaiting : WaitingSettles Producer Msg count)
    (h : Refines state channel) {e : Event Msg} (hputting : state.consumer = .putting e)
    (hcount : state.eventSync = count) : Settles state (.put :: rounds Producer Msg count) :=
  (hwaiting _ _ (wlPutEvent_refines h hputting) rfl hcount).cons
    (by simp only [step, hputting]) rfl

theorem settles_of_handling {count : ℕ} (hwaiting : WaitingSettles Producer Msg count)
    (h : Refines state channel) {e : Event Msg} (hhandling : state.consumer = .handling e)
    (hcount : state.eventSync = count) :
    Settles state (.dispatch :: .put :: rounds Producer Msg count) :=
  (settles_of_putting hwaiting (dispatch_refines h hhandling) rfl hcount).cons
    (by simp only [step, hhandling]) rfl

theorem settles_of_checked {count : ℕ} (hwaiting : WaitingSettles Producer Msg count)
    (h : Refines state channel) (hchecked : state.consumer = .checked)
    (hcount : state.eventSync = count) :
    Settles state (.deq :: .dispatch :: .put :: rounds Producer Msg count) := by
  obtain ⟨image, _, hnext⟩ := wlDeqEvent_refines h hchecked
  have hstep : step state .deq = some (wlDeqEvent state) := by simp only [step, hchecked]
  cases hlist : state.eqList with
  | nil =>
    have hbug := hnext.bug
    simp only [wlDeqEvent, hlist] at hbug
    cases hbug
  | cons e rest =>
    have hdeq : wlDeqEvent state = { state with eqList := rest, consumer := .handling e } := by
      simp only [wlDeqEvent, hlist]
    rw [hdeq] at hnext hstep
    exact (settles_of_handling hwaiting hnext rfl hcount).cons hstep rfl

theorem settles_of_downed {count : ℕ} (hwaiting : WaitingSettles Producer Msg count)
    (h : Refines state channel) (hdowned : state.consumer = .downed)
    (hcount : state.eventSync = count) :
    Settles state (.shouldStop false :: .deq :: .dispatch :: .put ::
      rounds Producer Msg count) := by
  have hnext : Refines { state with consumer := .checked } channel :=
    consumer_refines h (by rw [hdowned]; rfl) (by rw [hdowned]; rfl) (by rw [hdowned]; rfl)
  exact (settles_of_checked hwaiting hnext rfl hcount).cons (by simp [step, hdowned]) rfl

theorem waitingSettles (count : ℕ) : WaitingSettles Producer Msg count := by
  induction count with
  | zero =>
    intro state channel h hwaiting hcount
    have hsent := h.sent
    have hlength := h.count
    rw [Channel.sent, h.delivered, ← h.queue, hwaiting] at hsent
    rw [hcount, hwaiting] at hlength
    refine ⟨state, rfl, ?_, ?_⟩
    · simpa [ConsumerPc.inHand] using hsent
    · simpa [ConsumerPc.owed] using hlength
  | succ count ih =>
    intro state channel h hwaiting hcount
    have hnext : Refines { state with eventSync := count, consumer := .downed } channel :=
      consumer_refines h (by rw [hwaiting]; rfl) (by rw [hwaiting]; rfl)
        (by rw [hwaiting, hcount]; rfl)
    exact (settles_of_downed ih hnext rfl rfl).cons (by simp [step, hwaiting, hcount]) rfl

/-- Wherever the thread is, its own steps free every event that was announced. -/
theorem Refines.settles (h : Refines state channel)
    (hrunning : ∀ tookUp, state.consumer ≠ .returned tookUp) :
    Settles state (threadSchedule state) := by
  have hwaiting := @waitingSettles Producer Msg _ _ state.eventSync
  unfold threadSchedule
  cases hpc : state.consumer with
  | waiting => exact hwaiting state channel h hpc rfl
  | downed => exact settles_of_downed hwaiting h hpc rfl
  | checked => exact settles_of_checked hwaiting h hpc rfl
  | handling e => exact settles_of_handling hwaiting h hpc rfl
  | putting e => exact settles_of_putting hwaiting h hpc rfl
  | returned tookUp => exact absurd hpc (hrunning tookUp)

/-- Under every interleaving the list is not empty after a successful `down`; every allocated
event is held by its producer or was appended once; the appended events are, in order, the freed
ones, the one in the thread's hands and the waiting ones; dispatching follows the same order; the
length of the list is the conserved quantity; and the thread's remaining steps free everything
that was announced. -/
theorem event_queue_protocol (state : State Producer Msg)
    (h : (machine Producer Msg).Reachable state) :
    state.bug = false ∧
      (∀ e ∈ state.allocated, e ∈ state.enqueued ∨ ∃ p, state.producer p = .allocated e) ∧
      state.enqueued.Nodup ∧
      state.enqueued = state.freed ++ state.consumer.inHand ++ state.eqList ∧
      state.dispatched = state.freed ++ state.consumer.handled ∧
      state.dispatched <+: state.enqueued ∧
      state.eqList.length = state.eventSync +
        threadsAt ProducerPc.hasAppended state.producer + state.consumer.owed ∧
      ((∀ tookUp, state.consumer ≠ .returned tookUp) → Settles state (threadSchedule state)) := by
  obtain ⟨channel, _, hrefines⟩ := simulation.reachable h
  exact ⟨hrefines.bug, hrefines.owned.placed, hrefines.owned.nodup, hrefines.enqueued_eq,
    hrefines.dispatched, hrefines.dispatched_prefix, hrefines.count, hrefines.settles⟩

end Steps

/-- Two producers overtake each other between their steps, and a third allocation fails. -/
theorem event_queue_protocol_overtaking :
    ∃ state : State (Fin 2) ℕ, (machine (Fin 2) ℕ).run initialized
        [.alloc 0 16 7 true, .alloc 1 26 8 true, .append 1, .append 0, .up 0, .alloc 0 3 9 false,
          .down, .shouldStop false, .deq] = some state ∧
      state.consumer.inHand = [⟨1, 26, 8⟩] ∧ state.bug = false ∧
      (∀ e ∈ state.allocated, e ∈ state.enqueued ∨ ∃ p, state.producer p = .allocated e) ∧
      state.enqueued.Nodup ∧
      state.enqueued = state.freed ++ state.consumer.inHand ++ state.eqList ∧
      state.dispatched = state.freed ++ state.consumer.handled ∧
      state.dispatched <+: state.enqueued ∧
      state.eqList.length = state.eventSync +
        threadsAt ProducerPc.hasAppended state.producer + state.consumer.owed ∧
      ((∀ tookUp, state.consumer ≠ .returned tookUp) → Settles state (threadSchedule state)) :=
  ⟨_, rfl, rfl, event_queue_protocol _ ⟨initialized, [.alloc 0 16 7 true, .alloc 1 26 8 true,
    .append 1, .append 0, .up 0, .alloc 0 3 9 false, .down, .shouldStop false, .deq], rfl, rfl⟩⟩

end BroadcomWl.Cfg80211.EventQueue
