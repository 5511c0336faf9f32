import BroadcomWl.Linux.Timer
import BroadcomWl.Memory.LinkedList

/-!
# Timers, their tasks, and the timer list

The timers of both dispatch modes, with the list `wl->timers`. A handler has three places: it
waits for `WL_LOCK`, it runs `t->fn`, or it has left `_wl_timer`. By default the last place is the
end; in passive mode the handler is a task, which frees itself and gives back its own callback,
and reads the timer for both. A timer that is allocated later is another timer, also at the same
address; a released timer keeps its contents, and `useAfterFree` records that it was touched.

In passive mode every pending timer has one callback, and every task two until it has left
`_wl_timer`, and one after that. An expiry whose task cannot be allocated leaves the callback of
the arming behind for ever.
-/

namespace BroadcomWl.Linux.TimerTasks

open BroadcomWl.Memory BroadcomWl.Systems

/-- The fields of `wl_timer_t`. -/
abbrev WlTimer := Timer.WlTimer

/-- `timers` and `next` are the list; `live` are the timers that are not released, `allocated` all
there ever were. `waiting` are the handlers before `WL_LOCK`, `running` is the timer whose
`t->fn` runs, `after` are the tasks behind `_wl_timer`, and `decrementing` those that have freed
themselves. -/
structure State (Id : Type*) where
  timer : Id → WlTimer
  timers : Option Id
  next : Id → Option Id
  live : Finset Id
  allocated : Finset Id
  pending : Finset Id
  waiting : Multiset Id
  running : Option Id
  after : Multiset Id
  decrementing : Multiset Id
  callbacks : ℤ
  useAfterFree : Bool

section Source

variable {Id : Type*} [DecidableEq Id]

/-- A read or write of `*t` by a handler or a task. -/
def State.touch (t : Id) (state : State Id) : State Id :=
  { state with useAfterFree := state.useAfterFree || decide (t ∉ state.live) }

def State.setTimer (state : State Id) (t : Id) (timer : WlTimer) : State Id :=
  { state with timer := Function.update state.timer t timer }

/-- `wl_init_timer`, when `MALLOC` has returned `t`. -/
def wlInitTimer (t : Id) (state : State Id) : State Id :=
  { state.setTimer t ⟨0, false, false, 0⟩ with
    next := Function.update state.next t state.timers
    timers := some t
    live := insert t state.live
    allocated := insert t state.allocated }

/-- `wl_add_timer`. -/
def wlAddTimer (hz jiffies : ℕ) (t : Id) (ms : ℕ) (periodic : Bool) (state : State Id) :
    State Id :=
  if (state.timer t).set then
    state.setTimer t { state.timer t with ms := ms, periodic := periodic }
  else
    { state.setTimer t ⟨ms, periodic, true, Timer.expiry hz jiffies ms⟩ with
      callbacks := state.callbacks + 1
      pending := insert t state.pending }

/-- `wl_del_timer`. -/
def wlDelTimer (t : Id) (state : State Id) : State Id :=
  if (state.timer t).set then
    let state := state.setTimer t { state.timer t with set := false }
    if t ∈ state.pending then
      { state with pending := state.pending.erase t, callbacks := state.callbacks - 1 }
    else state
  else state

/-- `MFREE`. -/
def State.release (t : Id) (state : State Id) : State Id :=
  { state with live := state.live.erase t }

/-- The search of `wl_free_timer` through the list, and what it does when it has found `t`. -/
def unlinkTimer (t : Id) (state : State Id) : Option (State Id) :=
  if state.timers = some t then some ({ state with timers := state.next t }.release t)
  else
    (predecessor state.next t state.live.card state.timers).map fun
      | none => state
      | some tmp =>
          { state with next := Function.update state.next tmp (state.next t) }.release t

/-- `wl_free_timer`. -/
def wlFreeTimer (t : Id) (state : State Id) : Option (State Id) :=
  unlinkTimer t (wlDelTimer t state)

/-- `wl_timer` for a kernel timer that expires; `scheduled` is false when `wl_schedule_task` gets
no memory. -/
def wlTimer (passive : Bool) (t : Id) (scheduled : Bool) (state : State Id) : State Id :=
  let state := { state.touch t with pending := state.pending.erase t }
  if !passive then { state with waiting := t ::ₘ state.waiting }
  else if scheduled then
    { state with waiting := t ::ₘ state.waiting, callbacks := state.callbacks + 1 }
  else state

/-- The end of `_wl_timer`, which is the end of the handler unless it is a task. -/
def leave (passive : Bool) (t : Id) (state : State Id) : State Id :=
  { state with
    callbacks := state.callbacks - 1
    after := if passive then t ::ₘ state.after else state.after }

/-- `_wl_timer` when it has got `WL_LOCK`, up to the call of `t->fn`. -/
def enter (passive : Bool) (hz jiffies : ℕ) (t : Id) (state : State Id) : State Id :=
  let state := { state.touch t with waiting := state.waiting.erase t }
  if (state.timer t).set ∧ t ∉ state.pending then
    if (state.timer t).periodic then
      { state.setTimer t { state.timer t with
          expires := Timer.expiry hz jiffies (state.timer t).ms, set := true } with
        callbacks := state.callbacks + 1
        pending := insert t state.pending
        running := some t }
    else { state.setTimer t { state.timer t with set := false } with running := some t }
  else leave passive t state

/-- Driver calls under `WL_LOCK`, also by the `t->fn` that runs, and the steps of the handlers.
`scheduled` tells whether the task of an expiry could be allocated. -/
inductive Label (Id : Type*) where
  | init (t : Id)
  | add (t : Id) (ms : ℕ) (periodic : Bool) (jiffies : ℕ)
  | del (t : Id)
  | free (t : Id)
  | expire (t : Id) (scheduled : Bool)
  | enter (t : Id) (jiffies : ℕ)
  | leave
  | freeTask (t : Id)
  | decCallbacks (t : Id)

/-- The driver calls are made with timers that are not released. -/
def step (passive : Bool) (hz : ℕ) (state : State Id) : Label Id → Option (State Id)
  | .init t => if t ∉ state.allocated then some (wlInitTimer t state) else none
  | .add t ms periodic jiffies =>
      if t ∈ state.live then some (wlAddTimer hz jiffies t ms periodic state) else none
  | .del t => if t ∈ state.live then some (wlDelTimer t state) else none
  | .free t => if t ∈ state.live then wlFreeTimer t state else none
  | .expire t scheduled =>
      if t ∈ state.pending then some (wlTimer passive t scheduled state) else none
  | .enter t jiffies =>
      if t ∈ state.waiting ∧ state.running = none then some (enter passive hz jiffies t state)
      else none
  | .leave =>
      match state.running with
      | none => none
      | some t => some (leave passive t { state with running := none })
  | .freeTask t =>
      if t ∈ state.after then
        some { state.touch t with
          after := state.after.erase t, decrementing := t ::ₘ state.decrementing }
      else none
  | .decCallbacks t =>
      if t ∈ state.decrementing then
        some { state.touch t with
          decrementing := state.decrementing.erase t, callbacks := state.callbacks - 1 }
      else none

/-- The driver before the first `wl_init_timer`. -/
def noTimers : State Id where
  timer _ := ⟨0, false, false, 0⟩
  timers := none
  next _ := none
  live := ∅
  allocated := ∅
  pending := ∅
  waiting := 0
  running := none
  after := 0
  decrementing := 0
  callbacks := 0
  useAfterFree := false

def machine (passive : Bool) (hz : ℕ) : Machine (State Id) (Label Id) where
  initial state := state = noTimers
  step := step passive hz

end Source

variable {Id : Type*} [DecidableEq Id]

/-! ## What the steps keep -/

/-- A pending timer is set, and what refers to a timer refers to one that was allocated. -/
structure Inv (state : State Id) : Prop where
  pending_set : ∀ t ∈ state.pending, (state.timer t).set = true
  pending_allocated : state.pending ⊆ state.allocated
  waiting_allocated : ∀ t ∈ state.waiting, t ∈ state.allocated
  live_allocated : state.live ⊆ state.allocated

theorem noTimers_inv {Id : Type*} : Inv (noTimers : State Id) := by
  constructor <;> simp [noTimers]

section Steps

variable {passive : Bool} {hz : ℕ} {state next : State Id} {t : Id}

theorem setTimer_timer_self (state : State Id) (t : Id) (timer : WlTimer) :
    (state.setTimer t timer).timer t = timer := Function.update_self ..

theorem setTimer_timer_of_ne (state : State Id) (timer : WlTimer) {u : Id} (h : u ≠ t) :
    (state.setTimer t timer).timer u = state.timer u := Function.update_of_ne h ..

/-- Writing a timer that stays set, or is not pending. -/
theorem Inv.setTimer (h : Inv state) {timer : WlTimer}
    (hset : t ∈ state.pending → timer.set = true) : Inv (state.setTimer t timer) := by
  refine ⟨fun u hu ↦ ?_, h.pending_allocated, h.waiting_allocated, h.live_allocated⟩
  by_cases hut : u = t
  · subst hut
    rw [setTimer_timer_self]
    exact hset hu
  · rw [setTimer_timer_of_ne state timer hut]
    exact h.pending_set u hu

/-- Setting a timer and making it pending. -/
theorem Inv.arm (h : Inv state) (hmem : t ∈ state.allocated) {timer : WlTimer}
    (hset : timer.set = true) (callbacks : ℤ) (running : Option Id) :
    Inv { state.setTimer t timer with
      callbacks := callbacks, pending := insert t state.pending, running := running } := by
  refine ⟨fun u hu ↦ ?_, ?_, h.waiting_allocated, h.live_allocated⟩
  · by_cases hut : u = t
    · subst hut
      change ((state.setTimer u timer).timer u).set = true
      rwa [setTimer_timer_self]
    · change ((state.setTimer t timer).timer u).set = true
      rw [setTimer_timer_of_ne state timer hut]
      exact h.pending_set u (Finset.mem_of_mem_insert_of_ne hu hut)
  · exact Finset.insert_subset hmem h.pending_allocated

theorem Inv.wlInitTimer (h : Inv state) (hnew : t ∉ state.allocated) :
    Inv (wlInitTimer t state) := by
  have hset := @Inv.setTimer _ _ _ t h ⟨0, false, false, 0⟩
    fun hmem ↦ absurd (h.pending_allocated hmem) hnew
  exact ⟨hset.pending_set, h.pending_allocated.trans (Finset.subset_insert ..),
    fun u hu ↦ Finset.mem_insert_of_mem (h.waiting_allocated u hu),
    Finset.insert_subset_insert t h.live_allocated⟩

theorem Inv.wlAddTimer (h : Inv state) (hmem : t ∈ state.allocated) (hz jiffies ms : ℕ)
    (periodic : Bool) : Inv (wlAddTimer hz jiffies t ms periodic state) := by
  unfold TimerTasks.wlAddTimer
  split
  · next hset => exact h.setTimer fun _ ↦ hset
  · exact h.arm hmem rfl _ _

theorem Inv.wlDelTimer (h : Inv state) : Inv (wlDelTimer t state) := by
  unfold TimerTasks.wlDelTimer
  split
  · dsimp only
    split
    · refine ⟨fun u hu ↦ ?_, (Finset.erase_subset ..).trans h.pending_allocated,
        h.waiting_allocated, h.live_allocated⟩
      obtain ⟨hut, hu⟩ := Finset.mem_erase.mp hu
      change ((state.setTimer t _).timer u).set = true
      rw [setTimer_timer_of_ne state _ hut]
      exact h.pending_set u hu
    · next hpending => exact h.setTimer fun hmem ↦ absurd hmem hpending
  · exact h

/-- The release of a timer changes no timer. -/
theorem unlinkTimer_frame (h : unlinkTimer t state = some next) :
    ∃ timers link live, next = { state with timers := timers, next := link, live := live } ∧
      live ⊆ state.live := by
  unfold unlinkTimer at h
  split at h
  · cases h
    exact ⟨_, _, _, rfl, Finset.erase_subset ..⟩
  · obtain ⟨found, _, hfound⟩ := Option.map_eq_some_iff.mp h
    cases found with
    | none =>
      cases hfound
      exact ⟨_, _, _, rfl, Finset.Subset.refl _⟩
    | some tmp =>
      cases hfound
      exact ⟨_, _, _, rfl, Finset.erase_subset ..⟩

theorem Inv.wlFreeTimer (h : Inv state) (hnext : wlFreeTimer t state = some next) : Inv next := by
  obtain ⟨timers, link, live, rfl, hlive⟩ := unlinkTimer_frame hnext
  have hdel := @Inv.wlDelTimer _ _ _ t h
  exact ⟨hdel.pending_set, hdel.pending_allocated, hdel.waiting_allocated,
    hlive.trans hdel.live_allocated⟩

theorem Inv.wlTimer (h : Inv state) (hmem : t ∈ state.pending) (passive scheduled : Bool) :
    Inv (wlTimer passive t scheduled state) := by
  have hpending : ∀ u ∈ state.pending.erase t, (state.timer u).set = true :=
    fun u hu ↦ h.pending_set u (Finset.mem_of_mem_erase hu)
  have hallocated : state.pending.erase t ⊆ state.allocated :=
    (Finset.erase_subset ..).trans h.pending_allocated
  have hwaiting : ∀ u ∈ t ::ₘ state.waiting, u ∈ state.allocated := by
    intro u hu
    rcases Multiset.mem_cons.mp hu with rfl | hu
    · exact h.pending_allocated hmem
    · exact h.waiting_allocated u hu
  unfold TimerTasks.wlTimer
  dsimp only
  split
  · exact ⟨hpending, hallocated, hwaiting, h.live_allocated⟩
  split
  · exact ⟨hpending, hallocated, hwaiting, h.live_allocated⟩
  · exact ⟨hpending, hallocated, h.waiting_allocated, h.live_allocated⟩

theorem Inv.enter (h : Inv state) (hmem : t ∈ state.waiting) (passive : Bool) (hz jiffies : ℕ) :
    Inv (enter passive hz jiffies t state) := by
  have hwaiting : ∀ u ∈ state.waiting.erase t, u ∈ state.allocated :=
    fun u hu ↦ h.waiting_allocated u (Multiset.mem_of_mem_erase hu)
  have htaken : Inv { state.touch t with waiting := state.waiting.erase t } :=
    ⟨h.pending_set, h.pending_allocated, hwaiting, h.live_allocated⟩
  unfold TimerTasks.enter
  dsimp only
  split
  · next htest =>
    split
    · exact htaken.arm (h.waiting_allocated t hmem) rfl _ _
    · have hdisarmed := @Inv.setTimer _ _ _ t htaken { state.timer t with set := false }
        fun hpending ↦ absurd hpending htest.2
      exact ⟨hdisarmed.pending_set, hdisarmed.pending_allocated, hdisarmed.waiting_allocated,
        hdisarmed.live_allocated⟩
  · exact ⟨h.pending_set, h.pending_allocated, hwaiting, h.live_allocated⟩

theorem step_leave_eq_some : step passive hz state .leave = some next ↔
    ∃ t, state.running = some t ∧ leave passive t { state with running := none } = next := by
  cases hrunning : state.running <;> simp [step, hrunning]

theorem Inv.step {label : Label Id} (h : Inv state)
    (hstep : step passive hz state label = some next) : Inv next := by
  cases label with
  | init t =>
    obtain ⟨hnew, hnext⟩ := Option.ite_none_right_eq_some.mp hstep
    cases hnext
    exact h.wlInitTimer hnew
  | add t ms periodic jiffies =>
    obtain ⟨hlive, hnext⟩ := Option.ite_none_right_eq_some.mp hstep
    cases hnext
    exact h.wlAddTimer (h.live_allocated hlive) ..
  | del t =>
    obtain ⟨_, hnext⟩ := Option.ite_none_right_eq_some.mp hstep
    cases hnext
    exact h.wlDelTimer
  | free t => exact h.wlFreeTimer (Option.ite_none_right_eq_some.mp hstep).2
  | expire t scheduled =>
    obtain ⟨hmem, hnext⟩ := Option.ite_none_right_eq_some.mp hstep
    cases hnext
    exact h.wlTimer hmem ..
  | enter t jiffies =>
    obtain ⟨⟨hmem, _⟩, hnext⟩ := Option.ite_none_right_eq_some.mp hstep
    cases hnext
    exact h.enter hmem ..
  | leave =>
    obtain ⟨_, _, hnext⟩ := step_leave_eq_some.mp hstep
    cases hnext
    exact ⟨h.pending_set, h.pending_allocated, h.waiting_allocated, h.live_allocated⟩
  | freeTask t =>
    obtain ⟨_, hnext⟩ := Option.ite_none_right_eq_some.mp hstep
    cases hnext
    exact ⟨h.pending_set, h.pending_allocated, h.waiting_allocated, h.live_allocated⟩
  | decCallbacks t =>
    obtain ⟨_, hnext⟩ := Option.ite_none_right_eq_some.mp hstep
    cases hnext
    exact ⟨h.pending_set, h.pending_allocated, h.waiting_allocated, h.live_allocated⟩

end Steps

/-! ## Callbacks in passive mode -/

/-- One callback for every pending timer, two for every task that has not left `_wl_timer`, one
for every task behind it. -/
def State.share (state : State Id) : ℤ :=
  state.pending.card +
    2 * (Multiset.card state.waiting + state.running.toList.length) +
    (Multiset.card state.after + Multiset.card state.decrementing)

/-- An expiry whose task could not be allocated. -/
def Label.loses : Label Id → Bool
  | .expire _ scheduled => !scheduled
  | _ => false

/-- Neither a pending timer nor a task. -/
structure Drained (state : State Id) : Prop where
  pending : state.pending = ∅
  waiting : state.waiting = 0
  running : state.running = none
  after : state.after = 0
  decrementing : state.decrementing = 0

section Callbacks

variable {hz : ℕ} {state next : State Id} {t : Id}

/-- The callbacks that nobody will give back. -/
def State.lost (state : State Id) : ℤ := state.callbacks - state.share

theorem wlAddTimer_lost (h : Inv state) (hz jiffies ms : ℕ) (periodic : Bool) :
    (wlAddTimer hz jiffies t ms periodic state).lost = state.lost := by
  unfold wlAddTimer
  split
  · rfl
  · next hset =>
    have hcard := Finset.card_insert_of_notMem fun hmem ↦ hset (h.pending_set t hmem)
    simp only [State.lost, State.share, hcard, State.setTimer]
    push_cast
    omega

theorem wlDelTimer_lost (t : Id) (state : State Id) : (wlDelTimer t state).lost = state.lost := by
  unfold wlDelTimer
  split
  · dsimp only
    split
    · next hmem =>
      have hcard := Finset.card_erase_add_one hmem
      simp only [State.lost, State.share, State.setTimer] at hcard ⊢
      omega
    · rfl
  · rfl

theorem wlFreeTimer_lost (hnext : wlFreeTimer t state = some next) : next.lost = state.lost := by
  obtain ⟨timers, link, live, rfl, _⟩ := unlinkTimer_frame hnext
  exact wlDelTimer_lost t state

theorem wlTimer_lost (hmem : t ∈ state.pending) (scheduled : Bool) :
    (wlTimer true t scheduled state).lost =
      state.lost + if (Label.expire t scheduled).loses then 1 else 0 := by
  have hcard := Finset.card_erase_add_one hmem
  cases scheduled with
  | false =>
    simp only [wlTimer, State.lost, State.share, State.touch, Label.loses, Bool.not_true,
      Bool.not_false, Bool.false_eq_true, if_false, if_true]
    omega
  | true =>
    simp only [wlTimer, State.lost, State.share, State.touch, Label.loses, Bool.not_true,
      Bool.false_eq_true, if_false, if_true, Multiset.card_cons]
    omega

theorem enter_lost (hmem : t ∈ state.waiting) (hrunning : state.running = none)
    (jiffies : ℕ) : (enter true hz jiffies t state).lost = state.lost := by
  have hcard := Multiset.card_erase_add_one hmem
  unfold enter
  dsimp only
  split
  · next htest =>
    split
    · have hinsert : (insert t state.pending).card = state.pending.card + 1 :=
        Finset.card_insert_of_notMem htest.2
      simp only [State.lost, State.share, State.setTimer, State.touch, hinsert, hrunning,
        Option.toList_some, Option.toList_none, List.length_cons, List.length_nil]
      omega
    · simp only [State.lost, State.share, State.setTimer, State.touch, hrunning,
        Option.toList_some, Option.toList_none, List.length_cons, List.length_nil]
      omega
  · simp only [State.lost, State.share, leave, State.touch, if_true, Multiset.card_cons]
    omega

/-- A step loses a callback exactly when it is an expiry without a task. -/
theorem step_lost {label : Label Id} (h : Inv state)
    (hstep : step true hz state label = some next) :
    next.lost = state.lost + if label.loses then 1 else 0 := by
  cases label with
  | init t =>
    obtain ⟨_, hnext⟩ := Option.ite_none_right_eq_some.mp hstep
    cases hnext
    exact (Int.add_zero _).symm
  | add t ms periodic jiffies =>
    obtain ⟨_, hnext⟩ := Option.ite_none_right_eq_some.mp hstep
    cases hnext
    exact (wlAddTimer_lost h ..).trans (Int.add_zero _).symm
  | del t =>
    obtain ⟨_, hnext⟩ := Option.ite_none_right_eq_some.mp hstep
    cases hnext
    exact (wlDelTimer_lost t state).trans (Int.add_zero _).symm
  | free t =>
    obtain ⟨_, hnext⟩ := Option.ite_none_right_eq_some.mp hstep
    exact (wlFreeTimer_lost hnext).trans (Int.add_zero _).symm
  | expire t scheduled =>
    obtain ⟨hmem, hnext⟩ := Option.ite_none_right_eq_some.mp hstep
    cases hnext
    exact wlTimer_lost hmem scheduled
  | enter t jiffies =>
    obtain ⟨⟨hmem, hrunning⟩, hnext⟩ := Option.ite_none_right_eq_some.mp hstep
    cases hnext
    exact (enter_lost hmem hrunning jiffies).trans (Int.add_zero _).symm
  | leave =>
    obtain ⟨t, hrunning, hnext⟩ := step_leave_eq_some.mp hstep
    cases hnext
    simp only [State.lost, State.share, leave, Label.loses, hrunning, if_true, Option.toList_some,
      Option.toList_none, List.length_cons, List.length_nil, Multiset.card_cons,
      Bool.false_eq_true, if_false]
    omega
  | freeTask t =>
    obtain ⟨hmem, hnext⟩ := Option.ite_none_right_eq_some.mp hstep
    cases hnext
    have hcard := Multiset.card_erase_add_one hmem
    simp only [State.lost, State.share, State.touch, Label.loses, Multiset.card_cons,
      Bool.false_eq_true, if_false]
    omega
  | decCallbacks t =>
    obtain ⟨hmem, hnext⟩ := Option.ite_none_right_eq_some.mp hstep
    cases hnext
    have hcard := Multiset.card_erase_add_one hmem
    simp only [State.lost, State.share, State.touch, Label.loses, Bool.false_eq_true, if_false]
    omega

/-- A run loses one callback for every expiry without a task. -/
theorem run_lost {labels : List (Label Id)} (h : Inv state)
    (hrun : (machine true hz).run state labels = some next) :
    next.lost = state.lost + labels.countP Label.loses := by
  induction labels generalizing state with
  | nil =>
    cases hrun
    exact (Int.add_zero _).symm
  | cons label labels ih =>
    obtain ⟨middle, hmiddle, hrest⟩ := Machine.run_cons_eq_some.mp hrun
    have hstep := step_lost h hmiddle
    have hcount := ih (h.step hmiddle) hrest
    cases hloses : label.loses with
    | false =>
      rw [hloses, if_neg Bool.false_ne_true] at hstep
      rw [List.countP_cons_of_neg (Bool.not_eq_true _ ▸ hloses)]
      omega
    | true =>
      rw [hloses, if_pos rfl] at hstep
      rw [List.countP_cons_of_pos hloses]
      push_cast
      omega

theorem Drained.share_eq_zero {Id : Type*} {state : State Id} (h : Drained state) :
    state.share = 0 := by
  simp [State.share, h.pending, h.waiting, h.running, h.after, h.decrementing]

/-- The callbacks are those of the pending timers and the tasks if and only if no expiry so far
was without a task, and when neither is left, `wl_free` stops waiting for them if and only if
that is so. -/
theorem passive_callbacks_drain_iff {labels : List (Label Id)}
    (hrun : (machine true hz).run noTimers labels = some state) :
    (state.callbacks = state.share ↔ ∀ label ∈ labels, label.loses = false) ∧
      (Drained state →
        (state.callbacks = 0 ↔ ∀ label ∈ labels, label.loses = false) ∧
          (¬0 < state.callbacks ↔ ∀ label ∈ labels, label.loses = false)) := by
  have hlost := run_lost noTimers_inv hrun
  have hnone : labels.countP Label.loses = 0 ↔ ∀ label ∈ labels, label.loses = false := by
    simp only [List.countP_eq_zero, Bool.not_eq_true]
  have hstart : (noTimers : State Id).lost = 0 := rfl
  rw [hstart, Int.zero_add, State.lost] at hlost
  rw [← hnone]
  refine ⟨by omega, fun hdrained ↦ ?_⟩
  rw [hdrained.share_eq_zero] at hlost
  constructor <;> omega

end Callbacks

/-- A timer is armed and expires, and its task runs to its end. -/
def oneTask : List (Label ℕ) :=
  [.init 7, .add 7 50 false 0, .expire 7 true, .enter 7 5, .leave, .freeTask 7, .decCallbacks 7]

theorem passive_callbacks_drain_one_task :
    ∃ state, (machine true 100).run noTimers oneTask = some state ∧ Drained state ∧
      state.callbacks = 0 ∧ ¬0 < state.callbacks := by
  refine ⟨_, rfl, ⟨rfl, rfl, rfl, rfl, rfl⟩, ?_⟩
  have hall : ∀ label ∈ oneTask, label.loses = false := by decide
  obtain ⟨hzero, hended⟩ := (@passive_callbacks_drain_iff ℕ _ 100 _ oneTask rfl).2
    ⟨rfl, rfl, rfl, rfl, rfl⟩
  exact ⟨hzero.mpr hall, hended.mpr hall⟩

/-- One expiry without a task leaves a callback, and nothing that would give it back. -/
theorem lost_expiry_keeps_callback :
    ∃ state, (machine true 100).run noTimers
        [.init 7, .add 7 50 false 0, .expire 7 false] = some state ∧
      Drained state ∧ state.callbacks = 1 ∧ state.share = 0 ∧ 0 < state.callbacks :=
  ⟨_, rfl, ⟨rfl, rfl, rfl, rfl, rfl⟩, rfl, rfl, by decide⟩

end BroadcomWl.Linux.TimerTasks
