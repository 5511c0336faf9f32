import BroadcomWl.Systems.Machine
import Mathlib.Data.Int.Order.Basic
import Mathlib.Data.Multiset.AddSub
import Mathlib.Tactic.Common

/-!
# Deferred work and teardown in passive mode

In passive mode four kinds of work run on the system work queue: the multicast work item,
the DPC, the transmit queue worker, and the tasks that `wl_schedule_task` allocates. Each
is counted in `wl->callbacks`, and `wl_free` waits until the counter is not positive before
it releases the structures that work items use.

A work item is queued, or it runs and has steps left. The work queue never runs one item
twice at a time, but may run an item as soon as `schedule_work` has returned, before the
caller has incremented the counter. `WL_LOCK` only restricts the schedules further and is
not modelled; `TXQ_LOCK` is held by `wl_start` from `schedule_work` to the increment, so the
worker's critical sections wait for it. Timers enter as the number of armings that are
counted; arming, deletion and the decrement in `_wl_timer` change it at any time.
-/

namespace BroadcomWl.Linux.DeferredWork

open BroadcomWl.Systems

/-! ## Work items -/

/-- One `struct work_struct`: whether it is queued, and where its handler is. -/
structure Work (Pc : Type*) where
  pending : Bool
  running : Option Pc

namespace Work

variable {Pc : Type*}

/-- One when the item is queued or its handler has steps left. -/
def items (work : Work Pc) : ℕ := (work.pending || work.running.isSome).toNat

/-- One when the item is queued again while its handler has steps left. -/
def overlap (work : Work Pc) : ℕ := (work.pending && work.running.isSome).toNat

/-- One when the handler has steps left for which it no longer holds a count. -/
def uncounted (tail : Pc → Bool) (work : Work Pc) : ℕ := (work.running.any tail).toNat

/-- The counts that the queued item and its handler hold. -/
def counts (tail : Pc → Bool) (work : Work Pc) : ℕ :=
  work.pending.toNat + (work.running.any fun pc ↦ !tail pc).toNat

def idle : Work Pc := ⟨false, none⟩

/-- `schedule_work` of an item that is not queued. -/
def schedule (work : Work Pc) : Work Pc := { work with pending := true }

/-- The work queue starts the handler. -/
def start (first : Pc) (work : Work Pc) : Option (Work Pc) :=
  match work.pending, work.running with
  | true, none => some ⟨false, some first⟩
  | _, _ => none

/-- The handler moves on, or returns. -/
def move (work : Work Pc) (running : Option Pc) : Work Pc := { work with running := running }

end Work

/-- `wl_set_multicast_list_workitem`: before its decrement, and before `_wl_set_multicast_list`. -/
inductive MulticastPc where
  | decrement
  | setMulticastList
deriving DecidableEq

/-- `wl_dpc`: before its body, before `wl_intrson`, and before `WL_UNLOCK`. -/
inductive DpcPc where
  | body
  | intrson
  | unlock
deriving DecidableEq

/-- `wl_start_txqwork`: before a critical section, before `wl_start_int`, and before the last
`TXQ_UNLOCK`. -/
inductive TxqPc where
  | loop
  | startInt
  | unlock
deriving DecidableEq

/-- The functions given to `wl_schedule_task`. -/
inductive TaskFn where
  | timerTask
  | addMonitorIf
  | delMonitor
deriving DecidableEq

/-- A task is queued, in the body of its function, before `MFREE`, or before its decrement. -/
inductive TaskPc where
  | queued
  | body
  | free
  | decrement
deriving DecidableEq

def MulticastPc.tail : MulticastPc → Bool
  | .decrement => false
  | .setMulticastList => true

def DpcPc.tail : DpcPc → Bool
  | .body => false
  | _ => true

def TxqPc.tail : TxqPc → Bool
  | .unlock => true
  | _ => false

/-- The counter, the work items, and for each kind the callers that are between a successful
`schedule_work` and their increment. `armed` are the timer armings that are counted, `leaked` the
counts that nothing will give back. `released` is set when the wait loop of `wl_free` has ended,
`useAfterFree` when a work item takes a step after that. -/
structure State where
  callbacks : ℤ
  multicast : Work MulticastPc
  multicastWindow : ℕ
  dpc : Work DpcPc
  dpcWindow : ℕ
  txq : Work TxqPc
  txqWindow : Bool
  txqDispatched : Bool
  tasks : Multiset (TaskFn × TaskPc)
  taskWindow : ℕ
  armed : ℕ
  leaked : ℕ
  released : Bool
  useAfterFree : Bool

/-- A step of a work item uses `wl` or its net device. -/
def State.touch (state : State) : State :=
  { state with useAfterFree := state.useAfterFree || state.released }

/-- What the body of `wl_dpc` finds: the device down, more to do, or nothing more to do. -/
inductive DpcOutcome where
  | down
  | resched
  | finished
deriving DecidableEq

/-- The body of `wl_dpc`. A rescheduled DPC takes over the count of the running one; when
`schedule_work` fails the count is given back by nobody. -/
def runDpc (outcome : DpcOutcome) (state : State) : State :=
  match outcome with
  | .down =>
      { state with callbacks := state.callbacks - 1, dpc := state.dpc.move (some .unlock) }
  | .finished =>
      { state with callbacks := state.callbacks - 1, dpc := state.dpc.move (some .intrson) }
  | .resched =>
      if state.dpc.pending then
        { state with leaked := state.leaked + 1, dpc := state.dpc.move (some .unlock) }
      else { state with dpc := (state.dpc.move (some .unlock)).schedule }

/-- One critical section of `wl_start_txqwork`; `more` tells whether a packet waits. -/
def txqSection (more : Bool) (state : State) : State :=
  if more then { state with txq := state.txq.move (some .startInt) }
  else
    { state with
      callbacks := state.callbacks - 1
      txqDispatched := false
      txq := state.txq.move (some .unlock) }

/-- The next place of a task; its last step is the decrement. -/
def TaskPc.next : TaskPc → Option TaskPc
  | .queued => some .body
  | .body => some .free
  | .free => some .decrement
  | .decrement => none

/-- A task takes its next step. -/
def taskStep (fn : TaskFn) (pc : TaskPc) (state : State) : State :=
  match pc.next with
  | some next => { state with tasks := (fn, next) ::ₘ state.tasks.erase (fn, pc) }
  | none =>
      { state with
        callbacks := state.callbacks - 1
        tasks := state.tasks.erase (fn, pc) }

/-- `schedule…` is a successful `schedule_work` by `wl_set_multicast_list`, `wl_isr`, `wl_start` or
`wl_schedule_task`, `inc…` the increment that follows it; the work queue starts items, and their
handlers take steps. `timerInc` and `timerDec` are counted armings that come and go, `waitDone` is
the end of the wait loop. -/
inductive Label where
  | scheduleMulticast
  | incMulticast
  | startMulticast
  | decMulticast
  | setMulticastList
  | scheduleDpc
  | incDpc
  | startDpc
  | runDpc (outcome : DpcOutcome)
  | intrson
  | unlockDpc
  | scheduleTxq
  | incTxq
  | startTxq
  | txqSection (more : Bool)
  | startInt
  | unlockTxq
  | scheduleTask (fn : TaskFn)
  | incTask
  | task (fn : TaskFn) (pc : TaskPc)
  | timerInc
  | timerDec
  | waitDone
deriving DecidableEq

/-- Nothing is scheduled once the structures are released. -/
def step (state : State) : Label → Option State
  | .scheduleMulticast =>
      if state.released ∨ state.multicast.pending then none
      else some { state with
        multicast := state.multicast.schedule
        multicastWindow := state.multicastWindow + 1 }
  | .incMulticast =>
      match state.multicastWindow with
      | window + 1 =>
          some { state with callbacks := state.callbacks + 1, multicastWindow := window }
      | 0 => none
  | .startMulticast =>
      (state.multicast.start .decrement).map fun multicast ↦
        { state.touch with multicast := multicast }
  | .decMulticast =>
      match state.multicast.running with
      | some .decrement =>
          some { state.touch with
            callbacks := state.callbacks - 1
            multicast := state.multicast.move (some .setMulticastList) }
      | _ => none
  | .setMulticastList =>
      match state.multicast.running with
      | some .setMulticastList =>
          some { state.touch with multicast := state.multicast.move none }
      | _ => none
  | .scheduleDpc =>
      if state.released ∨ state.dpc.pending then none
      else some { state with dpc := state.dpc.schedule, dpcWindow := state.dpcWindow + 1 }
  | .incDpc =>
      match state.dpcWindow with
      | window + 1 => some { state with callbacks := state.callbacks + 1, dpcWindow := window }
      | 0 => none
  | .startDpc => (state.dpc.start .body).map fun dpc ↦ { state.touch with dpc := dpc }
  | .runDpc outcome =>
      match state.dpc.running with
      | some .body => some (runDpc outcome state.touch)
      | _ => none
  | .intrson =>
      match state.dpc.running with
      | some .intrson => some { state.touch with dpc := state.dpc.move (some .unlock) }
      | _ => none
  | .unlockDpc =>
      match state.dpc.running with
      | some .unlock => some { state.touch with dpc := state.dpc.move none }
      | _ => none
  | .scheduleTxq =>
      if state.released ∨ state.txq.pending ∨ state.txqDispatched ∨ state.txqWindow ∨
          state.txq.running = some .unlock then none
      else some { state with txq := state.txq.schedule, txqWindow := true }
  | .incTxq =>
      if state.txqWindow then
        some { state with
          callbacks := state.callbacks + 1, txqWindow := false, txqDispatched := true }
      else none
  | .startTxq => (state.txq.start .loop).map fun txq ↦ { state.touch with txq := txq }
  | .txqSection more =>
      match state.txq.running, state.txqWindow with
      | some .loop, false => some (txqSection more state.touch)
      | _, _ => none
  | .startInt =>
      match state.txq.running with
      | some .startInt => some { state.touch with txq := state.txq.move (some .loop) }
      | _ => none
  | .unlockTxq =>
      match state.txq.running with
      | some .unlock => some { state.touch with txq := state.txq.move none }
      | _ => none
  | .scheduleTask fn =>
      if state.released then none
      else some { state with
        tasks := (fn, .queued) ::ₘ state.tasks, taskWindow := state.taskWindow + 1 }
  | .incTask =>
      match state.taskWindow with
      | window + 1 => some { state with callbacks := state.callbacks + 1, taskWindow := window }
      | 0 => none
  | .task fn pc =>
      if (fn, pc) ∈ state.tasks then some (taskStep fn pc state.touch) else none
  | .timerInc =>
      some { state with callbacks := state.callbacks + 1, armed := state.armed + 1 }
  | .timerDec =>
      match state.armed with
      | armed + 1 => some { state with callbacks := state.callbacks - 1, armed := armed }
      | 0 => none
  | .waitDone =>
      if state.released ∨ 0 < state.callbacks then none
      else some { state with released := true }

/-- The state after `wl_attach`. -/
def attached : State where
  callbacks := 0
  multicast := .idle
  multicastWindow := 0
  dpc := .idle
  dpcWindow := 0
  txq := .idle
  txqWindow := false
  txqDispatched := false
  tasks := 0
  taskWindow := 0
  armed := 0
  leaked := 0
  released := false
  useAfterFree := false

def machine : Machine State Label where
  initial state := state = attached
  step := step

/-! ## Accounting -/

/-- The work items that are queued or have a step left. -/
def State.items (state : State) : ℕ :=
  state.multicast.items + state.dpc.items + state.txq.items + Multiset.card state.tasks

/-- The items that are queued again while their handler has a step left. -/
def State.overlaps (state : State) : ℕ :=
  state.multicast.overlap + state.dpc.overlap + state.txq.overlap

/-- The callers between `schedule_work` and their increment. -/
def State.windows (state : State) : ℕ :=
  state.multicastWindow + state.dpcWindow + state.txqWindow.toNat + state.taskWindow

/-- The handlers with steps left that no longer hold a count. -/
def State.tails (state : State) : ℕ :=
  state.multicast.uncounted MulticastPc.tail + state.dpc.uncounted DpcPc.tail +
    state.txq.uncounted TxqPc.tail

/-- The counts that queued items and handlers hold; a task holds its count to its last step. -/
def State.counts (state : State) : ℕ :=
  state.multicast.counts MulticastPc.tail + state.dpc.counts DpcPc.tail +
    state.txq.counts TxqPc.tail + Multiset.card state.tasks

/-- Every count that is held has been taken, or will be by a caller of `schedule_work`. -/
def Balanced (state : State) : Prop :=
  state.callbacks + state.windows = state.counts + state.armed + state.leaked

/-- The callers and handlers whose item is not counted are no more than the counts in excess of
the items. -/
def Covered (state : State) : Prop :=
  state.windows + state.tails ≤ state.overlaps + state.armed + state.leaked

instance (state : State) : Decidable (Covered state) := inferInstanceAs (Decidable (_ ≤ _))

namespace Work

variable {Pc : Type*} {tail : Pc → Bool} {work : Work Pc}

theorem counts_add_uncounted (tail : Pc → Bool) (work : Work Pc) :
    work.counts tail + work.uncounted tail = work.items + work.overlap := by
  obtain ⟨pending, running⟩ := work
  cases running with
  | none => cases pending <;> rfl
  | some pc =>
    unfold counts uncounted items overlap
    cases pending <;> cases htail : tail pc <;> simp [htail]

/-- A queued item holds a count, whatever its handler does. -/
theorem overlap_le_counts (tail : Pc → Bool) (work : Work Pc) :
    work.overlap ≤ work.counts tail := by
  unfold overlap counts
  cases work.pending with
  | false => exact Nat.zero_le _
  | true => exact (Bool.toNat_le _).trans (Nat.le_add_right ..)

theorem counts_schedule (h : work.pending = false) :
    work.schedule.counts tail = work.counts tail + 1 := by
  unfold schedule counts
  rw [h]
  simp only [Bool.toNat_true, Bool.toNat_false]
  omega

/-- A handler that starts with its count takes over that of the queued item. -/
theorem counts_start {first : Pc} {started : Work Pc} (h : work.start first = some started)
    (hfirst : tail first = false) : started.counts tail = work.counts tail := by
  obtain ⟨pending, running⟩ := work
  cases pending <;> cases running <;> cases h
  simp [counts, hfirst]

theorem items_of_start {first : Pc} {started : Work Pc} (h : work.start first = some started) :
    work.items = 1 := by
  obtain ⟨pending, running⟩ := work
  cases pending <;> cases running <;> cases h
  rfl

theorem items_of_running {pc : Pc} (h : work.running = some pc) : work.items = 1 := by
  unfold items
  rw [h, Option.isSome_some, Bool.or_true, Bool.toNat_true]

theorem counts_of_running {pc : Pc} (h : work.running = some pc) :
    work.counts tail = work.pending.toNat + (!tail pc).toNat := by
  rw [counts, h, Option.any_some]

@[simp]
theorem counts_move_some (pc : Pc) :
    (work.move (some pc)).counts tail = work.pending.toNat + (!tail pc).toNat := rfl

@[simp]
theorem counts_move_none : (work.move none).counts tail = work.pending.toNat := rfl

end Work

theorem attached_balanced : Balanced attached := rfl

theorem runDpc_balanced {state : State} (outcome : DpcOutcome) (h : Balanced state)
    (hrun : state.dpc.running = some .body) : Balanced (runDpc outcome state) := by
  unfold Balanced State.windows State.counts at h ⊢
  rw [Work.counts_of_running hrun] at h
  simp only [DpcPc.tail, Bool.not_false, Bool.toNat_true] at h
  cases outcome with
  | down =>
    simp only [runDpc, Work.counts_move_some, DpcPc.tail, Bool.not_true, Bool.toNat_false]
    omega
  | finished =>
    simp only [runDpc, Work.counts_move_some, DpcPc.tail, Bool.not_true, Bool.toNat_false]
    omega
  | resched =>
    unfold runDpc
    dsimp only
    split
    · simp only [Work.counts_move_some, DpcPc.tail, Bool.not_true, Bool.toNat_false]
      omega
    · rename_i hpending
      have hfalse : (state.dpc.move (some .unlock)).pending = false :=
        Bool.eq_false_iff.mpr hpending
      rw [Work.counts_schedule hfalse]
      simp only [Work.counts_move_some, DpcPc.tail, Bool.not_true, Bool.toNat_false]
      omega

theorem txqSection_balanced {state : State} (more : Bool) (h : Balanced state)
    (hrun : state.txq.running = some .loop) : Balanced (txqSection more state) := by
  unfold Balanced State.windows State.counts at h ⊢
  rw [Work.counts_of_running hrun] at h
  simp only [TxqPc.tail, Bool.not_false, Bool.toNat_true] at h
  cases more with
  | true =>
    simp only [txqSection, if_true, Work.counts_move_some, TxqPc.tail, Bool.not_false,
      Bool.toNat_true]
    omega
  | false =>
    simp only [txqSection, Bool.false_eq_true, if_false, Work.counts_move_some, TxqPc.tail,
      Bool.not_true, Bool.toNat_false]
    omega

theorem taskStep_balanced {state : State} {fn : TaskFn} {pc : TaskPc} (h : Balanced state)
    (hmem : (fn, pc) ∈ state.tasks) : Balanced (taskStep fn pc state) := by
  have hcard := Multiset.card_erase_add_one hmem
  unfold Balanced State.windows State.counts at h ⊢
  unfold taskStep
  cases pc.next with
  | some next =>
    simp only [Multiset.card_cons]
    omega
  | none =>
    dsimp only
    omega

/-- A step that leaves the counter and every count as they were keeps the balance. -/
theorem Balanced.of_counts {state next : State} (h : Balanced state)
    (hcallbacks : next.callbacks = state.callbacks) (hwindows : next.windows = state.windows)
    (hcounts : next.counts = state.counts)
    (hother : next.armed = state.armed ∧ next.leaked = state.leaked) : Balanced next := by
  unfold Balanced
  rw [hcallbacks, hwindows, hcounts, hother.1, hother.2]
  exact h

/-- A handler that starts takes over the count of its item. -/
theorem start_balanced {state next : State} {label : Label} (h : Balanced state)
    (hstart : label = .startMulticast ∨ label = .startDpc ∨ label = .startTxq)
    (hstep : step state label = some next) : Balanced next := by
  rcases hstart with rfl | rfl | rfl
  all_goals
    obtain ⟨work, hwork, hnext⟩ := Option.map_eq_some_iff.mp hstep
    subst hnext
    refine h.of_counts rfl rfl ?_ ⟨rfl, rfl⟩
    unfold State.counts
    rw [← Work.counts_start hwork rfl]
    rfl

/-- Scheduling opens a window for the count of the queued item, the increment closes it, and a
handler gives up its count in the step that decrements the counter. -/
theorem step_balanced {state next : State} {label : Label} (h : Balanced state)
    (hstep : step state label = some next) : Balanced next := by
  cases label with
  | scheduleMulticast | scheduleDpc =>
    obtain ⟨hguard, hnext⟩ := Option.ite_none_left_eq_some.mp hstep
    cases hnext
    simp only [not_or, Bool.not_eq_true] at hguard
    unfold Balanced State.windows State.counts at h ⊢
    simp only [Work.counts_schedule hguard.2]
    omega
  | scheduleTxq =>
    obtain ⟨hguard, hnext⟩ := Option.ite_none_left_eq_some.mp hstep
    cases hnext
    simp only [not_or, Bool.not_eq_true] at hguard
    obtain ⟨_, hpending, _, hwindow, _⟩ := hguard
    unfold Balanced State.windows State.counts at h ⊢
    simp only [Work.counts_schedule hpending, hwindow, Bool.toNat_true, Bool.toNat_false] at h ⊢
    omega
  | scheduleTask fn =>
    obtain ⟨_, hnext⟩ := Option.ite_none_left_eq_some.mp hstep
    cases hnext
    unfold Balanced State.windows State.counts at h ⊢
    simp only [Multiset.card_cons]
    omega
  | incMulticast | incDpc | incTask | timerDec =>
    simp only [step] at hstep
    split at hstep <;> cases hstep
    rename_i hwindow
    unfold Balanced State.windows State.counts at h ⊢
    simp only [hwindow] at h ⊢
    omega
  | incTxq =>
    obtain ⟨hwindow, hnext⟩ := Option.ite_none_right_eq_some.mp hstep
    cases hnext
    unfold Balanced State.windows State.counts at h ⊢
    simp only [hwindow, Bool.toNat_true, Bool.toNat_false] at h ⊢
    omega
  | startMulticast | startDpc | startTxq => exact start_balanced h (by simp) hstep
  | decMulticast | setMulticastList | intrson | unlockDpc | startInt | unlockTxq =>
    simp only [step] at hstep
    split at hstep <;> cases hstep
    rename_i hrun
    unfold Balanced State.windows State.counts at h ⊢
    simp only [Work.counts_of_running hrun, State.touch, Work.counts_move_some,
      Work.counts_move_none, MulticastPc.tail, DpcPc.tail, TxqPc.tail, Bool.not_false,
      Bool.not_true, Bool.toNat_true, Bool.toNat_false] at h ⊢
    omega
  | runDpc outcome =>
    simp only [step] at hstep
    split at hstep <;> cases hstep
    rename_i hrun
    exact @runDpc_balanced state.touch outcome h hrun
  | txqSection more =>
    simp only [step] at hstep
    split at hstep <;> cases hstep
    rename_i hrun _
    exact @txqSection_balanced state.touch more h hrun
  | task fn pc =>
    obtain ⟨hmem, hnext⟩ := Option.ite_none_right_eq_some.mp hstep
    cases hnext
    exact @taskStep_balanced state.touch fn pc h hmem
  | timerInc =>
    cases hstep
    unfold Balanced State.windows State.counts at h ⊢
    push_cast
    omega
  | waitDone =>
    obtain ⟨_, hnext⟩ := Option.ite_none_left_eq_some.mp hstep
    cases hnext
    exact h

theorem reachable_balanced {state : State} (h : machine.Reachable state) : Balanced state := by
  refine h.invariant ?_ ?_
  · intro state hstate
    subst hstate
    exact attached_balanced
  · intro state label next hstate hstep
    exact step_balanced hstate hstep

theorem counts_add_tails (state : State) :
    state.counts + state.tails = state.items + state.overlaps := by
  have hmulticast := state.multicast.counts_add_uncounted MulticastPc.tail
  have hdpc := state.dpc.counts_add_uncounted DpcPc.tail
  have htxq := state.txq.counts_add_uncounted TxqPc.tail
  unfold State.counts State.tails State.items State.overlaps
  omega

/-- The counter covers the items exactly where the uncounted callers and handlers are covered. -/
theorem items_le_callbacks_iff {state : State} (h : Balanced state) :
    (state.items : ℤ) ≤ state.callbacks ↔ Covered state := by
  have hcounts := counts_add_tails state
  unfold Balanced at h
  unfold Covered
  omega

/-! ## After the wait loop -/

/-- The steps of the work queue and of its handlers. -/
def Label.ofItem : Label → Bool
  | .startMulticast | .decMulticast | .setMulticastList | .startDpc | .runDpc _ | .intrson
  | .unlockDpc | .startTxq | .txqSection _ | .startInt | .unlockTxq | .task _ _ => true
  | _ => false

theorem runDpc_flags (outcome : DpcOutcome) (state : State) :
    (runDpc outcome state).released = state.released ∧
      (runDpc outcome state).useAfterFree = state.useAfterFree := by
  cases outcome with
  | down | finished => exact ⟨rfl, rfl⟩
  | resched =>
    unfold runDpc
    dsimp only
    split <;> exact ⟨rfl, rfl⟩

theorem txqSection_flags (more : Bool) (state : State) :
    (txqSection more state).released = state.released ∧
      (txqSection more state).useAfterFree = state.useAfterFree := by
  cases more <;> exact ⟨rfl, rfl⟩

theorem taskStep_flags (fn : TaskFn) (pc : TaskPc) (state : State) :
    (taskStep fn pc state).released = state.released ∧
      (taskStep fn pc state).useAfterFree = state.useAfterFree := by
  unfold taskStep
  cases pc.next <;> exact ⟨rfl, rfl⟩

/-- A step of a work item is a use, and leaves `released` as it is. -/
theorem flags_of_ofItem {state next : State} {label : Label} (hitem : label.ofItem = true)
    (hstep : step state label = some next) :
    next.released = state.released ∧
      next.useAfterFree = (state.useAfterFree || state.released) := by
  cases label with
  | startMulticast | startDpc | startTxq =>
    obtain ⟨_, _, hnext⟩ := Option.map_eq_some_iff.mp hstep
    subst hnext
    exact ⟨rfl, rfl⟩
  | decMulticast | setMulticastList | intrson | unlockDpc | startInt | unlockTxq =>
    simp only [step] at hstep
    split at hstep <;> cases hstep
    exact ⟨rfl, rfl⟩
  | runDpc outcome =>
    simp only [step] at hstep
    split at hstep <;> cases hstep
    exact runDpc_flags outcome state.touch
  | txqSection more =>
    simp only [step] at hstep
    split at hstep <;> cases hstep
    exact txqSection_flags more state.touch
  | task fn pc =>
    obtain ⟨_, hnext⟩ := Option.ite_none_right_eq_some.mp hstep
    cases hnext
    exact taskStep_flags fn pc state.touch
  | _ => cases hitem

/-- Only a work item that is queued or has a step left takes a step. -/
theorem items_pos_of_ofItem {state next : State} {label : Label} (hitem : label.ofItem = true)
    (hstep : step state label = some next) : 0 < state.items := by
  unfold State.items
  cases label with
  | startMulticast | startDpc | startTxq =>
    obtain ⟨_, hstart, _⟩ := Option.map_eq_some_iff.mp hstep
    have hitems := Work.items_of_start hstart
    omega
  | decMulticast | setMulticastList | runDpc | intrson | unlockDpc | txqSection | startInt
  | unlockTxq =>
    simp only [step] at hstep
    split at hstep <;> cases hstep
    have hitems := Work.items_of_running ‹_ = some _›
    omega
  | task fn pc =>
    obtain ⟨hmem, _⟩ := Option.ite_none_right_eq_some.mp hstep
    have hcard := Multiset.card_pos_iff_exists_mem.mpr ⟨_, hmem⟩
    omega
  | _ => cases hitem

/-- The other steps use nothing; after the release they schedule nothing. -/
theorem items_of_not_ofItem {state next : State} {label : Label} (hitem : label.ofItem = false)
    (hstep : step state label = some next) :
    next.useAfterFree = state.useAfterFree ∧
      (label ≠ .waitDone → next.released = state.released) ∧
      (state.released = true ∨ label = .waitDone → next.items = state.items) := by
  cases label with
  | scheduleMulticast | scheduleDpc | scheduleTxq =>
    obtain ⟨hguard, hnext⟩ := Option.ite_none_left_eq_some.mp hstep
    cases hnext
    exact ⟨rfl, fun _ ↦ rfl, fun h ↦ absurd (Or.inl (h.resolve_right nofun)) hguard⟩
  | scheduleTask fn =>
    obtain ⟨hguard, hnext⟩ := Option.ite_none_left_eq_some.mp hstep
    cases hnext
    exact ⟨rfl, fun _ ↦ rfl, fun h ↦ absurd (h.resolve_right nofun) hguard⟩
  | incMulticast | incDpc | incTask | timerDec =>
    simp only [step] at hstep
    split at hstep <;> cases hstep
    exact ⟨rfl, fun _ ↦ rfl, fun _ ↦ rfl⟩
  | incTxq =>
    obtain ⟨_, hnext⟩ := Option.ite_none_right_eq_some.mp hstep
    cases hnext
    exact ⟨rfl, fun _ ↦ rfl, fun _ ↦ rfl⟩
  | timerInc =>
    cases hstep
    exact ⟨rfl, fun _ ↦ rfl, fun _ ↦ rfl⟩
  | waitDone =>
    obtain ⟨_, hnext⟩ := Option.ite_none_left_eq_some.mp hstep
    cases hnext
    exact ⟨rfl, fun h ↦ absurd rfl h, fun _ ↦ rfl⟩
  | _ => cases hitem

/-- Nothing was used after the release, and no work item is left that could be. -/
structure Quiet (state : State) : Prop where
  useAfterFree : state.useAfterFree = false
  items : state.released = true → state.items = 0

theorem step_quiet {state next : State} {label : Label} (h : Quiet state)
    (hexit : label = .waitDone → state.items = 0) (hstep : step state label = some next) :
    Quiet next := by
  cases hitem : label.ofItem with
  | true =>
    have hpos := items_pos_of_ofItem hitem hstep
    have hreleased : state.released = false := by
      refine Bool.eq_false_iff.mpr fun hreleased ↦ ?_
      have hitems := h.items hreleased
      omega
    obtain ⟨hreleased', huse⟩ := flags_of_ofItem hitem hstep
    refine ⟨?_, fun hnext ↦ ?_⟩
    · rw [huse, h.useAfterFree, hreleased, Bool.or_false]
    · rw [hreleased', hreleased] at hnext
      cases hnext
  | false =>
    obtain ⟨huse, hreleased, hitems⟩ := items_of_not_ofItem hitem hstep
    refine ⟨huse.trans h.useAfterFree, fun hnext ↦ ?_⟩
    by_cases hwait : label = .waitDone
    · rw [hitems (.inr hwait), hexit hwait]
    · have hstate : state.released = true := (hreleased hwait).symm.trans hnext
      rw [hitems (.inl hstate), h.items hstate]

/-- The wait loop ends only where every uncounted caller and handler is covered. -/
def exitsCovered (state : State) (label : Label) : Prop := label = .waitDone → Covered state

instance (state : State) (label : Label) : Decidable (exitsCovered state label) :=
  inferInstanceAs (Decidable (_ → _))

/-- Where the counter covers the items, the wait loop ends with no item left. -/
theorem items_eq_zero_of_waitDone {state next : State} (hle : (state.items : ℤ) ≤ state.callbacks)
    (hstep : step state .waitDone = some next) : state.items = 0 := by
  obtain ⟨hguard, _⟩ := Option.ite_none_left_eq_some.mp hstep
  have hcallbacks := (not_or.mp hguard).2
  omega

theorem restrict_quiet {state : State} (h : (machine.restrict exitsCovered).Reachable state) :
    Quiet state := by
  let invariant := fun state ↦ Balanced state ∧ Quiet state
  have hinvariant : invariant state := by
    refine h.invariant ?_ ?_
    · intro state hstate
      subst hstate
      exact ⟨attached_balanced, rfl, nofun⟩
    · intro state label next hstate hnext
      obtain ⟨hexit, hstep⟩ := Machine.restrict_step_eq_some.mp hnext
      refine ⟨step_balanced hstate.1 hstep, step_quiet hstate.2 (fun hwait ↦ ?_) hstep⟩
      have hle := (items_le_callbacks_iff hstate.1).mpr (hexit hwait)
      subst hwait
      exact items_eq_zero_of_waitDone hle hstep
  exact hinvariant.2

/-- `wl->callbacks` is at least the number of the items exactly where the callers that have not yet
incremented it, and the handlers that have already decremented it, are no more than the counts
of timers, of failed reschedules and of items that are both queued and running. When the wait loop
ends only at such a point, no work item uses what is released. -/
theorem teardown_quiescence (state : State) :
    (machine.Reachable state → ((state.items : ℤ) ≤ state.callbacks ↔ Covered state)) ∧
      ((machine.restrict exitsCovered).Reachable state → state.useAfterFree = false) :=
  ⟨fun h ↦ items_le_callbacks_iff (reachable_balanced h), fun h ↦ (restrict_quiet h).useAfterFree⟩

/-- One multicast item: queued and counted, the handler decrements the counter before its last
step, so the wait loop may end, and the last step uses what is released. -/
theorem teardown_quiescence_multicast :
    ∃ decremented used,
      machine.run attached [.scheduleMulticast, .incMulticast, .startMulticast, .decMulticast] =
          some decremented ∧
        decremented.callbacks < decremented.items ∧
        machine.run decremented [.waitDone, .setMulticastList] = some used ∧
        used.useAfterFree = true :=
  ⟨_, _, rfl, by decide, rfl, rfl⟩

/-- A monitor task runs to its end before the wait loop ends; its last step is the decrement. -/
theorem teardown_quiescence_monitor_task :
    ∃ exited,
      (machine.restrict exitsCovered).run attached [.scheduleTask .delMonitor, .incTask,
          .task .delMonitor .queued, .task .delMonitor .body, .task .delMonitor .free,
          .task .delMonitor .decrement, .waitDone] = some exited ∧
        exited.released = true ∧ ((exited.items : ℤ) ≤ exited.callbacks ↔ Covered exited) ∧
        exited.useAfterFree = false := by
  have hexited : (machine.restrict exitsCovered).Reachable
      { attached with released := true } := by
    refine ⟨attached, [.scheduleTask .delMonitor, .incTask, .task .delMonitor .queued,
      .task .delMonitor .body, .task .delMonitor .free, .task .delMonitor .decrement,
      .waitDone], rfl, rfl⟩
  exact ⟨_, rfl, rfl, (teardown_quiescence _).1 hexited.of_restrict,
    (teardown_quiescence _).2 hexited⟩

/-! ## Ending the wait loop with an item left -/

theorem Work.running_or_start {Pc : Type*} {work : Work Pc} (first : Pc) (h : 0 < work.items) :
    (∃ pc, work.running = some pc) ∨ ∃ started, work.start first = some started := by
  obtain ⟨pending, running⟩ := work
  cases running with
  | some pc => exact .inl ⟨pc, rfl⟩
  | none =>
    cases pending with
    | false => cases h
    | true => exact .inr ⟨_, rfl⟩

/-- A state from which a work item can take a step. -/
def CanStep (state : State) : Prop :=
  ∃ label next, label.ofItem = true ∧ step state label = some next

theorem canStep_of_multicast {state : State} (h : 0 < state.multicast.items) :
    CanStep state := by
  obtain ⟨pc, hrun⟩ | ⟨multicast, hstart⟩ := Work.running_or_start .decrement h
  · cases pc with
    | decrement => exact ⟨.decMulticast, _, rfl, by rw [step, hrun]⟩
    | setMulticastList => exact ⟨.setMulticastList, _, rfl, by rw [step, hrun]⟩
  · exact ⟨.startMulticast, _, rfl, Option.map_eq_some_iff.mpr ⟨multicast, hstart, rfl⟩⟩

theorem canStep_of_dpc {state : State} (h : 0 < state.dpc.items) : CanStep state := by
  obtain ⟨pc, hrun⟩ | ⟨dpc, hstart⟩ := Work.running_or_start .body h
  · cases pc with
    | body => exact ⟨.runDpc .finished, _, rfl, by rw [step, hrun]⟩
    | intrson => exact ⟨.intrson, _, rfl, by rw [step, hrun]⟩
    | unlock => exact ⟨.unlockDpc, _, rfl, by rw [step, hrun]⟩
  · exact ⟨.startDpc, _, rfl, Option.map_eq_some_iff.mpr ⟨dpc, hstart, rfl⟩⟩

/-- The worker waits for `TXQ_LOCK` only. -/
theorem canStep_of_txq {state : State} (h : 0 < state.txq.items)
    (hwindow : state.txqWindow = false) : CanStep state := by
  obtain ⟨pc, hrun⟩ | ⟨txq, hstart⟩ := Work.running_or_start .loop h
  · cases pc with
    | loop => exact ⟨.txqSection false, _, rfl, by rw [step, hrun, hwindow]⟩
    | startInt => exact ⟨.startInt, _, rfl, by rw [step, hrun]⟩
    | unlock => exact ⟨.unlockTxq, _, rfl, by rw [step, hrun]⟩
  · exact ⟨.startTxq, _, rfl, Option.map_eq_some_iff.mpr ⟨txq, hstart, rfl⟩⟩

theorem canStep_of_tasks {state : State} (h : 0 < Multiset.card state.tasks) :
    CanStep state := by
  obtain ⟨⟨fn, pc⟩, hmem⟩ := Multiset.card_pos_iff_exists_mem.mp h
  exact ⟨.task fn pc, _, rfl, if_pos hmem⟩

/-- When an item is left, one takes a step, unless `wl_start` holds `TXQ_LOCK`. -/
theorem canStep_of_items {state : State} (h : 0 < state.items)
    (hwindow : state.txqWindow = false) : CanStep state := by
  unfold State.items at h
  by_cases htxq : 0 < state.txq.items
  · exact canStep_of_txq htxq hwindow
  · by_cases hmulticast : 0 < state.multicast.items
    · exact canStep_of_multicast hmulticast
    · by_cases hdpc : 0 < state.dpc.items
      · exact canStep_of_dpc hdpc
      · exact canStep_of_tasks (by omega)

/-- The increments behind `schedule_work`. -/
def Label.isInc : Label → Bool
  | .incMulticast | .incDpc | .incTxq | .incTask => true
  | _ => false

/-- The steps that read or write `wl`: those of the work items, the increments, and the
decrement of a timer. -/
def Label.uses (label : Label) : Bool := label.ofItem || label.isInc || label == .timerDec

/-- A caller that has not come to its increment takes it. -/
theorem exists_inc_of_windows {state : State} (h : 0 < state.windows) :
    ∃ label next, label.isInc = true ∧ step state label = some next := by
  unfold State.windows at h
  cases hmulticast : state.multicastWindow with
  | succ window => exact ⟨.incMulticast, _, rfl, by rw [step, hmulticast]⟩
  | zero =>
    cases hdpc : state.dpcWindow with
    | succ window => exact ⟨.incDpc, _, rfl, by rw [step, hdpc]⟩
    | zero =>
      cases htask : state.taskWindow with
      | succ window => exact ⟨.incTask, _, rfl, by rw [step, htask]⟩
      | zero =>
        have htxq : state.txqWindow = true := by
          rw [hmulticast, hdpc, htask] at h
          cases hcase : state.txqWindow with
          | true => rfl
          | false =>
            rw [hcase] at h
            cases h
        exact ⟨.incTxq, _, rfl, if_pos htxq⟩

theorem windows_pos_of_isInc {state next : State} {label : Label} (hinc : label.isInc = true)
    (hstep : step state label = some next) : 0 < state.windows := by
  unfold State.windows
  cases label with
  | incMulticast | incDpc | incTask =>
    simp only [step] at hstep
    split at hstep
    · omega
    · cases hstep
  | incTxq =>
    have hwindow := (Option.ite_none_right_eq_some.mp hstep).1
    rw [hwindow, Bool.toNat_true]
    omega
  | _ => cases hinc

/-- Nothing is scheduled behind the release: every step uses `wl`, or arms a timer. -/
theorem uses_of_released {state next : State} {label : Label} (hreleased : state.released = true)
    (hstep : step state label = some next) : label.uses = true ∨ label = .timerInc := by
  cases label with
  | scheduleMulticast | scheduleDpc | scheduleTxq | waitDone =>
    exact absurd (.inl hreleased) (Option.ite_none_left_eq_some.mp hstep).1
  | scheduleTask fn => exact absurd hreleased (Option.ite_none_left_eq_some.mp hstep).1
  | timerInc => exact .inr rfl
  | _ => exact .inl rfl

/-- What can still use `wl` are items, callers before their increment, and counted timers. -/
theorem exists_use_iff (state : State) :
    (∃ label next, label.uses = true ∧ step state label = some next) ↔
      0 < state.items ∨ 0 < state.windows ∨ 0 < state.armed := by
  constructor
  · rintro ⟨label, next, huses, hstep⟩
    rw [Label.uses, Bool.or_eq_true, Bool.or_eq_true, beq_iff_eq] at huses
    obtain (hitem | hinc) | rfl := huses
    · exact .inl (items_pos_of_ofItem hitem hstep)
    · exact .inr (.inl (windows_pos_of_isInc hinc hstep))
    · refine .inr (.inr ?_)
      simp only [step] at hstep
      split at hstep
      · omega
      · cases hstep
  · intro hleft
    by_cases hwindows : 0 < state.windows
    · obtain ⟨label, next, hinc, hstep⟩ := exists_inc_of_windows hwindows
      exact ⟨label, next, by rw [Label.uses, hinc, Bool.or_true, Bool.true_or], hstep⟩
    · obtain hitems | hpos | harmed := hleft
      · have hwindow : state.txqWindow = false := by
          unfold State.windows at hwindows
          cases hcase : state.txqWindow with
          | false => rfl
          | true =>
            rw [hcase, Bool.toNat_true] at hwindows
            omega
        obtain ⟨label, next, hitem, hstep⟩ := canStep_of_items hitems hwindow
        exact ⟨label, next, by rw [Label.uses, hitem, Bool.true_or, Bool.true_or], hstep⟩
      · exact absurd hpos hwindows
      · obtain ⟨armed, hsucc⟩ := Nat.exists_eq_succ_of_ne_zero harmed.ne'
        exact ⟨.timerDec, _, rfl, by rw [step, hsucc]⟩

/-- Where the wait loop may end, a timer or an item with its count left means a caller that
still owes an increment. -/
theorem nothing_left_iff {state : State} (h : Balanced state) (hwaited : ¬0 < state.callbacks) :
    (state.items = 0 ∧ state.windows = 0 ∧ state.armed = 0) ↔
      state.windows = 0 ∧ state.tails = 0 := by
  have hcounts := counts_add_tails state
  have hoverlaps : state.overlaps ≤ state.counts := by
    have hmulticast := state.multicast.overlap_le_counts MulticastPc.tail
    have hdpc := state.dpc.overlap_le_counts DpcPc.tail
    have htxq := state.txq.overlap_le_counts TxqPc.tail
    unfold State.overlaps State.counts
    omega
  unfold Balanced at h
  omega

/-- The end of the wait loop is safe exactly when no caller is between `schedule_work` and its
increment and no handler has a step left behind its decrement. -/
theorem exit_safe_iff {state exited : State} (h : machine.Reachable state)
    (hexit : machine.step state .waitDone = some exited) :
    (∀ labels final, machine.run exited labels = some final → .timerInc ∉ labels →
        ∀ label ∈ labels, label.uses = false) ↔
      state.windows = 0 ∧ state.tails = 0 := by
  obtain ⟨hguard, hexited⟩ := Option.ite_none_left_eq_some.mp hexit
  cases hexited
  rw [← nothing_left_iff (reachable_balanced h) (not_or.mp hguard).2]
  have huse := exists_use_iff { state with released := true }
  constructor
  · intro hsafe
    have hnone : ¬∃ label next, label.uses = true ∧
        step { state with released := true } label = some next := by
      rintro ⟨label, next, huses, hstep⟩
      have hrun : machine.run { state with released := true } [label] = some next :=
        Machine.run_cons_eq_some.mpr ⟨next, hstep, rfl⟩
      have hinc : Label.timerInc ∉ [label] := by
        intro hmem
        rw [← List.mem_singleton.mp hmem] at huses
        cases huses
      have hunused := hsafe [label] next hrun hinc label (List.mem_singleton_self label)
      exact Bool.false_ne_true (hunused.symm.trans huses)
    rw [huse] at hnone
    change ¬(0 < state.items ∨ 0 < state.windows ∨ 0 < state.armed) at hnone
    omega
  · intro hnothing labels final hrun hinc
    cases labels with
    | nil => exact fun label hmem ↦ absurd hmem List.not_mem_nil
    | cons label rest =>
      -- the first step would be a use
      obtain ⟨next, hstep, _⟩ := Machine.run_cons_eq_some.mp hrun
      have huses := (uses_of_released rfl hstep).resolve_right
        (List.ne_of_not_mem_cons hinc).symm
      have hleft := huse.mp ⟨label, next, huses, hstep⟩
      change 0 < state.items ∨ 0 < state.windows ∨ 0 < state.armed at hleft
      omega

/-- The wait loop ends under a multicast item that has given up its count. -/
theorem exit_safe_iff_multicast :
    ∃ decremented exited,
      machine.run attached [.scheduleMulticast, .incMulticast, .startMulticast, .decMulticast] =
          some decremented ∧
        machine.step decremented .waitDone = some exited ∧ decremented.tails = 1 ∧
        ¬∀ labels final, machine.run exited labels = some final → .timerInc ∉ labels →
          ∀ label ∈ labels, label.uses = false := by
  refine ⟨_, _, rfl, rfl, by decide, fun hsafe ↦ ?_⟩
  have hnothing := (exit_safe_iff ⟨attached, [.scheduleMulticast, .incMulticast, .startMulticast,
    .decMulticast], rfl, rfl⟩ rfl).mp hsafe
  exact absurd hnothing.2 (by decide)

end BroadcomWl.Linux.DeferredWork
