import BroadcomWl.Systems.Machine
import Mathlib.Algebra.Ring.Nat
import Mathlib.Data.Finset.Card
import Mathlib.Data.Multiset.AddSub
import Mathlib.Logic.Function.Basic

/-!
# Driver timers in the default dispatch mode

A driver timer wraps a kernel timer. `wl_add_timer`, `wl_del_timer` and the handler
`_wl_timer` run under `WL_LOCK`; a kernel timer may expire at any moment, also while
the lock is held, and its handler then waits for the lock. The callback `t->fn` is
arbitrary: it is given as the list of driver operations and kernel expirations that
happen while it runs.

The history records every call of `t->fn` with the arming it belongs to, so that
the module can bound the calls of one arming. When a pending timer expires is left
to the schedule; the stored expiry time is kept but does not restrict it.
-/

namespace BroadcomWl.Linux.Timer

open BroadcomWl.Systems

/-- The fields of `wl_timer_t` the accounting depends on. -/
structure WlTimer where
  ms : ℕ
  periodic : Bool
  set : Bool
  expires : ℕ
deriving DecidableEq

/-- `jiffies + ms*HZ/1000`: the product is an `unsigned int`, the sum an `unsigned long`. -/
def expiry (hz jiffies ms : ℕ) : ℕ := (jiffies + ms * hz % 2 ^ 32 / 1000) % 2 ^ 64

/-- One call of `t->fn`: the arming it belongs to, and what held when the handler tested the
timer. -/
structure FnCall (Id : Type*) where
  timer : Id
  arming : ℕ
  set : Bool
  expired : Bool
deriving DecidableEq

/-- `pending` are the kernel timers that wait for expiry, `inFlight` the handlers that were
started and have not finished. `bug` records an `add_timer` on a pending timer. The last four
fields are history: the number of armings, whether the kernel timer has expired since the last
`add_timer`, the armings that were periodic at some time, and the calls of `t->fn`. -/
structure State (Id : Type*) where
  timer : Id → WlTimer
  pending : Finset Id
  inFlight : Multiset Id
  callbacks : ℤ
  bug : Bool
  arming : Id → ℕ
  expired : Id → Bool
  madePeriodic : List (Id × ℕ)
  fnCalls : List (FnCall Id)

/-- Calls of `t->fn` for one arming. -/
def State.callsOf {Id : Type*} [DecidableEq Id] (state : State Id) (t : Id) (arming : ℕ) : ℕ :=
  state.fnCalls.countP fun call ↦ call.timer = t ∧ call.arming = arming

section Source

variable {Id : Type*} [DecidableEq Id]

/-- Replace the driver's fields of one timer. -/
def State.setTimer (state : State Id) (t : Id) (timer : WlTimer) : State Id :=
  { state with timer := Function.update state.timer t timer }

/-- The kernel's `add_timer`. -/
def addTimer (t : Id) (state : State Id) : State Id :=
  { state with
    bug := state.bug || decide (t ∈ state.pending)
    pending := insert t state.pending
    expired := Function.update state.expired t false }

/-- `wl_add_timer`. -/
def wlAddTimer (hz jiffies : ℕ) (t : Id) (ms : ℕ) (periodic : Bool) (state : State Id) :
    State Id :=
  if (state.timer t).set then
    { state.setTimer t { state.timer t with ms := ms, periodic := periodic } with
      madePeriodic :=
        if periodic then (t, state.arming t) :: state.madePeriodic else state.madePeriodic }
  else
    addTimer t
      { state.setTimer t
          { ms := ms, periodic := periodic, set := true, expires := expiry hz jiffies ms } with
        callbacks := state.callbacks + 1
        arming := Function.update state.arming t (state.arming t + 1)
        madePeriodic :=
          if periodic then (t, state.arming t + 1) :: state.madePeriodic
          else state.madePeriodic }

/-- `wl_del_timer`; the source returns `TRUE` on every path. -/
def wlDelTimer (t : Id) (state : State Id) : State Id :=
  if (state.timer t).set then
    let state := state.setTimer t { state.timer t with set := false }
    if t ∈ state.pending then
      { state with pending := state.pending.erase t, callbacks := state.callbacks - 1 }
    else state
  else state

/-- A kernel timer expires: it is no longer pending and its handler starts. -/
def expire (t : Id) (state : State Id) : Option (State Id) :=
  if t ∈ state.pending then
    some { state with
      pending := state.pending.erase t
      inFlight := t ::ₘ state.inFlight
      expired := Function.update state.expired t true }
  else none

/-- What may happen under the lock, and inside `t->fn`. -/
inductive Op (Id : Type*) where
  | add (t : Id) (ms : ℕ) (periodic : Bool) (jiffies : ℕ)
  | del (t : Id)
  | expire (t : Id)

def applyOp (hz : ℕ) (state : State Id) : Op Id → Option (State Id)
  | .add t ms periodic jiffies => some (wlAddTimer hz jiffies t ms periodic state)
  | .del t => some (wlDelTimer t state)
  | .expire t => expire t state

/-- The timers as `wl_init_timer` leaves them. -/
def initialized : State Id where
  timer _ := ⟨0, false, false, 0⟩
  pending := ∅
  inFlight := 0
  callbacks := 0
  bug := false
  arming _ := 0
  expired _ := false
  madePeriodic := []
  fnCalls := []

/-- Driver operations and expirations without any handler; the body of a callback is a run of
this machine. -/
def opMachine (hz : ℕ) : Machine (State Id) (Op Id) where
  initial state := state = initialized
  step := applyOp hz

/-- The part of `_wl_timer` before the callback: re-arm a periodic timer, disarm the others. -/
def rearm (hz jiffies : ℕ) (t : Id) (state : State Id) : State Id :=
  if (state.timer t).periodic then
    addTimer t
      { state.setTimer t
          { state.timer t with
            expires := expiry hz jiffies (state.timer t).ms, set := true } with
        callbacks := state.callbacks + 1 }
  else state.setTimer t { state.timer t with set := false }

/-- Record the call of `t->fn` as the handler found the timer in `tested`. -/
def recordCall (t : Id) (tested state : State Id) : State Id :=
  { state with
    fnCalls := ⟨t, tested.arming t, (tested.timer t).set, tested.expired t⟩ :: state.fnCalls }

/-- The end of `_wl_timer`. -/
def finish (t : Id) (state : State Id) : State Id :=
  { state with callbacks := state.callbacks - 1, inFlight := state.inFlight.erase t }

/-- `_wl_timer` under `WL_LOCK`; `body` is what happens while `t->fn` runs. -/
def wlTimer (hz jiffies : ℕ) (t : Id) (body : List (Op Id)) (state : State Id) :
    Option (State Id) :=
  if (state.timer t).set ∧ t ∉ state.pending then
    ((opMachine hz).run (recordCall t state (rearm hz jiffies t state)) body).map (finish t)
  else some (finish t state)

/-- A step is an operation of the driver or the kernel, or the body of a waiting handler. -/
inductive Label (Id : Type*) where
  | op (op : Op Id)
  | handler (t : Id) (body : List (Op Id)) (jiffies : ℕ)

def machine (hz : ℕ) : Machine (State Id) (Label Id) where
  initial state := state = initialized
  step state
    | .op op => applyOp hz state op
    | .handler t body jiffies =>
        if t ∈ state.inFlight then wlTimer hz jiffies t body state else none

end Source

/-! ## The invariant -/

/-- The armings that were periodic only become more. -/
theorem notMem_of_notMem_note {Pair : Type*} {pairs : List Pair} {pair noted : Pair}
    {periodic : Bool}
    (h : pair ∉ if periodic then noted :: pairs else pairs) : pair ∉ pairs := by
  intro hmem
  exact h (by split <;> simp [hmem])

theorem eq_false_of_notMem_note {Pair : Type*} {pairs : List Pair} {noted : Pair}
    {periodic : Bool}
    (h : noted ∉ if periodic then noted :: pairs else pairs) : periodic = false := by
  cases periodic
  · rfl
  · simp at h

variable {Id : Type*} [DecidableEq Id]

/-- The accounting invariant. The last three clauses follow one arming: an armed timer whose
arming was never periodic is not periodic and has not been called for it. -/
structure Inv (state : State Id) : Prop where
  callbacks : state.callbacks = state.pending.card + Multiset.card state.inFlight
  pending_set : ∀ t ∈ state.pending, (state.timer t).set = true
  bug : state.bug = false
  expired : ∀ t, (state.timer t).set = true → t ∉ state.pending → state.expired t = true
  calls : ∀ call ∈ state.fnCalls, call.set = true ∧ call.expired = true
  arming_le : ∀ call ∈ state.fnCalls, call.arming ≤ state.arming call.timer
  one_call : ∀ t arming, (t, arming) ∉ state.madePeriodic → state.callsOf t arming ≤ 1
  armed : ∀ t, (state.timer t).set = true → (t, state.arming t) ∉ state.madePeriodic →
    (state.timer t).periodic = false ∧ state.callsOf t (state.arming t) = 0

theorem initialized_inv : Inv (initialized : State Id) := by
  constructor <;> simp [initialized, State.callsOf]

theorem Inv.notMem_pending {state : State Id} (h : Inv state) {t : Id}
    (hset : (state.timer t).set = false) : t ∉ state.pending := fun hmem ↦ by
  simpa [hset] using h.pending_set t hmem

/-- No call has been made for an arming that is still to come. -/
theorem Inv.callsOf_of_lt {state : State Id} (h : Inv state) {t : Id} {arming : ℕ}
    (hlt : state.arming t < arming) : state.callsOf t arming = 0 := by
  refine List.countP_eq_zero.mpr fun call hcall ↦ ?_
  have hle := h.arming_le call hcall
  simp only [decide_eq_true_eq, not_and]
  intro htimer harming
  rw [htimer, harming] at hle
  omega

theorem setTimer_timer_self (state : State Id) (t : Id) (timer : WlTimer) :
    (state.setTimer t timer).timer t = timer := Function.update_self ..

theorem setTimer_timer_of_ne (state : State Id) {t u : Id} (timer : WlTimer) (h : u ≠ t) :
    (state.setTimer t timer).timer u = state.timer u := Function.update_of_ne h ..

/-- Re-adding a timer that is set only changes its period and its kind. -/
theorem wlAddTimer_inv_of_set {state : State Id} (hz jiffies : ℕ) {t : Id} (ms : ℕ)
    (periodic : Bool) (h : Inv state) (hset : (state.timer t).set = true) :
    Inv (wlAddTimer hz jiffies t ms periodic state) := by
  have hsame : ∀ u, ((state.setTimer t { state.timer t with ms := ms, periodic := periodic }).timer
      u).set = (state.timer u).set := by
    intro u
    by_cases hut : u = t
    · rw [hut, setTimer_timer_self]
    · rw [setTimer_timer_of_ne state _ hut]
  rw [wlAddTimer, if_pos hset]
  refine ⟨h.callbacks, ?_, h.bug, ?_, h.calls, h.arming_le, ?_, ?_⟩
  · intro u hu
    exact (hsame u).trans (h.pending_set u hu)
  · intro u hu
    exact h.expired u ((hsame u).symm.trans hu)
  · intro u arming hnot
    exact h.one_call u arming (notMem_of_notMem_note hnot)
  · intro u hu hnot
    have hold := h.armed u ((hsame u).symm.trans hu) (notMem_of_notMem_note hnot)
    refine ⟨?_, hold.2⟩
    by_cases hut : u = t
    · subst hut
      change (State.timer (state.setTimer u _) u).periodic = false
      rw [setTimer_timer_self]
      exact eq_false_of_notMem_note hnot
    · change (State.timer (state.setTimer t _) u).periodic = false
      rw [setTimer_timer_of_ne state _ hut]
      exact hold.1

/-- The clauses on the counter and on the kernel's timers. -/
structure KernelInv (state : State Id) : Prop where
  callbacks : state.callbacks = state.pending.card + Multiset.card state.inFlight
  pending_set : ∀ t ∈ state.pending, (state.timer t).set = true
  bug : state.bug = false
  expired : ∀ t, (state.timer t).set = true → t ∉ state.pending → state.expired t = true

theorem Inv.kernel {state : State Id} (h : Inv state) : KernelInv state :=
  ⟨h.callbacks, h.pending_set, h.bug, h.expired⟩

/-- `add_timer` for a timer that is not pending, once the driver has set and counted it. -/
theorem KernelInv.addTimer {state : State Id} {t : Id} (h : KernelInv state)
    (hpending : t ∉ state.pending) (armed : State Id)
    (hcallbacks : armed.callbacks = state.callbacks + 1)
    (hkernel : armed.pending = state.pending ∧ armed.inFlight = state.inFlight ∧
      armed.bug = state.bug ∧ armed.expired = state.expired)
    (hset : (armed.timer t).set = true) (hother : ∀ u, u ≠ t → armed.timer u = state.timer u) :
    KernelInv (addTimer t armed) := by
  obtain ⟨hsame, hinFlight, hbug, hexpired⟩ := hkernel
  unfold Timer.addTimer
  rw [hsame, hbug, hexpired]
  refine ⟨?_, ?_, ?_, ?_⟩ <;> dsimp only
  · rw [Finset.card_insert_of_notMem hpending, hcallbacks, hinFlight, h.callbacks]
    push_cast
    omega
  · intro u hu
    by_cases hut : u = t
    · rw [hut]
      exact hset
    · rw [hother u hut]
      exact h.pending_set u (Finset.mem_of_mem_insert_of_ne hu hut)
  · simp [h.bug, hpending]
  · intro u hu hnot
    rw [Finset.mem_insert, not_or] at hnot
    rw [hother u hnot.1] at hu
    rw [Function.update_of_ne hnot.1]
    exact h.expired u hu hnot.2

/-- Arming a timer that is not set starts a new arming without calls. -/
theorem wlAddTimer_inv_of_not_set {state : State Id} (hz jiffies : ℕ) {t : Id} (ms : ℕ)
    (periodic : Bool) (h : Inv state) (hset : (state.timer t).set = false) :
    Inv (wlAddTimer hz jiffies t ms periodic state) := by
  have hpending := h.notMem_pending hset
  rw [wlAddTimer, if_neg (by simp [hset])]
  let timer : WlTimer :=
    { ms := ms, periodic := periodic, set := true, expires := expiry hz jiffies ms }
  let armed : State Id :=
    { state.setTimer t timer with
      callbacks := state.callbacks + 1
      arming := Function.update state.arming t (state.arming t + 1)
      madePeriodic :=
        if periodic then (t, state.arming t + 1) :: state.madePeriodic else state.madePeriodic }
  have htimer : armed.timer t = timer := setTimer_timer_self state t timer
  have hkernel := h.kernel.addTimer hpending armed rfl ⟨rfl, rfl, rfl, rfl⟩ (by rw [htimer])
    fun u hut ↦ setTimer_timer_of_ne state timer hut
  refine ⟨hkernel.callbacks, hkernel.pending_set, hkernel.bug, hkernel.expired, h.calls, ?_, ?_,
    ?_⟩ <;> dsimp only [addTimer, State.setTimer]
  · intro call hcall
    have hle := h.arming_le call hcall
    by_cases htimer : call.timer = t
    · rw [htimer] at hle ⊢
      rw [Function.update_self]
      omega
    · rwa [Function.update_of_ne htimer]
  · intro u arming hnot
    exact h.one_call u arming (notMem_of_notMem_note hnot)
  · intro u hu hnot
    by_cases hut : u = t
    · subst hut
      rw [Function.update_self] at hnot
      rw [Function.update_self, Function.update_self]
      exact ⟨eq_false_of_notMem_note hnot, h.callsOf_of_lt (Nat.lt_succ_self _)⟩
    · rw [Function.update_of_ne hut] at hu hnot ⊢
      rw [Function.update_of_ne hut]
      exact h.armed u hu (notMem_of_notMem_note hnot)

theorem wlAddTimer_inv {state : State Id} (hz jiffies : ℕ) (t : Id) (ms : ℕ) (periodic : Bool)
    (h : Inv state) : Inv (wlAddTimer hz jiffies t ms periodic state) := by
  cases hset : (state.timer t).set with
  | false => exact wlAddTimer_inv_of_not_set hz jiffies ms periodic h hset
  | true => exact wlAddTimer_inv_of_set hz jiffies ms periodic h hset

theorem set_of_disarmed {state : State Id} {t u : Id}
    (h : ((state.setTimer t { state.timer t with set := false }).timer u).set = true) :
    u ≠ t ∧ (state.timer u).set = true := by
  by_cases hut : u = t
  · subst hut
    rw [setTimer_timer_self] at h
    cases h
  · rw [setTimer_timer_of_ne state _ hut] at h
    exact ⟨hut, h⟩

/-- Disarming a timer whose kernel timer is not pending. -/
theorem disarm_inv {state : State Id} {t : Id} (h : Inv state) (hpending : t ∉ state.pending) :
    Inv (state.setTimer t { state.timer t with set := false }) := by
  refine ⟨h.callbacks, ?_, h.bug, ?_, h.calls, h.arming_le, h.one_call, ?_⟩
  · intro u hu
    have hut : u ≠ t := fun heq ↦ hpending (heq ▸ hu)
    rw [setTimer_timer_of_ne state _ hut]
    exact h.pending_set u hu
  · intro u hu
    exact h.expired u (set_of_disarmed hu).2
  · intro u hu hnot
    obtain ⟨hut, huset⟩ := set_of_disarmed hu
    rw [setTimer_timer_of_ne state _ hut]
    exact h.armed u huset hnot

/-- Deleting a pending timer gives its callback back. -/
theorem delete_pending_inv {state : State Id} {t : Id} (h : Inv state) (ht : t ∈ state.pending) :
    Inv { state.setTimer t { state.timer t with set := false } with
      pending := state.pending.erase t
      callbacks := state.callbacks - 1 } := by
  have hcard := Finset.card_erase_add_one ht
  refine ⟨?_, ?_, h.bug, ?_, h.calls, h.arming_le, h.one_call, ?_⟩
  · change state.callbacks - 1 = ((state.pending.erase t).card : ℤ) + Multiset.card state.inFlight
    rw [h.callbacks, ← hcard]
    push_cast
    omega
  · intro u hu
    have hmem := Finset.mem_erase.mp hu
    change (State.timer (state.setTimer t _) u).set = true
    rw [setTimer_timer_of_ne state _ hmem.1]
    exact h.pending_set u hmem.2
  · intro u hu hnot
    obtain ⟨hut, huset⟩ := set_of_disarmed hu
    exact h.expired u huset fun hmem ↦ hnot (Finset.mem_erase.mpr ⟨hut, hmem⟩)
  · intro u hu hnot
    obtain ⟨hut, huset⟩ := set_of_disarmed hu
    change (State.timer (state.setTimer t _) u).periodic = false ∧ _
    rw [setTimer_timer_of_ne state _ hut]
    exact h.armed u huset hnot

theorem wlDelTimer_inv {state : State Id} (t : Id) (h : Inv state) :
    Inv (wlDelTimer t state) := by
  unfold wlDelTimer
  split
  · dsimp only
    split
    · exact delete_pending_inv h ‹_›
    · exact disarm_inv h ‹_›
  · exact h

/-- An expiry turns a pending timer into a handler in flight. -/
theorem expire_inv {state next : State Id} {t : Id} (h : Inv state)
    (hexpire : expire t state = some next) : Inv next := by
  obtain ⟨ht, hnext⟩ := Option.ite_none_right_eq_some.mp hexpire
  cases hnext
  have hcard := Finset.card_erase_add_one ht
  refine ⟨?_, ?_, h.bug, ?_, h.calls, h.arming_le, h.one_call, h.armed⟩ <;> dsimp only
  · rw [h.callbacks, Multiset.card_cons, ← hcard]
    push_cast
    omega
  · intro u hu
    exact h.pending_set u (Finset.mem_of_mem_erase hu)
  · intro u hu hnot
    by_cases hut : u = t
    · rw [hut, Function.update_self]
    · rw [Function.update_of_ne hut]
      exact h.expired u hu fun hmem ↦ hnot (Finset.mem_erase.mpr ⟨hut, hmem⟩)

theorem applyOp_inv {hz : ℕ} {state next : State Id} {op : Op Id} (h : Inv state)
    (hop : applyOp hz state op = some next) : Inv next := by
  cases op with
  | add t ms periodic jiffies =>
    cases hop
    exact wlAddTimer_inv hz jiffies t ms periodic h
  | del t =>
    cases hop
    exact wlDelTimer_inv t h
  | expire t => exact expire_inv h hop

/-! ## The handler -/

theorem callsOf_recordCall (t : Id) (tested state : State Id) (u : Id) (arming : ℕ) :
    (recordCall t tested state).callsOf u arming =
      state.callsOf u arming + if t = u ∧ tested.arming t = arming then 1 else 0 := by
  simp only [State.callsOf, recordCall, List.countP_cons, decide_eq_true_eq]

theorem callsOf_recordCall_of_ne {t u : Id} (tested state : State Id) (arming : ℕ) (h : u ≠ t) :
    (recordCall t tested state).callsOf u arming = state.callsOf u arming := by
  rw [callsOf_recordCall, if_neg fun heq ↦ h heq.1.symm, Nat.add_zero]

/-- A call that the handler records for a set timer keeps the clauses on calls. `disarmed` is
what the handler does to the timer, which touches neither the calls nor the armings. -/
theorem recordCall_inv {state disarmed : State Id} {t : Id} (h : Inv state)
    (hset : (state.timer t).set = true) (hpending : t ∉ state.pending)
    (hcalls : disarmed.fnCalls = state.fnCalls) (harming : disarmed.arming = state.arming)
    (hmade : disarmed.madePeriodic = state.madePeriodic) (hkernel : KernelInv disarmed)
    (hother : ∀ u, u ≠ t → disarmed.timer u = state.timer u)
    (hself : (disarmed.timer t).set = true → (state.timer t).periodic = true) :
    Inv (recordCall t state disarmed) := by
  have hsame : ∀ u arming, disarmed.callsOf u arming = state.callsOf u arming := fun u arming ↦ by
    rw [State.callsOf, State.callsOf, hcalls]
  refine ⟨hkernel.callbacks, hkernel.pending_set, hkernel.bug, hkernel.expired, ?_, ?_, ?_, ?_⟩
  · intro call hcall
    change call ∈ _ :: disarmed.fnCalls at hcall
    rw [hcalls, List.mem_cons] at hcall
    rcases hcall with rfl | hcall
    · exact ⟨hset, h.expired t hset hpending⟩
    · exact h.calls call hcall
  · intro call hcall
    change call ∈ _ :: disarmed.fnCalls at hcall
    change call.arming ≤ disarmed.arming call.timer
    rw [hcalls, List.mem_cons] at hcall
    rw [harming]
    rcases hcall with rfl | hcall
    · exact le_rfl
    · exact h.arming_le call hcall
  · intro u arming hnot
    change (u, arming) ∉ disarmed.madePeriodic at hnot
    rw [hmade] at hnot
    rw [callsOf_recordCall, hsame]
    split
    · rename_i heq
      obtain ⟨rfl, rfl⟩ := heq
      rw [(h.armed t hset hnot).2]
    · exact h.one_call u arming hnot
  · intro u hu hnot
    change (disarmed.timer u).set = true at hu
    change (u, disarmed.arming u) ∉ disarmed.madePeriodic at hnot
    change (disarmed.timer u).periodic = false ∧
      (recordCall t state disarmed).callsOf u (disarmed.arming u) = 0
    rw [hmade, harming] at hnot
    by_cases hut : u = t
    · subst hut
      have hperiodic := (h.armed u hset hnot).1
      rw [hself hu] at hperiodic
      cases hperiodic
    · rw [hother u hut] at hu ⊢
      rw [callsOf_recordCall_of_ne state disarmed _ hut, hsame, harming]
      exact h.armed u hu hnot

/-- Before the callback the handler has re-armed or disarmed the timer and counted the call. -/
theorem recordCall_rearm_inv {state : State Id} (hz jiffies : ℕ) {t : Id} (h : Inv state)
    (hset : (state.timer t).set = true) (hpending : t ∉ state.pending) :
    Inv (recordCall t state (rearm hz jiffies t state)) := by
  unfold rearm
  split
  · rename_i hperiodic
    let timer : WlTimer :=
      { state.timer t with
        expires := expiry hz jiffies (state.timer t).ms, set := true }
    let armed : State Id :=
      { state.setTimer t timer with callbacks := state.callbacks + 1 }
    have htimer : armed.timer t = timer := setTimer_timer_self state t timer
    have hother : ∀ u, u ≠ t → armed.timer u = state.timer u := fun u hut ↦
      setTimer_timer_of_ne state timer hut
    have hkernel := h.kernel.addTimer hpending armed rfl ⟨rfl, rfl, rfl, rfl⟩ (by rw [htimer])
      hother
    exact recordCall_inv h hset hpending rfl rfl rfl hkernel hother fun _ ↦ hperiodic
  · have hkernel := (disarm_inv h hpending).kernel
    refine recordCall_inv h hset hpending rfl rfl rfl hkernel
      (fun u hut ↦ setTimer_timer_of_ne state _ hut) fun hself ↦ ?_
    exact absurd rfl (set_of_disarmed hself).1

/-- The end of the handler removes one handler in flight and its callback. -/
theorem finish_inv {state : State Id} {t : Id} (h : Inv state) (ht : t ∈ state.inFlight) :
    Inv (finish t state) := by
  have hcard := Multiset.card_erase_add_one ht
  refine ⟨?_, h.pending_set, h.bug, h.expired, h.calls, h.arming_le, h.one_call, h.armed⟩
  change state.callbacks - 1 = (state.pending.card : ℤ) + Multiset.card (state.inFlight.erase t)
  rw [h.callbacks, ← hcard]
  push_cast
  omega

theorem mem_inFlight_of_applyOp {hz : ℕ} {state next : State Id} {op : Op Id} {t : Id}
    (ht : t ∈ state.inFlight) (hop : applyOp hz state op = some next) : t ∈ next.inFlight := by
  cases op with
  | add u ms periodic jiffies =>
    cases hop
    unfold wlAddTimer
    split <;> exact ht
  | del u =>
    cases hop
    unfold wlDelTimer
    dsimp only
    split
    · split <;> exact ht
    · exact ht
  | expire u =>
    obtain ⟨_, hnext⟩ := Option.ite_none_right_eq_some.mp hop
    cases hnext
    exact Multiset.mem_cons_of_mem ht

/-- The whole body of `_wl_timer`, with an arbitrary callback, keeps the invariant. -/
theorem wlTimer_inv {hz jiffies : ℕ} {state next : State Id} {t : Id} {body : List (Op Id)}
    (h : Inv state) (ht : t ∈ state.inFlight)
    (hnext : wlTimer hz jiffies t body state = some next) : Inv next := by
  unfold wlTimer at hnext
  split at hnext
  · rename_i htest
    obtain ⟨called, hrun, hfinish⟩ := Option.map_eq_some_iff.mp hnext
    subst hfinish
    have hstart := recordCall_rearm_inv hz jiffies h htest.1 htest.2
    have hmem : t ∈ (recordCall t state (rearm hz jiffies t state)).inFlight := by
      unfold rearm
      split <;> exact ht
    have hcalled := Machine.run_preserves
      (fun state op next (hstate : Inv state ∧ t ∈ state.inFlight) hop ↦
        ⟨applyOp_inv hstate.1 hop, mem_inFlight_of_applyOp hstate.2 hop⟩) ⟨hstart, hmem⟩ hrun
    exact finish_inv hcalled.1 hcalled.2
  · cases hnext
    exact finish_inv h ht

theorem reachable_inv {hz : ℕ} {state : State Id} (h : (machine hz).Reachable state) :
    Inv state := by
  refine h.invariant ?_ ?_
  · intro state hstate
    subst hstate
    exact initialized_inv
  · intro state label next hstate hstep
    cases label with
    | op op => exact applyOp_inv hstate hstep
    | handler t body jiffies =>
      obtain ⟨ht, hnext⟩ := Option.ite_none_right_eq_some.mp hstep
      exact wlTimer_inv hstate ht hnext

/-- In every reachable state the callbacks are the pending timers and the handlers in flight, a
timer that is not set is not pending, `add_timer` was never called on a pending timer, `t->fn`
ran only for a set timer whose kernel timer had expired since it was last armed, and an arming
that was never periodic has led to at most one call. -/
theorem timer_accounting (hz : ℕ) (state : State Id) (h : (machine hz).Reachable state) :
    state.callbacks = state.pending.card + Multiset.card state.inFlight ∧ 0 ≤ state.callbacks ∧
      (∀ t, (state.timer t).set = false → t ∉ state.pending) ∧ state.bug = false ∧
      (∀ call ∈ state.fnCalls, call.set = true ∧ call.expired = true) ∧
      ∀ t arming, (t, arming) ∉ state.madePeriodic → state.callsOf t arming ≤ 1 := by
  have hinv := reachable_inv h
  have hnonneg : 0 ≤ state.callbacks := by
    rw [hinv.callbacks]
    omega
  exact ⟨hinv.callbacks, hnonneg, fun t ↦ hinv.notMem_pending, hinv.bug, hinv.calls,
    hinv.one_call⟩

/-- A handler that expired before its timer was deleted runs after the timer was armed again, and
makes no call. -/
theorem timer_accounting_stale_handler :
    ∃ state : State ℕ, (machine 100).run initialized
        [.op (.add 7 50 false 0), .op (.expire 7), .op (.del 7), .op (.add 7 50 false 20),
          .handler 7 [] 30] = some state ∧
      state.fnCalls = [] ∧ state.callbacks = state.pending.card + Multiset.card state.inFlight ∧
      0 ≤ state.callbacks ∧ (∀ t, (state.timer t).set = false → t ∉ state.pending) ∧
      state.bug = false ∧ (∀ call ∈ state.fnCalls, call.set = true ∧ call.expired = true) ∧
      ∀ t arming, (t, arming) ∉ state.madePeriodic → state.callsOf t arming ≤ 1 :=
  ⟨_, rfl, rfl, timer_accounting 100 _ ⟨initialized, [.op (.add 7 50 false 0), .op (.expire 7),
    .op (.del 7), .op (.add 7 50 false 20), .handler 7 [] 30], rfl, rfl⟩⟩

end BroadcomWl.Linux.Timer
