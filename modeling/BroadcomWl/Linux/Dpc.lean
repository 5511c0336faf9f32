import BroadcomWl.Systems.Machine
import Mathlib.Data.Int.Order.Basic

/-!
# Interrupts and the DPC

`wl_isr` masks interrupts and schedules `wl_dpc`; `wl_dpc` either schedules itself again or
unmasks. In passive mode the DPC is a work item that is counted in `wl->callbacks`, otherwise
a tasklet. Each routine is one step. While the device is up, the mask, the pending DPC and the
`resched` flag say the same thing, and the counter says it in passive mode; once the device is
down the mask is anything, but the counter still follows the pending DPC.
-/

namespace BroadcomWl.Linux.Dpc

open BroadcomWl.Systems

/-- `up` is `pub->up`. `pending` are the scheduled instances of the DPC, and `callbacks` is its
share of the counter. History: `assertFailed` records an assertion of `wl_isr` or `wl_dpc`, and
`collided` an attempt to schedule the DPC while it was pending. -/
structure State where
  up : Bool
  masked : Bool
  resched : Bool
  pending : ℕ
  callbacks : ℤ
  assertFailed : Bool
  collided : Bool
deriving DecidableEq, Repr

/-- `schedule_work` on the DPC; it fails when the item is pending. -/
def scheduleWork (state : State) : Bool × State :=
  if state.pending = 0 then (true, { state with pending := 1 })
  else (false, { state with collided := true })

/-- `tasklet_schedule`, which does nothing when the tasklet is pending. -/
def taskletSchedule (state : State) : State :=
  if state.pending = 0 then { state with pending := 1 } else { state with collided := true }

/-- `ASSERT`. -/
def assertThat (condition : Bool) (state : State) : State :=
  if condition then state else { state with assertFailed := true }

/-- `wl_intrson`. -/
def wlIntrson (state : State) : State := { state with masked := false }

/-- `wl_intrsoff`, with the mask as it was. -/
def wlIntrsoff (state : State) : Bool × State := (state.masked, { state with masked := true })

/-- `wl_intrsrestore`. -/
def wlIntrsrestore (macintmask : Bool) (state : State) : State :=
  { state with masked := macintmask }

/-- `wl_isr` after `wlc_isr` has found an interrupt of this device. `wlc_isr` masks interrupts
when it wants the DPC. -/
def wlIsr (passive wantdpc : Bool) (state : State) : State :=
  if wantdpc then
    let state := assertThat (!state.resched) { state with masked := true }
    if passive then
      let (scheduled, state) := scheduleWork state
      if scheduled then { state with callbacks := state.callbacks + 1 }
      else assertThat false state
    else taskletSchedule state
  else state

/-- The result of `wlc_dpc`: its return value, and the mask it leaves if it clears `pub->up`. -/
structure WlcDpc where
  resched : Bool
  clearsUp : Option Bool

/-- The call of `wlc_dpc`, made only while the device is up. -/
def callWlcDpc (result : WlcDpc) (state : State) : State :=
  if state.up then
    match result.clearsUp with
    | some masked => { state with resched := result.resched, up := false, masked := masked }
    | none => { state with resched := result.resched }
  else state

/-- `wl_dpc`, when the scheduler has taken the pending instance. -/
def wlDpc (passive : Bool) (result : WlcDpc) (state : State) : State :=
  let state := callWlcDpc result state
  if !state.up then
    if passive then { state with callbacks := state.callbacks - 1 } else state
  else if state.resched then
    if !passive then taskletSchedule state
    else
      let (scheduled, state) := scheduleWork state
      if !scheduled then assertThat false state else state
  else
    wlIntrson (if passive then { state with callbacks := state.callbacks - 1 } else state)

/-- An interrupt that `wlc_isr` takes for this device, a run of the pending DPC, a `wl_down` with
the mask it leaves, or a section between `wl_intrsoff` and `wl_intrsrestore`. Interrupts of other
devices change nothing. -/
inductive Label where
  | isr (wantdpc : Bool)
  | dpc (result : WlcDpc)
  | down (masked : Bool)
  | intrsSection

/-- No interrupt of this device arrives while interrupts are masked. -/
def step (passive : Bool) (state : State) : Label → Option State
  | .isr wantdpc => if state.masked then none else some (wlIsr passive wantdpc state)
  | .dpc result =>
      match state.pending with
      | 0 => none
      | pending + 1 => some (wlDpc passive result { state with pending := pending })
  | .down masked => some { state with up := false, masked := masked }
  | .intrsSection =>
      let (macintmask, state) := wlIntrsoff state
      some (wlIntrsrestore macintmask state)

/-- Right after `wl_up`. -/
def afterUp : State where
  up := true
  masked := false
  resched := false
  pending := 0
  callbacks := 0
  assertFailed := false
  collided := false

def machine (passive : Bool) : Machine State Label where
  initial state := state = afterUp
  step := step passive

/-- One fact in four representations. -/
structure Inv (passive : Bool) (state : State) : Prop where
  pending_le : state.pending ≤ 1
  masked : state.up = true → (state.masked = true ↔ state.pending = 1)
  resched : state.up = true → state.pending = 0 → state.resched = false
  callbacks : passive = true → state.callbacks = state.pending
  quiet : state.up = true → state.assertFailed = false ∧ state.collided = false

theorem afterUp_inv (passive : Bool) : Inv passive afterUp := by
  refine ⟨Nat.zero_le _, fun _ ↦ ?_, fun _ _ ↦ rfl, fun _ ↦ rfl, fun _ ↦ ⟨rfl, rfl⟩⟩
  simp [afterUp]

section Steps

variable {passive : Bool} {state next : State} {label : Label}

/-! ## What the routines do -/

/-- An interrupt that finds no DPC pending schedules and counts it. -/
theorem wlIsr_idle (passive : Bool) (hidle : state.pending = 0) :
    wlIsr passive true state =
      { state with
        masked := true
        pending := 1
        callbacks := if passive then state.callbacks + 1 else state.callbacks
        assertFailed := state.assertFailed || state.resched } := by
  cases hresched : state.resched <;> cases passive <;>
  simp [wlIsr, assertThat, scheduleWork, taskletSchedule, hresched, hidle]

/-- An interrupt that finds the DPC pending does not count it again. -/
theorem wlIsr_busy (passive : Bool) (hbusy : state.pending ≠ 0) :
    wlIsr passive true state =
      { state with
        masked := true
        assertFailed := state.assertFailed || state.resched || passive
        collided := true } := by
  cases hresched : state.resched <;> cases passive <;>
  simp [wlIsr, assertThat, scheduleWork, taskletSchedule, hresched, hbusy]

/-- A DPC that finds or leaves the device down gives up its count. -/
theorem wlDpc_down (passive : Bool) {result : WlcDpc}
    (hdown : (callWlcDpc result state).up = false) :
    wlDpc passive result state =
      { callWlcDpc result state with
        callbacks := if passive then (callWlcDpc result state).callbacks - 1
          else (callWlcDpc result state).callbacks } := by
  unfold wlDpc
  rw [if_pos (by rw [hdown]; rfl)]
  cases passive <;> rfl

/-- A DPC with more to do hands its count to the next instance. -/
theorem wlDpc_resched (passive : Bool) {result : WlcDpc}
    (hup : (callWlcDpc result state).up = true)
    (hresched : (callWlcDpc result state).resched = true)
    (hidle : (callWlcDpc result state).pending = 0) :
    wlDpc passive result state = { callWlcDpc result state with pending := 1 } := by
  cases passive <;> simp [wlDpc, scheduleWork, taskletSchedule, hup, hresched, hidle]

/-- A DPC that is done gives up its count and unmasks. -/
theorem wlDpc_done (passive : Bool) {result : WlcDpc}
    (hup : (callWlcDpc result state).up = true)
    (hresched : (callWlcDpc result state).resched = false) :
    wlDpc passive result state =
      { callWlcDpc result state with
        masked := false
        callbacks := if passive then (callWlcDpc result state).callbacks - 1
          else (callWlcDpc result state).callbacks } := by
  cases passive <;> simp [wlDpc, wlIntrson, hup, hresched]

/-- `wlc_dpc` cannot bring the device up, and changes nothing that is counted. -/
theorem callWlcDpc_frame (result : WlcDpc) (state : State) :
    ((callWlcDpc result state).up = true → state.up = true) ∧
      (callWlcDpc result state).pending = state.pending ∧
      (callWlcDpc result state).callbacks = state.callbacks ∧
      (callWlcDpc result state).assertFailed = state.assertFailed ∧
      (callWlcDpc result state).collided = state.collided := by
  unfold callWlcDpc
  split
  · split
    · exact ⟨fun hup ↦ absurd hup Bool.false_ne_true, rfl, rfl, rfl, rfl⟩
    · exact ⟨id, rfl, rfl, rfl, rfl⟩
  · exact ⟨id, rfl, rfl, rfl, rfl⟩

/-- A device that stays up keeps its mask during `wlc_dpc`. -/
theorem callWlcDpc_masked {result : WlcDpc} (hup : (callWlcDpc result state).up = true) :
    (callWlcDpc result state).masked = state.masked := by
  revert hup
  unfold callWlcDpc
  split
  · split
    · exact fun hup ↦ absurd hup Bool.false_ne_true
    · exact fun _ ↦ rfl
  · exact fun _ ↦ rfl

/-! ## The invariant -/

theorem Inv.wlIsr (h : Inv passive state) (hunmasked : state.masked = false) (wantdpc : Bool) :
    Inv passive (wlIsr passive wantdpc state) := by
  cases wantdpc with
  | false => exact h
  | true =>
    have hidle : state.up = true → state.pending = 0 := by
      intro hup
      have hne : state.pending ≠ 1 := fun hone ↦ by
        rw [(h.masked hup).mpr hone] at hunmasked
        cases hunmasked
      have hle := h.pending_le
      omega
    by_cases hpending : state.pending = 0
    · rw [wlIsr_idle passive hpending]
      refine ⟨Nat.le_refl _, fun _ ↦ ⟨fun _ ↦ rfl, fun _ ↦ rfl⟩, fun _ hzero ↦ (nomatch hzero),
        fun hpassive ↦ ?_, fun hup ↦ ⟨?_, (h.quiet hup).2⟩⟩
      · have hcount := h.callbacks hpassive
        rw [hpending] at hcount
        simp [hpassive, hcount]
      · dsimp only
        rw [(h.quiet hup).1, h.resched hup hpending]
        rfl
    · have hdown : state.up ≠ true := fun hup ↦ hpending (hidle hup)
      rw [wlIsr_busy passive hpending]
      exact ⟨h.pending_le, fun hup ↦ absurd hup hdown, fun hup ↦ absurd hup hdown,
        h.callbacks, fun hup ↦ absurd hup hdown⟩

/-- The one pending instance runs. -/
theorem Inv.wlDpc (h : Inv passive state) (hpending : state.pending = 1) (result : WlcDpc) :
    Inv passive (wlDpc passive result { state with pending := 0 }) := by
  obtain ⟨hbefore, hzero, hcallbacks, hassert, hcollided⟩ :=
    callWlcDpc_frame result { state with pending := 0 }
  have hcount : passive = true → state.callbacks = 1 := fun hpassive ↦ by
    rw [h.callbacks hpassive, hpending]
    rfl
  cases hup : (callWlcDpc result { state with pending := 0 }).up with
  | false =>
    rw [wlDpc_down passive hup]
    have hdown : (callWlcDpc result { state with pending := 0 }).up ≠ true := by
      rw [hup]
      exact Bool.false_ne_true
    refine ⟨hzero ▸ Nat.zero_le _, fun hup' ↦ absurd hup' hdown, fun hup' ↦ absurd hup' hdown,
      fun hpassive ↦ ?_, fun hup' ↦ absurd hup' hdown⟩
    dsimp only
    rw [if_pos hpassive, hcallbacks, hzero]
    simp [hcount hpassive]
  | true =>
    have hquiet := h.quiet (hbefore hup)
    have hmasked := callWlcDpc_masked hup
    cases hresched : (callWlcDpc result { state with pending := 0 }).resched with
    | true =>
      rw [wlDpc_resched passive hup hresched hzero]
      refine ⟨Nat.le_refl _, fun _ ↦ ⟨fun _ ↦ rfl, fun _ ↦ ?_⟩, fun _ hnone ↦ (nomatch hnone),
        fun hpassive ↦ hcallbacks.trans (hcount hpassive),
        fun _ ↦ ⟨hassert.trans hquiet.1, hcollided.trans hquiet.2⟩⟩
      exact hmasked.trans ((h.masked (hbefore hup)).mpr hpending)
    | false =>
      rw [wlDpc_done passive hup hresched]
      refine ⟨hzero ▸ Nat.zero_le _, fun _ ↦ ?_, fun _ _ ↦ hresched, fun hpassive ↦ ?_,
        fun _ ↦ ⟨hassert.trans hquiet.1, hcollided.trans hquiet.2⟩⟩
      · dsimp only
        rw [hzero]
        exact iff_of_false Bool.false_ne_true Nat.zero_ne_one
      · dsimp only
        rw [if_pos hpassive, hcallbacks, hzero]
        simp [hcount hpassive]

theorem step_inv (h : Inv passive state) (hstep : step passive state label = some next) :
    Inv passive next := by
  cases label with
  | isr wantdpc =>
    obtain ⟨hunmasked, hnext⟩ := Option.ite_none_left_eq_some.mp hstep
    cases hnext
    exact h.wlIsr (Bool.not_eq_true _ ▸ hunmasked) wantdpc
  | dpc result =>
    have hle := h.pending_le
    cases hpending : state.pending with
    | zero =>
      simp only [step, hpending] at hstep
      cases hstep
    | succ pending =>
      obtain rfl : pending = 0 := by omega
      simp only [step, hpending] at hstep
      cases hstep
      exact h.wlDpc hpending result
  | down masked =>
    cases hstep
    exact ⟨h.pending_le, fun hup ↦ (nomatch hup), fun hup ↦ (nomatch hup), h.callbacks,
      fun hup ↦ nomatch hup⟩
  | intrsSection =>
    cases hstep
    exact h

/-- In every run that starts right after `wl_up`, in both modes: at most one DPC is pending; while
the device is up, interrupts are masked exactly while it is, no assertion has failed and it was
never scheduled twice; and in passive mode it has one count exactly while it is pending. -/
theorem dpc_accounting (h : (machine passive).Reachable state) :
    state.pending ≤ 1 ∧
      (state.up = true → (state.masked = true ↔ state.pending = 1)) ∧
      (state.up = true → state.assertFailed = false ∧ state.collided = false) ∧
      (passive = true → state.callbacks = if state.pending = 1 then 1 else 0) := by
  have hinv : Inv passive state := by
    refine h.invariant (fun state hinitial ↦ ?_) fun _ _ _ ↦ step_inv
    rw [hinitial]
    exact afterUp_inv passive
  refine ⟨hinv.pending_le, hinv.masked, hinv.quiet, fun hpassive ↦ ?_⟩
  rw [hinv.callbacks hpassive]
  rcases Nat.le_one_iff_eq_zero_or_eq_one.mp hinv.pending_le with hzero | hone
  · rw [hzero]
    rfl
  · rw [hone]
    rfl

end Steps

/-- The DPC is rescheduled once, finds the device down, and has given up its count. -/
theorem dpc_accounting_device_down :
    ∃ state, (machine true).run afterUp [.isr true, .dpc ⟨true, none⟩, .down true,
        .dpc ⟨false, none⟩] = some state ∧ state.pending ≤ 1 ∧ state.callbacks = 0 :=
  ⟨_, rfl, (@dpc_accounting true _ ⟨afterUp, [.isr true, .dpc ⟨true, none⟩, .down true,
    .dpc ⟨false, none⟩], rfl, rfl⟩).1, (@dpc_accounting true _ ⟨afterUp, [.isr true,
    .dpc ⟨true, none⟩, .down true, .dpc ⟨false, none⟩], rfl, rfl⟩).2.2.2 rfl⟩

end BroadcomWl.Linux.Dpc
