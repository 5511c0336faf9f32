import Mathlib.Data.List.Basic
import Mathlib.Logic.Basic

/-!
# Machines, schedules and invariants

A machine has a set of initial states and, for every label, a partial step. A
schedule is a list of labels; it is the only source of nondeterminism, so every
interleaving of several threads is a schedule of the machine that holds the
states of all of them. The module contains the rules every later proof uses:
the invariant rule, the rule for schedules whose steps all meet a condition, and
the transfer of reachability along a simulation.
-/

namespace BroadcomWl.Systems

/-- Initial states together with a partial step for every label. -/
structure Machine (State Label : Type*) where
  initial : State → Prop
  step : State → Label → Option State

namespace Machine

variable {State Label : Type*}

/-- Follow a schedule; the result is `none` when a label is not enabled in its turn. -/
def run (machine : Machine State Label) (state : State) : List Label → Option State
  | [] => some state
  | label :: labels => (machine.step state label).bind fun next ↦ run machine next labels

@[simp]
theorem run_nil (machine : Machine State Label) (state : State) :
    machine.run state [] = some state := rfl

theorem run_cons (machine : Machine State Label) (state : State) (label : Label)
    (labels : List Label) :
    machine.run state (label :: labels) =
      (machine.step state label).bind fun next ↦ machine.run next labels := rfl

theorem run_cons_eq_some {machine : Machine State Label} {state final : State} {label : Label}
    {labels : List Label} :
    machine.run state (label :: labels) = some final ↔
      ∃ next, machine.step state label = some next ∧ machine.run next labels = some final := by
  rw [run_cons, Option.bind_eq_some_iff]

theorem run_append (machine : Machine State Label) (state : State) (first second : List Label) :
    machine.run state (first ++ second) =
      (machine.run state first).bind fun next ↦ machine.run next second := by
  induction first generalizing state with
  | nil => rfl
  | cons label labels ih =>
    rw [List.cons_append, run_cons, run_cons]
    cases machine.step state label with
    | none => rfl
    | some next => exact ih next

/-- The states that some schedule reaches from an initial state. -/
def Reachable (machine : Machine State Label) (state : State) : Prop :=
  ∃ start labels, machine.initial start ∧ machine.run start labels = some state

variable {machine : Machine State Label}

theorem Reachable.start {state : State} (h : machine.initial state) : machine.Reachable state :=
  ⟨state, [], h, rfl⟩

theorem Reachable.run {state final : State} {labels : List Label} (h : machine.Reachable state)
    (hrun : machine.run state labels = some final) : machine.Reachable final := by
  obtain ⟨start, before, hstart, hbefore⟩ := h
  refine ⟨start, before ++ labels, hstart, ?_⟩
  rw [run_append, hbefore]
  exact hrun

theorem Reachable.step {state next : State} {label : Label} (h : machine.Reachable state)
    (hstep : machine.step state label = some next) : machine.Reachable next := by
  have hrun : machine.run state [label] = some next := by
    rw [run_cons, hstep]
    rfl
  exact h.run hrun

/-- What every step preserves, every schedule preserves. -/
theorem run_preserves {invariant : State → Prop}
    (hstep : ∀ state label next, invariant state → machine.step state label = some next →
      invariant next)
    {state final : State} {labels : List Label} (hstate : invariant state)
    (hrun : machine.run state labels = some final) : invariant final := by
  induction labels generalizing state with
  | nil =>
    cases hrun
    exact hstate
  | cons label labels ih =>
    obtain ⟨next, hnext, hrest⟩ := run_cons_eq_some.mp hrun
    exact ih (hstep state label next hstate hnext) hrest

/-- The invariant rule: initially true and preserved by every step. -/
theorem Reachable.invariant {invariant : State → Prop}
    (hinitial : ∀ state, machine.initial state → invariant state)
    (hstep : ∀ state label next, invariant state → machine.step state label = some next →
      invariant next)
    {state : State} (h : machine.Reachable state) : invariant state := by
  obtain ⟨start, labels, hstart, hrun⟩ := h
  exact run_preserves hstep (hinitial start hstart) hrun

/-! ## Schedules whose steps all meet a condition -/

/-- Every step of the schedule is taken in a state where it meets the condition. -/
def Along (machine : Machine State Label) (condition : State → Label → Prop) :
    State → List Label → Prop
  | _, [] => True
  | state, label :: labels =>
      condition state label ∧
        ∀ next, machine.step state label = some next → Along machine condition next labels

theorem along_cons_iff {condition : State → Label → Prop} {state : State} {label : Label}
    {labels : List Label} :
    machine.Along condition state (label :: labels) ↔
      condition state label ∧
        ∀ next, machine.step state label = some next → machine.Along condition next labels :=
  Iff.rfl

theorem Along.cons {condition : State → Label → Prop} {state next : State} {label : Label}
    {labels : List Label} (hcondition : condition state label)
    (hnext : machine.step state label = some next) (hrest : machine.Along condition next labels) :
    machine.Along condition state (label :: labels) := by
  refine ⟨hcondition, fun other hother ↦ ?_⟩
  obtain rfl : next = other := Option.some.inj (hnext.symm.trans hother)
  exact hrest

/-- A condition that only looks at the labels. -/
theorem along_of_forall {condition : State → Label → Prop} {labels : List Label} {state : State}
    (h : ∀ label ∈ labels, ∀ state, condition state label) :
    machine.Along condition state labels := by
  induction labels generalizing state with
  | nil => trivial
  | cons label labels ih =>
    rw [List.forall_mem_cons] at h
    exact ⟨h.1 state, fun next _ ↦ ih h.2⟩

/-- What every step that meets the condition preserves, the schedule preserves. -/
theorem Along.preserves {invariant : State → Prop} {condition : State → Label → Prop}
    (hstep : ∀ state label next, invariant state → condition state label →
      machine.step state label = some next → invariant next)
    {state final : State} {labels : List Label} (h : machine.Along condition state labels)
    (hstate : invariant state) (hrun : machine.run state labels = some final) :
    invariant final := by
  induction labels generalizing state with
  | nil =>
    cases hrun
    exact hstate
  | cons label labels ih =>
    obtain ⟨hcondition, hafter⟩ := along_cons_iff.mp h
    obtain ⟨next, hnext, hrest⟩ := run_cons_eq_some.mp hrun
    exact ih (hafter next hnext) (hstep state label next hstate hcondition hnext) hrest

/-- The machine that takes a step only when the step meets the condition. -/
def restrict (machine : Machine State Label) (condition : State → Label → Prop)
    [∀ state label, Decidable (condition state label)] : Machine State Label where
  initial := machine.initial
  step state label := if condition state label then machine.step state label else none

section Restrict

variable {condition : State → Label → Prop} [∀ state label, Decidable (condition state label)]

theorem restrict_step_eq_some {state next : State} {label : Label} :
    (machine.restrict condition).step state label = some next ↔
      condition state label ∧ machine.step state label = some next :=
  Option.ite_none_right_eq_some

theorem run_of_restrict {state final : State} {labels : List Label}
    (h : (machine.restrict condition).run state labels = some final) :
    machine.run state labels = some final := by
  induction labels generalizing state with
  | nil => exact h
  | cons label labels ih =>
    obtain ⟨next, hnext, hrest⟩ := run_cons_eq_some.mp h
    exact run_cons_eq_some.mpr ⟨next, (restrict_step_eq_some.mp hnext).2, ih hrest⟩

theorem Reachable.of_restrict {state : State} (h : (machine.restrict condition).Reachable state) :
    machine.Reachable state := by
  obtain ⟨start, labels, hstart, hrun⟩ := h
  exact ⟨start, labels, hstart, run_of_restrict hrun⟩

end Restrict

/-- Two step conditions hold along the same schedules when, in every state of an invariant,
one step meets the first exactly when it meets the second, and such a step keeps the
invariant. -/
theorem along_congr {invariant : State → Prop} {first second : State → Label → Prop}
    (hcondition : ∀ state label, invariant state → (first state label ↔ second state label))
    (hstep : ∀ state label next, invariant state → first state label →
      machine.step state label = some next → invariant next)
    {state : State} {labels : List Label} (hstate : invariant state) :
    machine.Along first state labels ↔ machine.Along second state labels := by
  induction labels generalizing state with
  | nil => exact Iff.rfl
  | cons label labels ih =>
    rw [along_cons_iff, along_cons_iff, ← hcondition state label hstate]
    refine and_congr_right fun hfirst ↦ forall_congr' fun next ↦ ?_
    exact forall_congr' fun hnext ↦ ih (hstep state label next hstate hfirst hnext)

/-! ## Simulation -/

/-- A simulation relates every concrete step to a schedule of the abstract machine. -/
structure Simulation {AbstractState AbstractLabel : Type*} (machine : Machine State Label)
    (abstract : Machine AbstractState AbstractLabel)
    (related : State → AbstractState → Prop) : Prop where
  initial : ∀ state, machine.initial state → ∃ image, abstract.initial image ∧ related state image
  step : ∀ state label next image, related state image → machine.step state label = some next →
    ∃ labels nextImage, abstract.run image labels = some nextImage ∧ related next nextImage

/-- Every reachable concrete state is related to a reachable abstract state. -/
theorem Simulation.reachable {AbstractState AbstractLabel : Type*}
    {abstract : Machine AbstractState AbstractLabel} {related : State → AbstractState → Prop}
    (simulation : Simulation machine abstract related) {state : State}
    (h : machine.Reachable state) : ∃ image, abstract.Reachable image ∧ related state image := by
  let simulated := fun state ↦ ∃ image, abstract.Reachable image ∧ related state image
  have hinitial : ∀ state, machine.initial state → simulated state := by
    intro state hstate
    obtain ⟨image, himage, hrelated⟩ := simulation.initial state hstate
    exact ⟨image, .start himage, hrelated⟩
  have hstep : ∀ state label next, simulated state → machine.step state label = some next →
      simulated next := by
    intro state label next hstate hnext
    obtain ⟨image, himage, hrelated⟩ := hstate
    obtain ⟨labels, nextImage, hrun, hrelated'⟩ :=
      simulation.step state label next image hrelated hnext
    exact ⟨nextImage, himage.run hrun, hrelated'⟩
  exact h.invariant hinitial hstep

end Machine

end BroadcomWl.Systems
