import Mathlib.Data.Finset.Basic
import Mathlib.Data.List.Pairwise

/-!
# Ledgers of resources

A log records how resources are acquired, accessed and released. It is accounted for when
everything acquired is released exactly once and nothing is touched behind its release. A log
in progress holds a set of resources; each kind of event has one rule, and a log that holds
nothing at its end is accounted for. A log that has once touched a released resource stays
unaccounted for however it goes on.
-/

namespace BroadcomWl.Memory.Ledger

/-- One operation on a resource. -/
inductive Event (Resource : Type*) where
  | acquire (resource : Resource)
  | access (resource : Resource)
  | release (resource : Resource)
deriving DecidableEq, Repr

variable {Resource : Type*}

def Event.resource : Event Resource → Resource
  | .acquire resource | .access resource | .release resource => resource

/-- No resource is touched behind its release. -/
def Quiet (log : List (Event Resource)) : Prop :=
  log.Pairwise fun earlier later ↦ earlier ≠ .release later.resource

/-- The resources that a log has acquired and not released. -/
structure Holds (log : List (Event Resource)) (held : Finset Resource) : Prop where
  quiet : Quiet log
  mem_iff : ∀ resource, resource ∈ held ↔ .acquire resource ∈ log ∧ .release resource ∉ log

variable {log more : List (Event Resource)} {held : Finset Resource} {resource : Resource}

theorem quiet_concat {event : Event Resource} :
    Quiet (log ++ [event]) ↔ Quiet log ∧ .release event.resource ∉ log := by
  rw [Quiet, List.pairwise_append]
  constructor
  · rintro ⟨hlog, _, hlate⟩
    exact ⟨hlog, fun hmem ↦ hlate _ hmem event (List.mem_singleton_self event) rfl⟩
  · rintro ⟨hlog, hnot⟩
    refine ⟨hlog, List.pairwise_singleton _ _, fun earlier hmem later hlater heq ↦ ?_⟩
    obtain rfl : later = event := List.mem_singleton.mp hlater
    exact hnot (heq ▸ hmem)

theorem Quiet.of_append (h : Quiet (log ++ more)) : Quiet log :=
  (List.pairwise_append.mp h).1

/-- What stands somewhere behind a release is about another resource. -/
theorem Quiet.ne_of_sublist {event : Event Resource} (h : Quiet log)
    (hlate : [.release resource, event].Sublist log) : event.resource ≠ resource := by
  have hpair := List.rel_of_pairwise_cons (List.Pairwise.sublist hlate h)
    (List.mem_singleton_self event)
  exact fun heq ↦ hpair (heq ▸ rfl)

theorem holds_nil : Holds ([] : List (Event Resource)) ∅ :=
  ⟨List.Pairwise.nil, fun _ ↦ by simp⟩

theorem Holds.access (h : Holds log held) (hmem : resource ∈ held) :
    Holds (log ++ [.access resource]) held := by
  refine ⟨quiet_concat.mpr ⟨h.quiet, ((h.mem_iff resource).mp hmem).2⟩, fun other ↦ ?_⟩
  simp [h.mem_iff other]

variable [DecidableEq Resource]

theorem Holds.acquire (h : Holds log held) (hnew : .release resource ∉ log) :
    Holds (log ++ [.acquire resource]) (insert resource held) := by
  refine ⟨quiet_concat.mpr ⟨h.quiet, hnew⟩, fun other ↦ ?_⟩
  by_cases hsame : other = resource
  · simp [hsame, hnew]
  · simp [hsame, h.mem_iff other]

theorem Holds.release (h : Holds log held) (hmem : resource ∈ held) :
    Holds (log ++ [.release resource]) (held.erase resource) := by
  refine ⟨quiet_concat.mpr ⟨h.quiet, ((h.mem_iff resource).mp hmem).2⟩, fun other ↦ ?_⟩
  by_cases hsame : other = resource
  · simp [hsame]
  · simp [hsame, h.mem_iff other]

/-- Releasing what was acquired last. -/
theorem Holds.release_insert (h : Holds log (insert resource held)) (hnot : resource ∉ held) :
    Holds (log ++ [.release resource]) held := by
  have hreleased := h.release (Finset.mem_insert_self resource held)
  rwa [Finset.erase_insert hnot] at hreleased

/-- What is acquired is released exactly once, and nothing is touched behind its release. -/
structure Accounted (log : List (Event Resource)) : Prop where
  released : ∀ resource, .acquire resource ∈ log → log.count (.release resource) = 1
  quiet : Quiet log

theorem Quiet.count_le_one (h : Quiet log) (resource : Resource) :
    log.count (.release resource) ≤ 1 := by
  induction log with
  | nil => exact Nat.zero_le _
  | cons event log ih =>
    obtain ⟨hfirst, hrest⟩ := List.pairwise_cons.mp h
    by_cases hrelease : event = .release resource
    · have hnot : .release resource ∉ log := fun hmem ↦ hfirst _ hmem hrelease
      rw [hrelease, List.count_cons_self, List.count_eq_zero_of_not_mem hnot]
    · rw [List.count_cons_of_ne hrelease]
      exact ih hrest

/-- A log that holds nothing is accounted for. -/
theorem Holds.accounted (h : Holds log ∅) : Accounted log := by
  refine ⟨fun resource hacquired ↦ ?_, h.quiet⟩
  have hreleased : .release resource ∈ log := by
    by_contra hnot
    exact Finset.notMem_empty resource ((h.mem_iff resource).mpr ⟨hacquired, hnot⟩)
  exact Nat.le_antisymm (h.quiet.count_le_one resource) (List.count_pos_iff.mpr hreleased)

/-- A log that holds something is not. -/
theorem Holds.not_accounted (h : Holds log held) (hmem : resource ∈ held) : ¬Accounted log := by
  intro haccounted
  obtain ⟨hacquired, hnot⟩ := (h.mem_iff resource).mp hmem
  have hone := haccounted.released resource hacquired
  rw [List.count_eq_zero_of_not_mem hnot] at hone
  exact Nat.zero_ne_one hone

end BroadcomWl.Memory.Ledger
