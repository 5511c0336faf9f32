import Mathlib.Data.Finset.Card
import Mathlib.Data.Fintype.Defs
import Mathlib.Logic.Function.Basic

/-!
# Counting the threads at a place

A family of identical threads is a function from thread names to program counters.
An invariant that speaks about how many threads are at some place only needs to know
how one step of one thread changes that number.
-/

namespace BroadcomWl.Systems

variable {Thread Pc : Type*}

/-- After one thread has moved, a thread is at a place because it is the one that moved there, or
because it is another one that was there before. -/
theorem update_eq [DecidableEq Thread] {pc : Thread → Pc} {thread other : Thread} {new place : Pc}
    (h : Function.update pc thread new other = place) :
    other = thread ∧ new = place ∨ other ≠ thread ∧ pc other = place := by
  by_cases hsame : other = thread
  · subst hsame
    rw [Function.update_self] at h
    exact .inl ⟨rfl, h⟩
  · rw [Function.update_of_ne hsame] at h
    exact .inr ⟨hsame, h⟩

variable [Fintype Thread]

/-- How many threads have a program counter that satisfies `place`. -/
def threadsAt (place : Pc → Bool) (pc : Thread → Pc) : ℕ :=
  (Finset.univ.filter fun thread ↦ place (pc thread)).card

/-- A thread outside the place does not count, so nobody is there when all are outside. -/
theorem threadsAt_eq_zero {place : Pc → Bool} {pc : Thread → Pc}
    (h : ∀ thread, place (pc thread) = false) : threadsAt place pc = 0 := by
  refine Finset.card_eq_zero.mpr (Finset.filter_eq_empty_iff.mpr fun thread _ ↦ ?_)
  simp [h thread]

variable [DecidableEq Thread]

theorem filter_update_erase (place : Pc → Bool) (pc : Thread → Pc) (thread : Thread) (new : Pc) :
    (Finset.univ.filter fun other ↦ place (Function.update pc thread new other)).erase thread =
      (Finset.univ.filter fun other ↦ place (pc other)).erase thread := by
  ext other
  by_cases hother : other = thread
  · simp [hother]
  · simp [hother]

/-- One thread moves: the number changes by what it contributes before and after. -/
theorem threadsAt_update (place : Pc → Bool) (pc : Thread → Pc) (thread : Thread) (new : Pc) :
    threadsAt place (Function.update pc thread new) + (place (pc thread)).toNat =
      threadsAt place pc + (place new).toNat := by
  have hcard : ∀ f : Thread → Pc,
      ((Finset.univ.filter fun other ↦ place (f other)).erase thread).card +
        (place (f thread)).toNat = threadsAt place f := by
    intro f
    cases hplace : place (f thread) with
    | false =>
      rw [Finset.erase_eq_of_notMem (by simp [hplace])]
      rfl
    | true => exact Finset.card_erase_add_one (by simp [hplace])
  have hold := hcard pc
  have hnew := hcard (Function.update pc thread new)
  rw [filter_update_erase, Function.update_self] at hnew
  omega

end BroadcomWl.Systems
