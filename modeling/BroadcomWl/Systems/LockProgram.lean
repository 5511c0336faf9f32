import BroadcomWl.Systems.Machine
import Mathlib.Logic.Function.Basic

/-!
# Programs around one lock

A program takes and releases one lock and puts questions to its environment; what it does next
depends on the answers. `Ends` says, for every admitted answer, that a program started with the
lock taken or free never takes a lock that is taken, never releases one that is free, and leaves
it as stated. Its rules follow the syntax of a program. Run alone, such a program is never stuck;
run beside others, the thread that has the lock always comes to release it.
-/

namespace BroadcomWl.Systems

/-- A result, an operation on the lock, or a question whose answer selects the rest. -/
inductive LockProgram (Question Answer α : Type) where
  | done (result : α)
  | lock (rest : LockProgram Question Answer α)
  | unlock (rest : LockProgram Question Answer α)
  | ask (question : Question) (rest : Answer → LockProgram Question Answer α)

namespace LockProgram

variable {Question Answer α β : Type}

/-- Continue every result of a program with another program. -/
def andThen (program : LockProgram Question Answer α)
    (next : α → LockProgram Question Answer β) : LockProgram Question Answer β :=
  match program with
  | done result => next result
  | lock rest => lock (andThen rest next)
  | unlock rest => unlock (andThen rest next)
  | ask question rest => ask question fun answer ↦ andThen (rest answer) next

instance : Monad (LockProgram Question Answer) where
  pure := done
  bind := andThen

/-- Take the lock. -/
def acquire : LockProgram Question Answer Unit := lock (done ())

/-- Release the lock. -/
def release : LockProgram Question Answer Unit := unlock (done ())

/-- Put a question and return the answer. -/
def query (question : Question) : LockProgram Question Answer Answer := ask question done

/-- The same program a number of times. -/
def times (body : LockProgram Question Answer Unit) : ℕ → LockProgram Question Answer Unit
  | 0 => pure ()
  | count + 1 => body >>= fun _ ↦ times body count

end LockProgram

/-- A program that has nothing to do with the lock. -/
inductive Dialogue (Question Answer α : Type) where
  | done (result : α)
  | ask (question : Question) (rest : Answer → Dialogue Question Answer α)

namespace Dialogue

variable {Question Answer Other Reply α β : Type}

def andThen (dialogue : Dialogue Question Answer α) (next : α → Dialogue Question Answer β) :
    Dialogue Question Answer β :=
  match dialogue with
  | done result => next result
  | ask question rest => ask question fun answer ↦ andThen (rest answer) next

instance : Monad (Dialogue Question Answer) where
  pure := done
  bind := andThen

def query (question : Question) : Dialogue Question Answer Answer := ask question done

/-- Every question is answered by a program, which may use the lock. -/
def serve (handler : Question → LockProgram Other Reply Answer) :
    Dialogue Question Answer α → LockProgram Other Reply α
  | done result => .done result
  | ask question rest => handler question >>= fun answer ↦ serve handler (rest answer)

instance : MonadLift (Dialogue Question Answer) (LockProgram Question Answer) where
  monadLift := serve LockProgram.query

end Dialogue

namespace LockProgram

variable {Question Answer α β : Type}

/-! ## What a program does to the lock -/

variable {allowed : Question → Answer → Prop} {before middle after held : Bool}

/-- For all admitted answers the program takes the lock only when it is free, releases it only
when it is taken, and leaves it as in `after`. -/
def Ends (allowed : Question → Answer → Prop) :
    LockProgram Question Answer α → Bool → Bool → Prop
  | done _, before, after => before = after
  | lock rest, before, after => before = false ∧ Ends allowed rest true after
  | unlock rest, before, after => before = true ∧ Ends allowed rest false after
  | ask question rest, before, after =>
      ∀ answer, allowed question answer → Ends allowed (rest answer) before after

theorem Ends.pure (result : α) :
    (Pure.pure result : LockProgram Question Answer α).Ends allowed held held := rfl

theorem Ends.acquire : (acquire : LockProgram Question Answer Unit).Ends allowed false true :=
  ⟨rfl, rfl⟩

theorem Ends.release : (release : LockProgram Question Answer Unit).Ends allowed true false :=
  ⟨rfl, rfl⟩

theorem Ends.query (question : Question) :
    (query question : LockProgram Question Answer Answer).Ends allowed held held :=
  fun _ _ ↦ rfl

/-- The rule of sequencing: the second program starts with the lock as the first leaves it. -/
theorem Ends.bind {program : LockProgram Question Answer α}
    {next : α → LockProgram Question Answer β} (h : program.Ends allowed before middle)
    (hnext : ∀ result, (next result).Ends allowed middle after) :
    (program >>= next).Ends allowed before after := by
  induction program generalizing before with
  | done result =>
    obtain rfl : before = middle := h
    exact hnext result
  | lock rest ih => exact ⟨h.1, ih h.2⟩
  | unlock rest ih => exact ⟨h.1, ih h.2⟩
  | ask question rest ih => exact fun answer hanswer ↦ ih answer (h answer hanswer)

/-- A question whose answers are admitted: the rest only has to deal with these. -/
theorem Ends.answered {question : Question} {next : Answer → LockProgram Question Answer β}
    (h : ∀ answer, allowed question answer → (next answer).Ends allowed before after) :
    (liftM (Dialogue.query question : Dialogue Question Answer Answer) >>= next :
      LockProgram Question Answer β).Ends allowed before after := h

theorem Ends.ite {condition : Prop} {_ : Decidable condition}
    {first second : LockProgram Question Answer α}
    (hfirst : condition → first.Ends allowed before after)
    (hsecond : ¬condition → second.Ends allowed before after) :
    (if condition then first else second).Ends allowed before after := by
  split
  · exact hfirst ‹_›
  · exact hsecond ‹_›

theorem Ends.times {body : LockProgram Question Answer Unit} (h : body.Ends allowed held held) :
    ∀ count, (times body count).Ends allowed held held
  | 0 => .pure ()
  | count + 1 => h.bind fun _ ↦ Ends.times h count

/-- A dialogue leaves the lock alone when the programs that answer it do. -/
theorem Ends.serve {Other : Type} {handler : Other → LockProgram Question Answer α}
    (h : ∀ question, (handler question).Ends allowed held held) :
    ∀ dialogue : Dialogue Other α β, (dialogue.serve handler).Ends allowed held held
  | .done _ => rfl
  | .ask question rest => (h question).bind fun answer ↦ Ends.serve h (rest answer)

theorem Ends.dialogue (dialogue : Dialogue Question Answer α) :
    (liftM dialogue : LockProgram Question Answer α).Ends allowed held held :=
  Ends.serve Ends.query dialogue

/-! ## One run -/

/-- Run a program alone against one answer for each question asked. The result is `none` when
the lock is taken while it is taken or released while it is free. -/
def exec (answers : ℕ → Question → Answer) :
    LockProgram Question Answer α → ℕ → Bool → Option (α × Bool)
  | done result, _, held => some (result, held)
  | lock rest, asked, held => if held then none else exec answers rest asked true
  | unlock rest, asked, held => if held then exec answers rest asked false else none
  | ask question rest, asked, held => exec answers (rest (answers asked question)) (asked + 1) held

/-- `Ends` is about runs: with admitted answers the run is not stuck and leaves the lock so. -/
theorem Ends.exec {program : LockProgram Question Answer α}
    (h : program.Ends allowed before after) {answers : ℕ → Question → Answer}
    (hallowed : ∀ asked question, allowed question (answers asked question)) (asked : ℕ) :
    ∃ result, program.exec answers asked before = some (result, after) := by
  induction program generalizing before asked with
  | done result =>
    obtain rfl : before = after := h
    exact ⟨result, rfl⟩
  | lock rest ih =>
    obtain ⟨rfl, hrest⟩ := h
    exact ih hrest asked
  | unlock rest ih =>
    obtain ⟨rfl, hrest⟩ := h
    exact ih hrest asked
  | ask question rest ih =>
    exact ih _ (h _ (hallowed asked question)) (asked + 1)

end LockProgram

/-! ## Threads that share the lock -/

/-- What every thread still has to do, who has the lock, and whether it was released by a thread
that did not have it. -/
structure LockThreads (Thread Question Answer α : Type) where
  program : Thread → LockProgram Question Answer α
  holder : Option Thread
  faulted : Bool

/-- An idle thread begins a call, or a thread takes its next step. -/
inductive LockLabel (Thread Call Answer : Type) where
  | begin (thread : Thread) (call : Call)
  | proceed (thread : Thread) (answer : Answer)

namespace LockThreads

open LockProgram

variable {Thread Call Question Answer α : Type} [DecidableEq Thread]

/-- `thread` goes on with `rest`. -/
def resume (state : LockThreads Thread Question Answer α) (thread : Thread)
    (rest : LockProgram Question Answer α) : LockThreads Thread Question Answer α :=
  { state with program := Function.update state.program thread rest }

/-- `thread` has the lock. -/
def holds (state : LockThreads Thread Question Answer α) (thread : Thread) : Bool :=
  decide (state.holder = some thread)

/-- One step of a thread with something left to do. At `lock` it waits until nobody has it. -/
def proceed (state : LockThreads Thread Question Answer α) (thread : Thread) (answer : Answer) :
    LockProgram Question Answer α → Option (LockThreads Thread Question Answer α)
  | .done _ => none
  | .lock rest =>
      if state.holder = none then some { state.resume thread rest with holder := some thread }
      else none
  | .unlock rest =>
      some { state.resume thread rest with
        holder := none, faulted := state.faulted || !state.holds thread }
  | .ask _ rest => some (state.resume thread (rest answer))

def step (calls : Call → LockProgram Question Answer α)
    (state : LockThreads Thread Question Answer α) :
    LockLabel Thread Call Answer → Option (LockThreads Thread Question Answer α)
  | .begin thread call =>
      match state.program thread with
      | .done _ => some (state.resume thread (calls call))
      | _ => none
  | .proceed thread answer => state.proceed thread answer (state.program thread)

/-- Every thread is idle and the lock is free. -/
def initial (state : LockThreads Thread Question Answer α) : Prop :=
  (∀ thread, ∃ result, state.program thread = .done result) ∧
    state.holder = none ∧ state.faulted = false

def machine (calls : Call → LockProgram Question Answer α) :
    Machine (LockThreads Thread Question Answer α) (LockLabel Thread Call Answer) where
  initial := initial
  step := step calls

/-- The answer given in this step is admitted for the question the thread asks. -/
def Admits (allowed : Question → Answer → Prop) (state : LockThreads Thread Question Answer α) :
    LockLabel Thread Call Answer → Prop
  | .begin _ _ => True
  | .proceed thread answer =>
      ∀ question rest, state.program thread = .ask question rest → allowed question answer

/-- Every thread deals properly with the lock from where it is, and none has broken the rules. -/
structure Orderly (allowed : Question → Answer → Prop)
    (state : LockThreads Thread Question Answer α) : Prop where
  ends : ∀ thread, (state.program thread).Ends allowed (state.holds thread) false
  faulted : state.faulted = false

variable {allowed : Question → Answer → Prop} {calls : Call → LockProgram Question Answer α}
  {state next : LockThreads Thread Question Answer α} {thread : Thread}

theorem Orderly.initial (h : LockThreads.initial state) : Orderly allowed state := by
  refine ⟨fun thread ↦ ?_, h.2.2⟩
  obtain ⟨result, hresult⟩ := h.1 thread
  rw [hresult, holds, h.2.1]
  rfl

/-- A thread that asks or begins a call leaves the lock to whoever has it. -/
theorem Orderly.resume (h : Orderly allowed state) {rest : LockProgram Question Answer α}
    (hrest : rest.Ends allowed (state.holds thread) false) :
    Orderly allowed (state.resume thread rest) := by
  refine ⟨fun other ↦ ?_, h.faulted⟩
  change (Function.update state.program thread rest other).Ends allowed (state.holds other) false
  by_cases hother : other = thread
  · rw [hother, Function.update_self]
    exact hrest
  · rw [Function.update_of_ne hother]
    exact h.ends other

/-- Nobody but `thread` has the lock. -/
theorem holds_other {holder : Option Thread} {other : Thread}
    (hholder : holder = none ∨ holder = some thread) (hother : other ≠ thread) :
    decide (holder = some other) = false := by
  refine decide_eq_false fun heq ↦ ?_
  rcases hholder with rfl | rfl
  · cases heq
  · exact hother (Option.some.inj heq).symm

/-- The lock passes between the thread that moves and nobody. -/
theorem Orderly.pass (h : Orderly allowed state) {rest : LockProgram Question Answer α}
    {holder : Option Thread} (hbefore : state.holder = none ∨ state.holder = some thread)
    (hafter : holder = none ∨ holder = some thread)
    (hrest : rest.Ends allowed (decide (holder = some thread)) false) :
    Orderly allowed { state.resume thread rest with holder := holder } := by
  refine ⟨fun other ↦ ?_, h.faulted⟩
  change (Function.update state.program thread rest other).Ends allowed
    (decide (holder = some other)) false
  by_cases hother : other = thread
  · rw [hother, Function.update_self]
    exact hrest
  · have hends := h.ends other
    rw [holds, holds_other hbefore hother] at hends
    rw [Function.update_of_ne hother, holds_other hafter hother]
    exact hends

theorem Orderly.proceed (h : Orderly allowed state) {program : LockProgram Question Answer α}
    {answer : Answer} (hends : program.Ends allowed (state.holds thread) false)
    (hadmits : ∀ question rest, program = .ask question rest → allowed question answer)
    (hstep : state.proceed thread answer program = some next) : Orderly allowed next := by
  cases program with
  | done result => cases hstep
  | lock rest =>
    obtain ⟨hfree, hnext⟩ := Option.ite_none_right_eq_some.mp hstep
    cases hnext
    refine h.pass (.inl hfree) (.inr rfl) ?_
    rw [decide_eq_true rfl]
    exact hends.2
  | unlock rest =>
    cases hstep
    have hpassed : Orderly allowed { state.resume thread rest with holder := none } :=
      h.pass (.inr (of_decide_eq_true hends.1)) (.inl rfl) hends.2
    refine ⟨hpassed.ends, ?_⟩
    change (state.faulted || !state.holds thread) = false
    rw [h.faulted, hends.1]
    rfl
  | ask question rest =>
    cases hstep
    exact h.resume (hends answer (hadmits question rest rfl))

/-- When every call keeps the rules, every step does. -/
theorem Orderly.step (hcalls : ∀ call, (calls call).Ends allowed false false)
    (h : Orderly allowed state) {label : LockLabel Thread Call Answer}
    (hadmits : Admits allowed state label) (hstep : step calls state label = some next) :
    Orderly allowed next := by
  cases label with
  | begin thread call =>
    have hends := h.ends thread
    unfold LockThreads.step at hstep
    cases hprogram : state.program thread with
    | done result =>
      simp only [hprogram, Option.some.injEq] at hstep
      subst hstep
      rw [hprogram] at hends
      have hfree : state.holds thread = false := hends
      refine h.resume ?_
      rw [hfree]
      exact hcalls call
    | _ => simp only [hprogram, reduceCtorEq] at hstep
  | proceed thread answer => exact h.proceed (h.ends thread) hadmits hstep

/-- No run of calls that keep the rules breaks them, whatever the interleaving. -/
theorem Orderly.run (hcalls : ∀ call, (calls call).Ends allowed false false)
    {start final : LockThreads Thread Question Answer α}
    {labels : List (LockLabel Thread Call Answer)} (hstart : LockThreads.initial start)
    (halong : (machine calls).Along (Admits allowed) start labels)
    (hrun : (machine calls).run start labels = some final) : Orderly allowed final :=
  halong.preserves (fun _ _ _ h hadmits hstep ↦ h.step hcalls hadmits hstep)
    (Orderly.initial hstart) hrun

/-- A thread that waits for the lock waits for another one. -/
theorem Orderly.waits_for_other (h : Orderly allowed state)
    {rest : LockProgram Question Answer α} (hwaits : state.program thread = .lock rest) :
    state.holder ≠ some thread := by
  have hends := h.ends thread
  rw [hwaits] at hends
  exact of_decide_eq_false hends.1

/-- Some steps of `thread` alone, each of them answered as `reply` says, free the lock. -/
def Frees (calls : Call → LockProgram Question Answer α) (reply : Question → Answer)
    (thread : Thread) (state : LockThreads Thread Question Answer α) : Prop :=
  ∃ labels final, (∀ label ∈ labels, ∃ answer, label = .proceed thread answer) ∧
    (machine calls).Along (Admits fun question answer ↦ answer = reply question) state labels ∧
    (machine calls).run state labels = some final ∧ final.holder = none

/-- The thread that has the lock comes to release it by its own steps, whatever it is answered:
nobody waits for a lock that nobody will release. -/
theorem Orderly.holder_frees [Inhabited Answer] (calls : Call → LockProgram Question Answer α)
    (h : Orderly allowed state) (hholder : state.holder = some thread)
    {reply : Question → Answer} (hreply : ∀ question, allowed question (reply question)) :
    Frees calls reply thread state := by
  have hends := h.ends thread
  rw [holds, decide_eq_true hholder] at hends
  generalize hprogram : state.program thread = program at hends
  induction program generalizing state with
  | done result => cases hends
  | lock rest ih => cases hends.1
  | unlock rest ih =>
    have hstep : (machine calls).step state (.proceed thread default) =
        some { state.resume thread rest with
          holder := none, faulted := state.faulted || !state.holds thread } := by
      change state.proceed thread default (state.program thread) = _
      rw [hprogram]
      rfl
    refine ⟨[.proceed thread default], _, ?_, ?_, Machine.run_cons_eq_some.mpr ⟨_, hstep, rfl⟩, rfl⟩
    · rintro label hlabel
      exact ⟨default, List.mem_singleton.mp hlabel⟩
    · refine ⟨fun question other hother ↦ ?_, fun _ _ ↦ trivial⟩
      rw [hprogram] at hother
      cases hother
  | ask question rest ih =>
    have hrest := hends (reply question) (hreply question)
    have hstep : (machine calls).step state (.proceed thread (reply question)) =
        some (state.resume thread (rest (reply question))) := by
      change state.proceed thread (reply question) (state.program thread) = _
      rw [hprogram]
      rfl
    have horderly : Orderly allowed (state.resume thread (rest (reply question))) := by
      refine h.resume ?_
      rw [holds, decide_eq_true hholder]
      exact hrest
    obtain ⟨labels, final, hown, halong, hrun, hfree⟩ := ih (reply question) horderly hholder
      (Function.update_self ..) hrest
    refine ⟨.proceed thread (reply question) :: labels, final, ?_, ?_,
      Machine.run_cons_eq_some.mpr ⟨_, hstep, hrun⟩, hfree⟩
    · exact List.forall_mem_cons.mpr ⟨⟨reply question, rfl⟩, hown⟩
    · refine Machine.Along.cons (fun asked other hasked ↦ ?_) hstep halong
      rw [hprogram] at hasked
      cases hasked
      rfl

end LockThreads

end BroadcomWl.Systems
