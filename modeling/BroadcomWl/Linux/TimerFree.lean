import BroadcomWl.Linux.TimerTasks

/-!
# Releasing a timer

`wl_free_timer` takes a timer off the list and releases it, but does not wait for a handler that
has started. A handler that waits for `WL_LOCK` tests the timer when it gets the lock, and in
passive mode the task of a timer reads it again behind `_wl_timer`. As long as no timer is
released under such a handler, none is touched behind its release; a release that does not
respect this is followed by a use of the timer when the handlers run on. The list is kept in
order in any case.
-/

namespace BroadcomWl.Linux.TimerTasks

open BroadcomWl.Memory BroadcomWl.Systems

variable {Id : Type*} [DecidableEq Id]

/-- No handler or task will touch the timer any more. The `t->fn` that runs does not count by
default: `_wl_timer` has no use for the timer behind it. -/
structure Unused (passive : Bool) (state : State Id) (t : Id) : Prop where
  waiting : t ∉ state.waiting
  running : passive = true → state.running ≠ some t
  after : t ∉ state.after
  decrementing : t ∉ state.decrementing

/-- Timers are released only when no handler or task will touch them. -/
def SafeFree (passive : Bool) (state : State Id) (label : Label Id) : Prop :=
  ∀ t, label = .free t → Unused passive state t

/-- A step of a handler or a task. -/
def Label.IsHandler : Label Id → Prop
  | .enter .. | .leave | .freeTask _ | .decCallbacks _ => True
  | .init _ | .add .. | .del _ | .free _ | .expire .. => False

/-! ## The list -/

/-- The list has exactly the timers that are not released, each once. -/
structure ListIs (state : State Id) (nodes : List Id) : Prop where
  linked : Linked state.next state.timers nodes
  nodup : nodes.Nodup
  live : nodes.toFinset = state.live

section List

variable {passive : Bool} {hz : ℕ} {state next : State Id} {nodes : List Id} {t : Id}

theorem ListIs.mem_live (h : ListIs state nodes) (t : Id) : t ∈ state.live ↔ t ∈ nodes := by
  rw [← h.live, List.mem_toFinset]

theorem ListIs.wlInitTimer (h : ListIs state nodes) (hnew : t ∉ state.live) :
    ListIs (wlInitTimer t state) (t :: nodes) := by
  have hnode : t ∉ nodes := mt (h.mem_live t).mpr hnew
  refine ⟨segment_cons.mpr ⟨rfl, ?_⟩, List.nodup_cons.mpr ⟨hnode, h.nodup⟩, ?_⟩
  · change Linked (Function.update state.next t state.timers)
      (Function.update state.next t state.timers t) nodes
    rw [Function.update_self]
    exact (segment_update_of_notMem _ hnode).mpr h.linked
  · rw [List.toFinset_cons, h.live]
    rfl

/-- The timer is found and taken off the list before it is released. -/
theorem ListIs.unlinkTimer (h : ListIs state nodes) (hmem : t ∈ nodes) :
    ∃ timers link, unlinkTimer t state =
        some { state with timers := timers, next := link, live := state.live.erase t } ∧
      ListIs { state with timers := timers, next := link, live := state.live.erase t }
        (nodes.erase t) := by
  have hlive : (nodes.erase t).toFinset = state.live.erase t := by
    rw [toFinset_erase h.nodup, h.live]
  have hfuel : nodes.length ≤ state.live.card := by
    rw [← h.live, List.toFinset_card_of_nodup h.nodup]
  by_cases hhead : state.timers = some t
  · refine ⟨state.next t, state.next, if_pos hhead, ?_, h.nodup.erase t, hlive⟩
    have hlinked : Linked state.next (some t) nodes := hhead ▸ h.linked
    exact hlinked.erase_head
  · obtain ⟨before, hbefore, _, hlinked⟩ := h.linked.erase_behind h.nodup hmem hhead hfuel
    refine ⟨state.timers, Function.update state.next before (state.next t), ?_, hlinked,
      h.nodup.erase t, hlive⟩
    rw [TimerTasks.unlinkTimer, if_neg hhead, hbefore]
    rfl

/-- `wl_del_timer` leaves the list and the handlers alone. -/
theorem wlDelTimer_frame (t : Id) (state : State Id) :
    ∃ timer pending callbacks, wlDelTimer t state =
        { state with timer := timer, pending := pending, callbacks := callbacks } ∧
      pending ⊆ state.pending ∧ ((state.timer t).set = true → t ∉ pending) := by
  unfold wlDelTimer
  split
  · dsimp only
    split
    · exact ⟨_, _, _, rfl, Finset.erase_subset .., fun _ ↦ Finset.notMem_erase t _⟩
    · next hpending => exact ⟨_, _, _, rfl, Finset.Subset.refl _, fun _ ↦ hpending⟩
  · next hset => exact ⟨_, _, _, rfl, Finset.Subset.refl _, fun hset' ↦ absurd hset' hset⟩

/-- `wl_free_timer` on a timer of the list. -/
theorem ListIs.wlFreeTimer (h : ListIs state nodes) (hinv : Inv state) (hmem : t ∈ nodes) :
    ∃ timer pending callbacks timers link, wlFreeTimer t state = some { state with
        timer := timer, pending := pending, callbacks := callbacks
        timers := timers, next := link, live := state.live.erase t } ∧
      Linked link timers (nodes.erase t) ∧ pending ⊆ state.pending ∧ t ∉ pending := by
  obtain ⟨timer, pending, callbacks, hdel, hsubset, hdeleted⟩ := wlDelTimer_frame t state
  have hlist : ListIs { state with timer := timer, pending := pending, callbacks := callbacks }
      nodes := ⟨h.linked, h.nodup, h.live⟩
  obtain ⟨timers, link, hunlink, hlinked⟩ := hlist.unlinkTimer hmem
  have hpending : t ∉ pending := by
    cases hset : (state.timer t).set with
    | true => exact hdeleted hset
    | false =>
      intro hpending
      rw [hinv.pending_set t (hsubset hpending)] at hset
      cases hset
  refine ⟨timer, pending, callbacks, timers, link, ?_, hlinked.linked, hsubset, hpending⟩
  rw [TimerTasks.wlFreeTimer, hdel, hunlink]

end List

/-! ## Runs with safe releases -/

/-- The timers of pending kernel timers, handlers and tasks are not released. -/
structure Sound (passive : Bool) (state : State Id) (nodes : List Id) : Prop
    extends Inv state, ListIs state nodes where
  pending_live : ∀ t ∈ state.pending, t ∈ state.live
  waiting_live : ∀ t ∈ state.waiting, t ∈ state.live
  running_live : passive = true → ∀ t, state.running = some t → t ∈ state.live
  after_live : ∀ t ∈ state.after, t ∈ state.live
  decrementing_live : ∀ t ∈ state.decrementing, t ∈ state.live
  untouched : state.useAfterFree = false

theorem noTimers_sound (passive : Bool) : Sound passive (noTimers : State Id) [] where
  toInv := noTimers_inv
  toListIs := ⟨rfl, List.nodup_nil, rfl⟩
  pending_live _ hmem := absurd hmem (Finset.notMem_empty _)
  waiting_live _ hmem := absurd hmem (Multiset.notMem_zero _)
  running_live _ _ hrunning := nomatch hrunning
  after_live _ hmem := absurd hmem (Multiset.notMem_zero _)
  decrementing_live _ hmem := absurd hmem (Multiset.notMem_zero _)
  untouched := rfl

section Steps

variable {passive : Bool} {hz : ℕ} {state next : State Id} {nodes : List Id} {t : Id}

/-- Touching a timer that is not released. -/
theorem touch_eq_self (hlive : t ∈ state.live) : state.touch t = state := by
  have hfalse : decide (t ∉ state.live) = false := decide_eq_false (not_not_intro hlive)
  rw [State.touch, hfalse, Bool.or_false]

theorem mem_live_of_mem_cons {Id : Type*} {t : Id} {live : Finset Id} {items : Multiset Id}
    (hlive : t ∈ live) (h : ∀ u ∈ items, u ∈ live) : ∀ u ∈ t ::ₘ items, u ∈ live := by
  intro u hu
  rcases Multiset.mem_cons.mp hu with rfl | hu
  · exact hlive
  · exact h u hu

theorem Sound.wlInitTimer (h : Sound passive state nodes) (hnew : t ∉ state.allocated) :
    Sound passive (wlInitTimer t state) (t :: nodes) where
  toInv := h.toInv.wlInitTimer hnew
  toListIs := h.toListIs.wlInitTimer fun hlive ↦ hnew (h.live_allocated hlive)
  pending_live u hu := Finset.mem_insert_of_mem (h.pending_live u hu)
  waiting_live u hu := Finset.mem_insert_of_mem (h.waiting_live u hu)
  running_live hpassive u hu := Finset.mem_insert_of_mem (h.running_live hpassive u hu)
  after_live u hu := Finset.mem_insert_of_mem (h.after_live u hu)
  decrementing_live u hu := Finset.mem_insert_of_mem (h.decrementing_live u hu)
  untouched := h.untouched

theorem Sound.wlAddTimer (h : Sound passive state nodes) (hlive : t ∈ state.live)
    (hz jiffies ms : ℕ) (periodic : Bool) :
    Sound passive (wlAddTimer hz jiffies t ms periodic state) nodes := by
  have hinv := h.toInv.wlAddTimer (h.live_allocated hlive) hz jiffies ms periodic
  revert hinv
  unfold TimerTasks.wlAddTimer
  split
  · exact fun hinv ↦ { h with toInv := hinv }
  · refine fun hinv ↦ { h with toInv := hinv, pending_live := fun u hu ↦ ?_ }
    rcases Finset.mem_insert.mp hu with rfl | hu
    · exact hlive
    · exact h.pending_live u hu

theorem Sound.wlDelTimer (h : Sound passive state nodes) :
    Sound passive (TimerTasks.wlDelTimer t state) nodes := by
  have hinv : Inv (TimerTasks.wlDelTimer t state) := h.toInv.wlDelTimer
  revert hinv
  obtain ⟨timer, pending, callbacks, heq, hsubset, _⟩ := wlDelTimer_frame t state
  rw [heq]
  exact fun hinv ↦
    { h with toInv := hinv, pending_live := fun u hu ↦ h.pending_live u (hsubset hu) }

/-- Releasing a timer that no handler or task will touch. -/
theorem Sound.wlFreeTimer (h : Sound passive state nodes) (hmem : t ∈ nodes)
    (hunused : Unused passive state t) :
    ∃ next, wlFreeTimer t state = some next ∧ Sound passive next (nodes.erase t) := by
  obtain ⟨timer, pending, callbacks, timers, link, heq, hlinked, hsubset, hpending⟩ :=
    h.toListIs.wlFreeTimer h.toInv hmem
  have hinv := h.toInv.wlFreeTimer heq
  have hkept : ∀ u, u ≠ t → u ∈ state.live → u ∈ state.live.erase t :=
    fun u hne hlive ↦ Finset.mem_erase.mpr ⟨hne, hlive⟩
  refine ⟨_, heq, hinv, ⟨hlinked, h.nodup.erase t, ?_⟩, fun u hu ↦ ?_, fun u hu ↦ ?_,
    fun hpassive u hu ↦ ?_, fun u hu ↦ ?_, fun u hu ↦ ?_, h.untouched⟩
  · ext other
    rw [List.mem_toFinset, h.nodup.mem_erase_iff, Finset.mem_erase, h.mem_live]
  · exact hkept u (fun heq ↦ hpending (heq ▸ hu)) (h.pending_live u (hsubset hu))
  · exact hkept u (fun heq ↦ hunused.waiting (heq ▸ hu)) (h.waiting_live u hu)
  · exact hkept u (fun heq ↦ hunused.running hpassive (heq ▸ hu)) (h.running_live hpassive u hu)
  · exact hkept u (fun heq ↦ hunused.after (heq ▸ hu)) (h.after_live u hu)
  · exact hkept u (fun heq ↦ hunused.decrementing (heq ▸ hu)) (h.decrementing_live u hu)

theorem Sound.wlTimer (h : Sound passive state nodes) (hmem : t ∈ state.pending)
    (scheduled : Bool) : Sound passive (wlTimer passive t scheduled state) nodes := by
  have hinv := h.toInv.wlTimer hmem passive scheduled
  have hlive := h.pending_live t hmem
  have hpending : ∀ u ∈ state.pending.erase t, u ∈ state.live :=
    fun u hu ↦ h.pending_live u (Finset.mem_of_mem_erase hu)
  have hwaiting := mem_live_of_mem_cons hlive h.waiting_live
  revert hinv
  unfold TimerTasks.wlTimer
  rw [touch_eq_self hlive]
  dsimp only
  split
  · exact fun hinv ↦
      { h with toInv := hinv, pending_live := hpending, waiting_live := hwaiting }
  split
  · exact fun hinv ↦
      { h with toInv := hinv, pending_live := hpending, waiting_live := hwaiting }
  · exact fun hinv ↦ { h with toInv := hinv, pending_live := hpending }

theorem Sound.leave (h : Sound passive state nodes) (hlive : passive = true → t ∈ state.live) :
    Sound passive (leave passive t state) nodes := by
  refine { h with after_live := fun u hu ↦ ?_ }
  cases passive with
  | false => exact h.after_live u hu
  | true => exact mem_live_of_mem_cons (hlive rfl) h.after_live u hu

theorem Sound.enter (h : Sound passive state nodes) (hmem : t ∈ state.waiting) (hz jiffies : ℕ) :
    Sound passive (enter passive hz jiffies t state) nodes := by
  have hinv := h.toInv.enter hmem passive hz jiffies
  have hlive := h.waiting_live t hmem
  have hwaiting : ∀ u ∈ state.waiting.erase t, u ∈ state.live :=
    fun u hu ↦ h.waiting_live u (Multiset.mem_of_mem_erase hu)
  have hrunning : passive = true → ∀ u, some t = some u → u ∈ state.live :=
    fun _ u hu ↦ Option.some.inj hu ▸ hlive
  revert hinv
  unfold TimerTasks.enter
  rw [touch_eq_self hlive]
  dsimp only
  split
  · split
    · refine fun hinv ↦ { h with
        toInv := hinv, waiting_live := hwaiting, running_live := hrunning
        pending_live := fun u hu ↦ ?_ }
      rcases Finset.mem_insert.mp hu with rfl | hu
      · exact hlive
      · exact h.pending_live u hu
    · exact fun hinv ↦
        { h with toInv := hinv, waiting_live := hwaiting, running_live := hrunning }
  · intro hinv
    have htaken : Sound passive { state with waiting := state.waiting.erase t } nodes :=
      { h with waiting_allocated := hinv.waiting_allocated, waiting_live := hwaiting }
    exact htaken.leave fun _ ↦ hlive

/-- A step with a safe release touches no released timer. -/
theorem Sound.step {label : Label Id} (h : Sound passive state nodes)
    (hsafe : SafeFree passive state label) (hstep : step passive hz state label = some next) :
    ∃ nodes', Sound passive next nodes' := by
  cases label with
  | init t =>
    obtain ⟨hnew, hnext⟩ := Option.ite_none_right_eq_some.mp hstep
    cases hnext
    exact ⟨_, h.wlInitTimer hnew⟩
  | add t ms periodic jiffies =>
    obtain ⟨hlive, hnext⟩ := Option.ite_none_right_eq_some.mp hstep
    cases hnext
    exact ⟨_, h.wlAddTimer hlive ..⟩
  | del t =>
    obtain ⟨_, hnext⟩ := Option.ite_none_right_eq_some.mp hstep
    cases hnext
    exact ⟨_, h.wlDelTimer⟩
  | free t =>
    obtain ⟨hlive, hfree⟩ := Option.ite_none_right_eq_some.mp hstep
    obtain ⟨final, hfinal, hsound⟩ := h.wlFreeTimer ((h.mem_live t).mp hlive) (hsafe t rfl)
    obtain rfl : final = next := Option.some.inj (hfinal.symm.trans hfree)
    exact ⟨_, hsound⟩
  | expire t scheduled =>
    obtain ⟨hmem, hnext⟩ := Option.ite_none_right_eq_some.mp hstep
    cases hnext
    exact ⟨_, h.wlTimer hmem scheduled⟩
  | enter t jiffies =>
    obtain ⟨⟨hmem, _⟩, hnext⟩ := Option.ite_none_right_eq_some.mp hstep
    cases hnext
    exact ⟨_, h.enter hmem hz jiffies⟩
  | leave =>
    obtain ⟨t, hrunning, hnext⟩ := step_leave_eq_some.mp hstep
    cases hnext
    have hended : Sound passive { state with running := none } nodes :=
      { h with running_live := fun _ u hnone ↦ absurd hnone (Option.some_ne_none u).symm }
    exact ⟨_, hended.leave fun hpassive ↦ h.running_live hpassive t hrunning⟩
  | freeTask t =>
    obtain ⟨hmem, hnext⟩ := Option.ite_none_right_eq_some.mp hstep
    cases hnext
    have hlive := h.after_live t hmem
    rw [touch_eq_self hlive]
    exact ⟨_, { h with
      after_live := fun u hu ↦ h.after_live u (Multiset.mem_of_mem_erase hu)
      decrementing_live := mem_live_of_mem_cons hlive h.decrementing_live }⟩
  | decCallbacks t =>
    obtain ⟨hmem, hnext⟩ := Option.ite_none_right_eq_some.mp hstep
    cases hnext
    rw [touch_eq_self (h.decrementing_live t hmem)]
    exact ⟨_, { h with
      decrementing_live := fun u hu ↦
        h.decrementing_live u (Multiset.mem_of_mem_erase hu) }⟩

/-- So does a run. -/
theorem Sound.run {labels : List (Label Id)} (h : Sound passive state nodes)
    (hsafe : (machine passive hz).Along (SafeFree passive) state labels)
    (hrun : (machine passive hz).run state labels = some next) :
    ∃ nodes', Sound passive next nodes' := by
  let invariant := fun state : State Id ↦ ∃ nodes, Sound passive state nodes
  have hstate : invariant state := ⟨nodes, h⟩
  refine hsafe.preserves ?_ hstate hrun
  rintro state label next ⟨nodes, hsound⟩ hfree hstep
  exact hsound.step hfree hstep

/-! ## A release that comes too early -/

/-- The handlers and tasks that are under way touch a released timer. -/
def Overruns (passive : Bool) (hz : ℕ) (state : State Id) : Prop :=
  ∃ rest final, (∀ label ∈ rest, label.IsHandler) ∧
    (machine passive hz).run state rest = some final ∧ final.useAfterFree = true

theorem overruns_of_step {label : Label Id} (hlabel : label.IsHandler)
    (hstep : step passive hz state label = some next) (htouched : next.useAfterFree = true) :
    Overruns passive hz state :=
  ⟨[label], next, List.forall_mem_singleton.mpr hlabel,
    Machine.run_cons_eq_some.mpr ⟨next, hstep, rfl⟩, htouched⟩

theorem Overruns.of_next {label : Label Id} (h : Overruns passive hz next)
    (hlabel : label.IsHandler) (hstep : step passive hz state label = some next) :
    Overruns passive hz state := by
  obtain ⟨rest, final, hrest, hrun, htouched⟩ := h
  exact ⟨label :: rest, final, List.forall_mem_cons.mpr ⟨hlabel, hrest⟩,
    Machine.run_cons_eq_some.mpr ⟨next, hstep, hrun⟩, htouched⟩

theorem touch_released (hreleased : t ∉ state.live) : (state.touch t).useAfterFree = true := by
  simp [State.touch, hreleased]

theorem enter_useAfterFree (passive : Bool) (hz jiffies : ℕ) (t : Id) (state : State Id) :
    (enter passive hz jiffies t state).useAfterFree = (state.touch t).useAfterFree := by
  unfold enter
  dsimp only
  split
  · split <;> rfl
  · rfl

theorem overruns_of_decrementing (hreleased : t ∉ state.live) (hmem : t ∈ state.decrementing) :
    Overruns passive hz state :=
  @overruns_of_step _ _ passive hz state _ (.decCallbacks t) trivial (if_pos hmem)
    (touch_released hreleased)

theorem overruns_of_after (hreleased : t ∉ state.live) (hmem : t ∈ state.after) :
    Overruns passive hz state :=
  @overruns_of_step _ _ passive hz state _ (.freeTask t) trivial (if_pos hmem)
    (touch_released hreleased)

/-- The task reads its timer behind the `t->fn` that has released it. -/
theorem overruns_of_running (hreleased : t ∉ state.live) (hrunning : state.running = some t) :
    Overruns true hz state := by
  have hstep : step true hz state .leave = some (leave true t { state with running := none }) :=
    step_leave_eq_some.mpr ⟨t, hrunning, rfl⟩
  have hmem : t ∈ (leave true t { state with running := none }).after :=
    Multiset.mem_cons_self t state.after
  have hafter : Overruns true hz (leave true t { state with running := none }) :=
    overruns_of_after hreleased hmem
  exact @Overruns.of_next _ _ true hz state _ .leave hafter trivial hstep

/-- A handler that waits gets the lock, after the one that has it. -/
theorem overruns_of_waiting (hreleased : t ∉ state.live) (hmem : t ∈ state.waiting) :
    Overruns passive hz state := by
  have hfree : ∀ state : State Id, t ∉ state.live → t ∈ state.waiting → state.running = none →
      Overruns passive hz state := by
    intro state hreleased hmem hrunning
    refine @overruns_of_step _ _ passive hz state _ (.enter t 0) trivial
      (if_pos ⟨hmem, hrunning⟩) ?_
    rw [enter_useAfterFree]
    exact touch_released hreleased
  cases hrunning : state.running with
  | none => exact hfree state hreleased hmem hrunning
  | some u =>
    have hstep : step passive hz state .leave =
        some (leave passive u { state with running := none }) :=
      step_leave_eq_some.mpr ⟨u, hrunning, rfl⟩
    have hwaiting := hfree (leave passive u { state with running := none }) hreleased hmem rfl
    exact @Overruns.of_next _ _ passive hz state _ .leave hwaiting trivial hstep

theorem overruns_of_not_unused (hreleased : t ∉ state.live) (hused : ¬Unused passive state t) :
    Overruns passive hz state := by
  by_contra hnone
  refine hused ⟨fun hmem ↦ ?_, fun hpassive hrunning ↦ ?_, fun hmem ↦ ?_, fun hmem ↦ ?_⟩
  · exact hnone (overruns_of_waiting hreleased hmem)
  · subst hpassive
    exact hnone (overruns_of_running hreleased hrunning)
  · exact hnone (overruns_of_after hreleased hmem)
  · exact hnone (overruns_of_decrementing hreleased hmem)

/-- A run that releases nothing. -/
theorem along_of_no_free (state : State Id) {labels : List (Label Id)}
    (h : ∀ label ∈ labels, ∀ t, label ≠ .free t) :
    (machine passive hz).Along (SafeFree passive) state labels := by
  exact Machine.along_of_forall fun label hlabel _ t heq ↦ absurd heq (h label hlabel t)

theorem Label.IsHandler.ne_free {Id : Type*} {label : Label Id} (h : label.IsHandler) (t : Id) :
    label ≠ .free t := by
  intro heq
  rw [heq] at h
  exact h

/-- In a run whose releases are safe no released timer is touched. The next release takes its
timer off the list and leaves the others in order; afterwards the handlers and tasks keep off the
timer, however they are scheduled, if and only if the release was safe. -/
theorem free_timer_safe_iff {labels : List (Label Id)}
    (hsafe : (machine passive hz).Along (SafeFree passive) noTimers labels)
    (hrun : (machine passive hz).run noTimers labels = some state) :
    state.useAfterFree = false ∧ ∀ t ∈ state.live, ∃ next nodes,
      step passive hz state (.free t) = some next ∧
      Linked state.next state.timers nodes ∧ nodes.Nodup ∧ t ∈ nodes ∧
      Linked next.next next.timers (nodes.erase t) ∧ next.live = state.live.erase t ∧
      ((∀ rest final, (∀ label ∈ rest, label.IsHandler) →
        (machine passive hz).run next rest = some final → final.useAfterFree = false) ↔
        Unused passive state t) := by
  obtain ⟨nodes, hsound⟩ := (noTimers_sound passive).run hsafe hrun
  refine ⟨hsound.untouched, fun t hlive ↦ ?_⟩
  have hmem : t ∈ nodes := (hsound.mem_live t).mp hlive
  obtain ⟨timer, pending, callbacks, timers, link, hfree, hlinked, _, _⟩ :=
    hsound.toListIs.wlFreeTimer hsound.toInv hmem
  refine ⟨_, nodes, (if_pos hlive).trans hfree, hsound.linked, hsound.nodup, hmem, hlinked, rfl,
    fun hkeep ↦ ?_, fun hunused rest final hrest hfinal ↦ ?_⟩
  · by_contra hused
    have hused' : ¬Unused passive { state with
        timer := timer, pending := pending, callbacks := callbacks
        timers := timers, next := link, live := state.live.erase t } t :=
      fun hunused ↦ hused ⟨hunused.waiting, hunused.running, hunused.after, hunused.decrementing⟩
    obtain ⟨rest, final, hrest, hfinal, htouched⟩ :=
      @overruns_of_not_unused _ _ passive hz _ t (Finset.notMem_erase t state.live) hused'
    rw [hkeep rest final hrest hfinal] at htouched
    cases htouched
  · obtain ⟨next, hnext, hsound'⟩ := hsound.wlFreeTimer hmem hunused
    obtain rfl := Option.some.inj (hnext.symm.trans hfree)
    obtain ⟨_, hfinalSound⟩ := hsound'.run
      (along_of_no_free _ fun label hlabel ↦ (hrest label hlabel).ne_free) hfinal
    exact hfinalSound.untouched

end Steps

/-- By default a handler that waits for the lock tests the released timer; in passive mode the
task of a timer that is released by its own `t->fn` reads it. -/
theorem early_free_touches_timer :
    (∃ final : State ℕ, (machine false 100).run noTimers
        [.init 7, .add 7 50 false 0, .expire 7 true, .free 7, .enter 7 5] = some final ∧
      7 ∉ final.live ∧ final.useAfterFree = true) ∧
      ∃ final : State ℕ, (machine true 100).run noTimers
        [.init 7, .add 7 50 false 0, .expire 7 true, .enter 7 5, .free 7, .leave, .freeTask 7] =
          some final ∧
        7 ∉ final.live ∧ final.useAfterFree = true :=
  ⟨⟨_, rfl, by decide, rfl⟩, ⟨_, rfl, by decide, rfl⟩⟩

/-- By default a timer may be released by its own `t->fn`. -/
def ownRelease : List (Label ℕ) :=
  [.init 7, .init 8, .add 7 50 false 0, .expire 7 true, .enter 7 5]

theorem free_timer_safe_own_release :
    ∃ state next : State ℕ, (machine false 100).run noTimers ownRelease = some state ∧
      state.running = some 7 ∧ step false 100 state (.free 7) = some next ∧
      ∀ rest final, (∀ label ∈ rest, label.IsHandler) →
        (machine false 100).run next rest = some final → final.useAfterFree = false := by
  have hkept : ∀ label ∈ ownRelease, ∀ t, label ≠ .free t := by
    simp [ownRelease]
  obtain ⟨next, _, hnext, _, _, _, _, _, hiff⟩ := (@free_timer_safe_iff ℕ _ false 100 _ ownRelease
    (along_of_no_free _ hkept) rfl).2 7 (by decide)
  exact ⟨_, next, rfl, rfl, hnext, hiff.mpr ⟨by decide, nofun, by decide, by decide⟩⟩

end BroadcomWl.Linux.TimerTasks
