import BroadcomWl.Linux.Monitor

/-!
# Back-to-back monitor requests

`wl_set_monitor` tests `monitor_dev`, which only the deferred tasks change. When every request
finds the tasks of the earlier ones run, the driver goes round four phases and follows the last
request. A request that comes while a task is pending is judged by the old `monitor_dev`: it
links a second monitor, queues a second deletion, or is dropped.
-/

namespace BroadcomWl.Linux.Monitor

open BroadcomWl.Memory BroadcomWl.Systems

/-- The monitor interfaces among some nodes. -/
def monitors (state : State) (nodes : List Node) : List Node :=
  nodes.filter fun node ↦ decide (state.ifType node = .mon)

/-- At most one monitor is on the list, no assertion has failed, and without a pending task the
monitor device is there if and only if the last request asked for it. -/
structure Converged (state : State) : Prop where
  single : ∃ nodes, Linked state.next state.ifList nodes ∧ (monitors state nodes).length ≤ 1
  asserts : state.assertFailed = false
  settled : state.tasks = 0 → (state.monitorDev.isSome = true ↔ state.lastRequest ≠ 0)

/-- The request is for a known type, and no allocation, registration or `schedule_work` fails. -/
def Succeeds : Label → Prop
  | .setMonitor val malloc scheduled =>
      0 ≤ val ∧ val ≤ 3 ∧ (val ≠ 0 → malloc.isSome = true) ∧ scheduled = true
  | .addMonitorIf _ allocated registered => allocated = true ∧ registered = true
  | .delMonitor | .freeIf _ => True

/-- The label is a run of a deferred task. -/
def Label.IsTask : Label → Prop
  | .addMonitorIf .. | .delMonitor => True
  | .setMonitor .. | .freeIf _ => False

/-- The label is a call of `wl_set_monitor`. -/
def Label.IsRequest : Label → Prop
  | .setMonitor .. => True
  | .addMonitorIf .. | .delMonitor | .freeIf _ => False

/-- Nothing fails, and a request comes when the tasks of the earlier ones have run. -/
def Orderly (state : State) (label : Label) : Prop :=
  Succeeds label ∧ (label.IsRequest → state.tasks = 0)

/-- What orderly requests go through. -/
inductive Phase (state : State) (monitors : List Node) : Prop
  | idle (monitorDev : state.monitorDev = none) (tasks : state.tasks = 0)
      (lastRequest : state.lastRequest = 0) (monitors : monitors = [])
  | adding (wlif : Node) (monitorDev : state.monitorDev = none)
      (tasks : state.tasks = {.addMonitorIf wlif}) (lastRequest : state.lastRequest ≠ 0)
      (monitors : monitors = [wlif])
  | monitoring (wlif : Node) (monitorDev : state.monitorDev = some wlif) (tasks : state.tasks = 0)
      (lastRequest : state.lastRequest ≠ 0) (monitors : monitors = [wlif])
  | deleting (wlif : Node) (monitorDev : state.monitorDev = some wlif)
      (tasks : state.tasks = {.delMonitor}) (lastRequest : state.lastRequest = 0)
      (monitors : monitors = [wlif])

/-- A phase, with a list that is in order. -/
structure InPhase (state : State) (nodes : List Node) : Prop extends ListIs state nodes where
  phase : Phase state (monitors state nodes)
  asserts : state.assertFailed = false

section Phases

variable {state next : State} {nodes : List Node}

theorem mem_monitors {node : Node} :
    node ∈ monitors state nodes ↔ node ∈ nodes ∧ state.ifType node = .mon := by
  rw [monitors, List.mem_filter, decide_eq_true_eq]

theorem monitors_erase (state : State) (nodes : List Node) (node : Node) :
    monitors state (nodes.erase node) = (monitors state nodes).erase node :=
  List.erase_filter.symm

/-- A new monitor node comes behind the others. -/
theorem monitors_concat {node : Node} (hnode : node ∉ nodes)
    (htype : next.ifType = Function.update state.ifType node .mon) :
    monitors next (nodes ++ [node]) = monitors state nodes ++ [node] := by
  have hothers : monitors next nodes = monitors state nodes := by
    refine List.filter_congr fun other hother ↦ ?_
    have hne : other ≠ node := fun heq ↦ hnode (heq ▸ hother)
    rw [htype, Function.update_of_ne hne]
  have hself : monitors next [node] = [node] := by
    rw [monitors, List.filter_singleton, htype, Function.update_self]
    rfl
  calc
    monitors next (nodes ++ [node]) = monitors next nodes ++ monitors next [node] :=
      List.filter_append ..
    _ = monitors state nodes ++ [node] := by rw [hothers, hself]

theorem InPhase.converged (h : InPhase state nodes) : Converged state := by
  refine ⟨⟨nodes, h.linked, ?_⟩, h.asserts, fun hidle ↦ ?_⟩
  · cases h.phase with
    | idle _ _ _ hmonitors => simp [hmonitors]
    | adding wlif _ _ _ hmonitors => simp [hmonitors]
    | monitoring wlif _ _ _ hmonitors => simp [hmonitors]
    | deleting wlif _ _ _ hmonitors => simp [hmonitors]
  · cases h.phase with
    | idle hdev _ hlast _ => simp [hdev, hlast]
    | adding wlif _ htasks _ _ => simp [htasks] at hidle
    | monitoring wlif hdev _ hlast _ => simp [hdev, hlast]
    | deleting wlif _ htasks _ _ => simp [htasks] at hidle

theorem Initial.inPhase (h : Initial state) : ∃ nodes, InPhase state nodes := by
  obtain ⟨nodes, hlinked, hnodup, hlive, hbss⟩ := h.list
  have hnone : monitors state nodes = [] := by
    refine List.filter_eq_nil_iff.mpr fun node hnode ↦ ?_
    rw [hbss node hnode]
    decide
  exact ⟨nodes, ⟨hlinked, hnodup, hlive⟩, .idle h.monitorDev h.tasks h.lastRequest hnone,
    h.assertFailed⟩

/-! ## Orderly steps -/

/-- A request that is dropped. -/
theorem wlSetMonitor_mismatched {val : ℤ} {malloc : Option Node} {scheduled : Bool}
    (h : mismatched val state = true) : wlSetMonitor val malloc scheduled state = some state :=
  if_pos h

/-- A request to delete the monitor. -/
theorem wlSetMonitor_zero {malloc : Option Node} (h : state.monitorDev.isSome = true) :
    wlSetMonitor 0 malloc true state =
      some { state with tasks := .delMonitor ::ₘ state.tasks } := by
  have hmatched : mismatched 0 state = false := by
    rw [mismatched, Option.isNone_eq_false_iff.mpr h]
    rfl
  rw [wlSetMonitor, if_neg (Bool.not_eq_true _ ▸ hmatched), if_pos rfl]
  rfl

/-- A request for a monitor when there is no device. -/
theorem ListIs.wlSetMonitor (h : ListIs state nodes) {val : ℤ} {wlif : Node} (hzero : val ≠ 0)
    (hlower : 0 ≤ val) (hupper : val ≤ 3) (hmonitor : state.monitorDev = none)
    (hnew : wlif ∉ state.live) :
    ∃ next, wlSetMonitor val (some wlif) true state = some next ∧
      ListIs next (nodes ++ [wlif]) ∧
      monitors next (nodes ++ [wlif]) = monitors state nodes ++ [wlif] ∧
      next.monitorDev = none ∧ next.tasks = .addMonitorIf wlif ::ₘ state.tasks ∧
      next.lastRequest = state.lastRequest ∧ next.assertFailed = state.assertFailed := by
  have hmatched : mismatched val state = false := by
    simp [mismatched, hmonitor, hzero]
  have htype : setMonitorType val state = { state with monitorType := val } :=
    if_pos ⟨by omega, hupper⟩
  have hlist : ListIs { state with monitorType := val } nodes := ⟨h.linked, h.nodup, h.live⟩
  obtain ⟨head, link, heq, hlinked⟩ := hlist.wlAllocIf hnew .mon
  have hnode : wlif ∉ nodes := mt (h.mem_live wlif).mpr hnew
  have hset : Monitor.wlSetMonitor val (some wlif) true state =
      ((Monitor.wlAllocIf .mon wlif { state with monitorType := val }).map fun state ↦
        { state with tasks := .addMonitorIf wlif ::ₘ state.tasks }) := by
    rw [Monitor.wlSetMonitor, if_neg (Bool.not_eq_true _ ▸ hmatched), if_neg hzero, htype]
    rfl
  rw [heq] at hset
  refine ⟨_, hset, ⟨hlinked, nodup_concat h.nodup hnode, ?_⟩, monitors_concat hnode rfl,
    hmonitor, rfl, rfl, rfl⟩
  rw [toFinset_concat, h.live]

/-- A request in an orderly run. -/
theorem InPhase.request (h : InPhase state nodes) (hidle : state.tasks = 0) {val : ℤ}
    {malloc : Option Node} (hlower : 0 ≤ val) (hupper : val ≤ 3)
    (hmalloc : val ≠ 0 → malloc.isSome = true) (hnew : ∀ wlif ∈ malloc, wlif ∉ state.live) :
    ∃ next nodes', wlSetMonitor val malloc true { state with lastRequest := val } = some next ∧
      InPhase next nodes' := by
  have hlist : ListIs { state with lastRequest := val } nodes := ⟨h.linked, h.nodup, h.live⟩
  cases h.phase with
  | idle hdev htasks hlast hmonitors =>
    by_cases hzero : val = 0
    · subst hzero
      refine ⟨_, nodes, wlSetMonitor_mismatched ?_, hlist, .idle hdev htasks rfl hmonitors,
        h.asserts⟩
      simp [mismatched, hdev]
    · obtain ⟨wlif, rfl⟩ := Option.isSome_iff_exists.mp (hmalloc hzero)
      obtain ⟨next, hnext, hlist', hmonitors', hdev', htasks', hlast', hasserts'⟩ :=
        hlist.wlSetMonitor hzero hlower hupper hdev (hnew wlif rfl)
      refine ⟨next, _, hnext, hlist', .adding wlif hdev' ?_ ?_ ?_, hasserts'.trans h.asserts⟩
      · rw [htasks', htasks]
        rfl
      · rwa [hlast']
      · rw [hmonitors']
        exact congrArg (· ++ [wlif]) hmonitors
  | monitoring node hdev htasks hlast hmonitors =>
    by_cases hzero : val = 0
    · subst hzero
      have hsome : state.monitorDev.isSome = true := by simp [hdev]
      refine ⟨_, nodes, wlSetMonitor_zero hsome, ⟨h.linked, h.nodup, h.live⟩,
        .deleting node hdev ?_ rfl hmonitors, h.asserts⟩
      rw [htasks]
      rfl
    · refine ⟨_, nodes, wlSetMonitor_mismatched ?_, hlist, .monitoring node hdev htasks hzero
        hmonitors, h.asserts⟩
      simp [mismatched, hdev, hzero]
  | adding node _ htasks _ _ => simp [htasks] at hidle
  | deleting node _ htasks _ _ => simp [htasks] at hidle

/-- The deferred task of an orderly request. -/
theorem InPhase.addMonitorIf (h : InPhase state nodes) {wlif : Node}
    (htask : .addMonitorIf wlif ∈ state.tasks) :
    InPhase (wlAddMonitorIf wlif true true (state.take (.addMonitorIf wlif))) nodes := by
  rw [wlAddMonitorIf_completed]
  cases h.phase with
  | adding node hdev htasks hlast hmonitors =>
    rw [htasks, Multiset.mem_singleton] at htask
    cases htask
    have hempty : state.tasks.erase (.addMonitorIf wlif) = 0 := by
      rw [htasks, Multiset.erase_singleton]
    refine ⟨⟨h.linked, h.nodup, h.live⟩, .monitoring wlif rfl hempty hlast hmonitors, ?_⟩
    simp [State.take, h.asserts, hdev]
  | idle _ htasks _ _ => simp [htasks] at htask
  | monitoring _ _ htasks _ _ => simp [htasks] at htask
  | deleting _ _ htasks _ _ => simp [htasks] at htask

/-- The task that deletes the monitor. -/
theorem ListIs.wlDelMonitor (h : ListIs state nodes) {wlif : Node}
    (hmonitor : state.monitorDev = some wlif) (hmem : wlif ∈ nodes) :
    ∃ next, wlDelMonitor state = some next ∧ ListIs next (nodes.erase wlif) ∧
      monitors next (nodes.erase wlif) = (monitors state nodes).erase wlif ∧
      next.monitorDev = none ∧ next.tasks = state.tasks ∧
      next.lastRequest = state.lastRequest ∧ next.assertFailed = state.assertFailed := by
  obtain ⟨head, link, heq, hlinked⟩ := h.wlFreeIf hmem
  have hdel : Monitor.wlDelMonitor state =
      (Monitor.wlFreeIf wlif state).map fun state ↦ { state with monitorDev := none } := by
    simp only [Monitor.wlDelMonitor, hmonitor]
  rw [heq] at hdel
  refine ⟨_, hdel, ⟨hlinked, h.nodup.erase wlif, ?_⟩, monitors_erase state nodes wlif,
    rfl, rfl, rfl, rfl⟩
  rw [toFinset_erase h.nodup, h.live]

theorem InPhase.delMonitor (h : InPhase state nodes) (htask : .delMonitor ∈ state.tasks) :
    ∃ next nodes', wlDelMonitor (state.take .delMonitor) = some next ∧ InPhase next nodes' := by
  cases h.phase with
  | deleting wlif hdev htasks hlast hmonitors =>
    have hempty : state.tasks.erase .delMonitor = 0 := by
      rw [htasks, Multiset.erase_singleton]
    have hmem : wlif ∈ nodes := (mem_monitors.mp (hmonitors ▸ List.mem_singleton_self wlif)).1
    have hlist : ListIs (state.take .delMonitor) nodes := ⟨h.linked, h.nodup, h.live⟩
    obtain ⟨next, hnext, hlist', hmonitors', hdev', htasks', hlast', hasserts'⟩ :=
      hlist.wlDelMonitor hdev hmem
    refine ⟨next, _, hnext, hlist', .idle hdev' (htasks'.trans hempty) (hlast'.trans hlast) ?_,
      hasserts'.trans h.asserts⟩
    calc
      monitors next (nodes.erase wlif) = (monitors state nodes).erase wlif := hmonitors'
      _ = [] := by rw [hmonitors, List.erase_cons_head]
  | idle _ htasks _ _ => simp [htasks] at htask
  | monitoring _ _ htasks _ _ => simp [htasks] at htask
  | adding _ _ htasks _ _ => simp [htasks] at htask

/-- Another interface goes. -/
theorem InPhase.freeIf (h : InPhase state nodes) {wlif : Node} (hlive : wlif ∈ state.live)
    (htype : state.ifType wlif = .bss) :
    ∃ next nodes', wlFreeIf wlif state = some next ∧ InPhase next nodes' := by
  obtain ⟨head, link, heq, hlinked⟩ := h.toListIs.wlFreeIf ((h.mem_live wlif).mp hlive)
  have hsame : monitors state (nodes.erase wlif) = monitors state nodes := by
    rw [monitors_erase, List.erase_of_not_mem]
    rw [mem_monitors, htype]
    exact fun hmon ↦ nomatch hmon.2
  refine ⟨_, nodes.erase wlif, heq, ⟨hlinked, h.nodup.erase wlif, ?_⟩, ?_, h.asserts⟩
  · rw [toFinset_erase h.nodup, h.live]
  · change Phase _ (monitors state (nodes.erase wlif))
    rw [hsame]
    cases h.phase with
    | idle hdev htasks hlast hmonitors => exact .idle hdev htasks hlast hmonitors
    | adding node hdev htasks hlast hmonitors => exact .adding node hdev htasks hlast hmonitors
    | monitoring node hdev htasks hlast hmonitors =>
      exact .monitoring node hdev htasks hlast hmonitors
    | deleting node hdev htasks hlast hmonitors =>
      exact .deleting node hdev htasks hlast hmonitors

/-- An orderly step ends in a phase. -/
theorem InPhase.step {label : Label} (h : InPhase state nodes) (horderly : Orderly state label)
    (hstep : step state label = some next) : ∃ nodes', InPhase next nodes' := by
  cases label with
  | setMonitor val malloc scheduled =>
    obtain ⟨⟨hlower, hupper, hmalloc, rfl⟩, hidle⟩ := horderly
    obtain ⟨_, hset⟩ := Option.ite_none_left_eq_some.mp hstep
    obtain ⟨final, nodes', hfinal, hphase⟩ :=
      h.request (hidle trivial) hlower hupper hmalloc (enabled_of_step hstep)
    obtain rfl : final = next := Option.some.inj (hfinal.symm.trans hset)
    exact ⟨nodes', hphase⟩
  | addMonitorIf wlif allocated registered =>
    obtain ⟨⟨rfl, rfl⟩, _⟩ := horderly
    obtain ⟨htask, hadd⟩ := Option.ite_none_right_eq_some.mp hstep
    cases hadd
    exact ⟨nodes, h.addMonitorIf htask⟩
  | delMonitor =>
    obtain ⟨htask, hdel⟩ := Option.ite_none_right_eq_some.mp hstep
    obtain ⟨final, nodes', hfinal, hphase⟩ := h.delMonitor htask
    obtain rfl : final = next := Option.some.inj (hfinal.symm.trans hdel)
    exact ⟨nodes', hphase⟩
  | freeIf wlif =>
    obtain ⟨⟨hlive, htype⟩, hfree⟩ := Option.ite_none_right_eq_some.mp hstep
    obtain ⟨final, nodes', hfinal, hphase⟩ := h.freeIf hlive htype
    obtain rfl : final = next := Option.some.inj (hfinal.symm.trans hfree)
    exact ⟨nodes', hphase⟩

/-- So does an orderly run. -/
theorem InPhase.run {labels : List Label} (h : InPhase state nodes)
    (horderly : machine.Along Orderly state labels)
    (hrun : machine.run state labels = some next) : ∃ nodes', InPhase next nodes' := by
  let invariant := fun state ↦ ∃ nodes, InPhase state nodes
  have hstate : invariant state := ⟨nodes, h⟩
  refine horderly.preserves ?_ hstate hrun
  rintro state label next ⟨nodes, hphase⟩ hordered hstep
  exact hphase.step hordered hstep

/-! ## A request too early -/

/-- A run of a deferred task whose allocation and registration succeed. -/
def Label.Deferred (label : Label) : Prop := label.IsTask ∧ Succeeds label

/-- The tasks that are pending, and no more requests, lead to a state that has not converged. -/
def Diverges (state : State) : Prop :=
  ∃ labels final, (∀ label ∈ labels, label.Deferred) ∧ machine.run state labels = some final ∧
    ¬Converged final

/-- Tasks alone are orderly. -/
theorem along_of_deferred (state : State) {labels : List Label}
    (h : ∀ label ∈ labels, label.Deferred) : machine.Along Orderly state labels := by
  refine Machine.along_of_forall fun label hlabel _ ↦ ⟨(h label hlabel).2, fun hrequest ↦ ?_⟩
  have htask := (h label hlabel).1
  cases label <;> first | exact hrequest.elim | exact htask.elim

/-- A second monitor is on the list. -/
theorem ListIs.diverges_of_second (h : ListIs state nodes) {first second : Node}
    (hmonitors : monitors state nodes = [first, second]) : Diverges state := by
  refine ⟨[], state, List.forall_mem_nil _, rfl, fun hconverged ↦ ?_⟩
  obtain ⟨others, hothers, hsingle⟩ := hconverged.single
  rw [hothers.unique h.linked, hmonitors] at hsingle
  exact absurd hsingle (Nat.not_succ_le_self 1)

/-- The last task makes a monitor that nobody wants any more. -/
theorem diverges_of_unwanted {wlif : Node} (htasks : state.tasks = {.addMonitorIf wlif})
    (hlast : state.lastRequest = 0) : Diverges state := by
  have htask : .addMonitorIf wlif ∈ state.tasks := htasks ▸ Multiset.mem_singleton_self _
  have hrun : machine.run state [.addMonitorIf wlif true true] =
      some (wlAddMonitorIf wlif true true (state.take (.addMonitorIf wlif))) := by
    rw [Machine.run_cons_eq_some]
    exact ⟨_, if_pos htask, rfl⟩
  refine ⟨_, _, ?_, hrun, fun hconverged ↦ ?_⟩
  · simp [Label.Deferred, Label.IsTask, Succeeds]
  · rw [wlAddMonitorIf_completed] at hconverged
    have hempty : state.tasks.erase (.addMonitorIf wlif) = 0 := by
      rw [htasks, Multiset.erase_singleton]
    exact (hconverged.settled hempty).mp rfl hlast

/-- The last task deletes a monitor that is wanted again. -/
theorem ListIs.diverges_of_wanted (h : ListIs state nodes) {wlif : Node}
    (hmonitor : state.monitorDev = some wlif) (hmem : wlif ∈ nodes)
    (htasks : state.tasks = {.delMonitor}) (hlast : state.lastRequest ≠ 0) : Diverges state := by
  have htask : .delMonitor ∈ state.tasks := htasks ▸ Multiset.mem_singleton_self _
  have hlist : ListIs (state.take .delMonitor) nodes := ⟨h.linked, h.nodup, h.live⟩
  obtain ⟨final, hfinal, _, _, hdev', htasks', hlast', _⟩ := hlist.wlDelMonitor hmonitor hmem
  have hrun : machine.run state [.delMonitor] = some final := by
    rw [Machine.run_cons_eq_some]
    exact ⟨final, (if_pos htask).trans hfinal, rfl⟩
  refine ⟨_, _, ?_, hrun, fun hconverged ↦ ?_⟩
  · simp [Label.Deferred, Label.IsTask, Succeeds]
  · have hempty : final.tasks = 0 := by
      rw [htasks', State.take, htasks, Multiset.erase_singleton]
    have hsome := (hconverged.settled hempty).mpr (hlast'.symm ▸ hlast)
    rw [hdev'] at hsome
    cases hsome

/-- The second of two deletions finds no monitor. -/
theorem ListIs.diverges_of_twice (h : ListIs state nodes) {wlif : Node}
    (hmonitor : state.monitorDev = some wlif) (hmem : wlif ∈ nodes)
    (htasks : state.tasks = .delMonitor ::ₘ {.delMonitor}) : Diverges state := by
  have htask : .delMonitor ∈ state.tasks := htasks ▸ Multiset.mem_cons_self _ _
  have hlist : ListIs (state.take .delMonitor) nodes := ⟨h.linked, h.nodup, h.live⟩
  obtain ⟨middle, hmiddle, _, _, hdev', htasks', _⟩ := hlist.wlDelMonitor hmonitor hmem
  have htask' : .delMonitor ∈ middle.tasks := by
    rw [htasks', State.take, htasks, Multiset.erase_cons_head]
    exact Multiset.mem_singleton_self _
  have hdel : Monitor.wlDelMonitor (middle.take .delMonitor) =
      some { middle.take .delMonitor with assertFailed := true } := by
    have hnone : (middle.take .delMonitor).monitorDev = none := hdev'
    simp only [Monitor.wlDelMonitor, hnone]
  have hrun : machine.run state [.delMonitor, .delMonitor] =
      some { middle.take .delMonitor with assertFailed := true } := by
    rw [Machine.run_cons_eq_some]
    refine ⟨middle, (if_pos htask).trans hmiddle, ?_⟩
    rw [Machine.run_cons_eq_some]
    exact ⟨_, (if_pos htask').trans hdel, rfl⟩
  refine ⟨_, _, ?_, hrun, fun hconverged ↦ Bool.noConfusion hconverged.asserts⟩
  simp [Label.Deferred, Label.IsTask, Succeeds]

/-- A request that finds a task pending. -/
theorem InPhase.diverges (h : InPhase state nodes) (hpending : state.tasks ≠ 0) {val : ℤ}
    {malloc : Option Node} (hlower : 0 ≤ val) (hupper : val ≤ 3)
    (hmalloc : val ≠ 0 → malloc.isSome = true)
    (hstep : Monitor.step state (.setMonitor val malloc true) = some next) : Diverges next := by
  have hnew : ∀ wlif ∈ malloc, wlif ∉ state.live := enabled_of_step hstep
  obtain ⟨_, hset⟩ := Option.ite_none_left_eq_some.mp hstep
  have hlist : ListIs { state with lastRequest := val } nodes := ⟨h.linked, h.nodup, h.live⟩
  cases h.phase with
  | idle _ htasks _ _ => exact absurd htasks hpending
  | monitoring _ _ htasks _ _ => exact absurd htasks hpending
  | adding node hdev htasks hlast hmonitors =>
    by_cases hzero : val = 0
    · have hmismatched : mismatched val { state with lastRequest := val } = true := by
        simp [mismatched, hdev, hzero]
      rw [wlSetMonitor_mismatched hmismatched] at hset
      cases hset
      exact diverges_of_unwanted htasks hzero
    · obtain ⟨wlif, rfl⟩ := Option.isSome_iff_exists.mp (hmalloc hzero)
      obtain ⟨final, hfinal, hlist', hmonitors', _⟩ :=
        hlist.wlSetMonitor hzero hlower hupper hdev (hnew wlif rfl)
      obtain rfl : final = next := Option.some.inj (hfinal.symm.trans hset)
      exact hlist'.diverges_of_second
        (hmonitors'.trans (congrArg (· ++ [wlif]) hmonitors))
  | deleting node hdev htasks hlast hmonitors =>
    have hmem : node ∈ nodes := (mem_monitors.mp (hmonitors ▸ List.mem_singleton_self node)).1
    by_cases hzero : val = 0
    · have hsome : ({ state with lastRequest := 0 } : State).monitorDev.isSome = true := by
        simp [hdev]
      subst hzero
      rw [wlSetMonitor_zero hsome] at hset
      cases hset
      have hlist' : ListIs { state with lastRequest := 0, tasks := .delMonitor ::ₘ state.tasks }
          nodes := ⟨h.linked, h.nodup, h.live⟩
      exact hlist'.diverges_of_twice hdev hmem (congrArg (Multiset.cons _) htasks)
    · have hmismatched : mismatched val { state with lastRequest := val } = true := by
        simp [mismatched, hdev, hzero]
      rw [wlSetMonitor_mismatched hmismatched] at hset
      cases hset
      exact hlist.diverges_of_wanted hdev hmem htasks hzero

end Phases

/-- Orderly runs converge. The next request is followed, whatever the tasks then do, exactly when
no task is pending. -/
theorem monitor_requests_converge_iff {start state : State} {labels : List Label}
    (h : Initial start) (horderly : machine.Along Orderly start labels)
    (hrun : machine.run start labels = some state) :
    Converged state ∧ ∀ request next, request.IsRequest → Succeeds request →
      machine.step state request = some next →
      ((∀ rest final, (∀ label ∈ rest, label.Deferred) → machine.run next rest = some final →
        Converged final) ↔ state.tasks = 0) := by
  obtain ⟨first, hfirst⟩ := h.inPhase
  obtain ⟨nodes, hphase⟩ := hfirst.run horderly hrun
  refine ⟨hphase.converged, fun request next hrequest hsucceeds hstep ↦ ⟨fun hconverges ↦ ?_, ?_⟩⟩
  · by_contra hpending
    cases request with
    | setMonitor val malloc scheduled =>
      obtain ⟨hlower, hupper, hmalloc, rfl⟩ := hsucceeds
      obtain ⟨rest, final, hrest, hfinal, hnot⟩ :=
        hphase.diverges hpending hlower hupper hmalloc hstep
      exact hnot (hconverges rest final hrest hfinal)
    | addMonitorIf | delMonitor | freeIf => exact hrequest
  · intro hidle rest final hrest hfinal
    obtain ⟨nodes', hphase'⟩ := hphase.step ⟨hsucceeds, fun _ ↦ hidle⟩ hstep
    obtain ⟨_, hphase''⟩ := hphase'.run (along_of_deferred next hrest) hfinal
    exact hphase''.converged

/-- Two monitors on the list, a monitor after a last request for none, and a deletion that finds
no monitor. -/
theorem early_requests_diverge :
    Initial attached ∧
      (∃ final, machine.run attached [.setMonitor 1 (some 1) true, .setMonitor 1 (some 2) true] =
          some final ∧ Linked final.next final.ifList [0, 1, 2] ∧
        monitors final [0, 1, 2] = [1, 2]) ∧
      (∃ final, machine.run attached [.setMonitor 1 (some 1) true, .setMonitor 0 none true,
          .addMonitorIf 1 true true] = some final ∧
        final.tasks = 0 ∧ final.lastRequest = 0 ∧ final.monitorDev = some 1) ∧
      ∃ final, machine.run attached [.setMonitor 1 (some 1) true, .addMonitorIf 1 true true,
          .setMonitor 0 none true, .setMonitor 0 none true, .delMonitor, .delMonitor] =
          some final ∧ final.assertFailed = true :=
  ⟨attached_initial, ⟨_, rfl, ⟨rfl, rfl, rfl, rfl⟩, rfl⟩, ⟨_, rfl, by decide, rfl, rfl⟩,
    _, rfl, rfl⟩

/-- The monitor is added, and its deletion is requested. -/
def addThenDelete : List Label :=
  [.setMonitor 1 (some 1) true, .addMonitorIf 1 true true, .setMonitor 0 none true]

theorem monitor_requests_converge_deleting :
    ∃ state, machine.run attached addThenDelete = some state ∧ state.tasks = {.delMonitor} ∧
      Converged state := by
  refine ⟨_, rfl, rfl, (@monitor_requests_converge_iff attached _ addThenDelete attached_initial
    (.cons ⟨?_, fun _ ↦ rfl⟩ rfl (.cons ⟨?_, nofun⟩ rfl (.cons ⟨?_, fun _ ↦ ?_⟩ rfl trivial)))
    rfl).1⟩
  · exact ⟨by decide, by decide, fun _ ↦ rfl, rfl⟩
  · exact ⟨rfl, rfl⟩
  · exact ⟨le_rfl, by decide, fun hzero ↦ absurd rfl hzero, rfl⟩
  · exact Multiset.erase_singleton _

end BroadcomWl.Linux.Monitor
