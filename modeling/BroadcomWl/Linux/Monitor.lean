import BroadcomWl.Memory.LinkedList
import BroadcomWl.Systems.Machine
import Mathlib.Data.Finset.Card
import Mathlib.Data.Multiset.AddSub

/-!
# Monitor interfaces and the interface list

`wl_set_monitor` puts a node for the monitor interface on `wl->if_list` and leaves the rest to
`_wl_add_monitor_if`, which a work queue runs later; `_wl_del_monitor` takes the node off
again. Nodes are addresses: an allocation returns any address that is not in use, and a freed
address may come back. A `net_device` is named by the node it was made for.

The list is followed with as much fuel as there are live nodes; a walk that needs more has left
the live nodes or met one twice. Pending tasks are run in any order.

The list is sound as long as every request that has linked its node is completed: a request
whose task cannot be queued frees the node without unlinking it, and a task that fails leaves
the node on the list.
-/

namespace BroadcomWl.Linux.Monitor

open BroadcomWl.Memory BroadcomWl.Systems

/-- The address of a `wl_if_t`. -/
abbrev Node := ℕ

/-- `wlif->if_type`. -/
inductive IfType where
  | bss
  | mon
deriving DecidableEq, Repr

/-- A task that `wl_schedule_task` has queued. -/
inductive Task where
  | addMonitorIf (wlif : Node)
  | delMonitor
deriving DecidableEq, Repr

/-- `wl->if_list`, the fields of the nodes, and the monitor. `live` are the allocated nodes, and
`tasks` the queued ones. History: the last request, and whether an assertion failed. -/
structure State where
  ifList : Option Node
  next : Node → Option Node
  ifType : Node → IfType
  dev : Node → Bool
  devRegisted : Node → Bool
  live : Finset Node
  monitorDev : Option Node
  monitorType : ℤ
  tasks : Multiset Task
  lastRequest : ℤ
  assertFailed : Bool

/-! ## The functions -/

/-- `wl_alloc_if`, when `MALLOC` has returned `node`. -/
def wlAllocIf (type : IfType) (node : Node) (state : State) : Option State :=
  (linkLast state.live.card state.next state.ifList node).map fun (head, next) ↦
    { state with
      ifList := head
      next := next
      ifType := Function.update state.ifType node type
      dev := Function.update state.dev node false
      devRegisted := Function.update state.devRegisted node false
      live := insert node state.live }

/-- `wl_free_if`. -/
def wlFreeIf (node : Node) (state : State) : Option State :=
  (unlink state.live.card state.next state.ifList node).map fun (head, next) ↦
    { state with
      ifList := head
      next := next
      dev := Function.update state.dev node false
      devRegisted := Function.update state.devRegisted node false
      live := state.live.erase node }

/-- `wl_schedule_task`; `scheduled` is false when its `MALLOC` or `schedule_work` fails. -/
def wlScheduleTask (task : Task) (scheduled : Bool) (state : State) : Bool × State :=
  if scheduled then (true, { state with tasks := task ::ₘ state.tasks }) else (false, state)

/-- The parameters do not fit the monitor there is. -/
def mismatched (val : ℤ) (state : State) : Bool :=
  (decide (val ≠ 0) && state.monitorDev.isSome) || (decide (val = 0) && state.monitorDev.isNone)

/-- The type that `wl_set_monitor` stores, or its assertion. -/
def setMonitorType (val : ℤ) (state : State) : State :=
  if 1 ≤ val ∧ val ≤ 3 then { state with monitorType := val }
  else { state with assertFailed := true }

/-- `wl_set_monitor`; `malloc` is what the `MALLOC` of `wl_alloc_if` returns. -/
def wlSetMonitor (val : ℤ) (malloc : Option Node) (scheduled : Bool) (state : State) :
    Option State :=
  if mismatched val state then some state
  else if val = 0 then some (wlScheduleTask .delMonitor scheduled state).2
  else
    let state := setMonitorType val state
    match malloc with
    | none => some state
    | some wlif =>
        (wlAllocIf .mon wlif state).map fun state ↦
          let (queued, state) := wlScheduleTask (.addMonitorIf wlif) scheduled state
          if queued then state else { state with live := state.live.erase wlif }

/-- `_wl_add_monitor_if`, with the outcomes of `alloc_netdev` and `register_netdev`. -/
def wlAddMonitorIf (wlif : Node) (allocated registered : Bool) (state : State) : State :=
  let state := if state.monitorDev.isSome then { state with assertFailed := true } else state
  if !allocated then state
  else
    let state := { state with
      dev := Function.update state.dev wlif true, monitorDev := some wlif }
    if !registered then { state with monitorDev := none }
    else { state with devRegisted := Function.update state.devRegisted wlif true }

/-- `_wl_del_monitor`; without a monitor its assertion fails and it gets no further. -/
def wlDelMonitor (state : State) : Option State :=
  match state.monitorDev with
  | none => some { state with assertFailed := true }
  | some wlif => (wlFreeIf wlif state).map fun state ↦ { state with monitorDev := none }

/-- A request, a run of a queued task, or the `wl_free_if` of another interface. -/
inductive Label where
  | setMonitor (val : ℤ) (malloc : Option Node) (scheduled : Bool)
  | addMonitorIf (wlif : Node) (allocated registered : Bool)
  | delMonitor
  | freeIf (wlif : Node)

/-- The work queue has taken the task. -/
def State.take (state : State) (task : Task) : State :=
  { state with tasks := state.tasks.erase task }

def step (state : State) : Label → Option State
  | .setMonitor val malloc scheduled =>
      if ∃ wlif ∈ malloc, wlif ∈ state.live then none
      else wlSetMonitor val malloc scheduled { state with lastRequest := val }
  | .addMonitorIf wlif allocated registered =>
      if .addMonitorIf wlif ∈ state.tasks then
        some (wlAddMonitorIf wlif allocated registered (state.take (.addMonitorIf wlif)))
      else none
  | .delMonitor =>
      if .delMonitor ∈ state.tasks then wlDelMonitor (state.take .delMonitor) else none
  | .freeIf wlif =>
      if wlif ∈ state.live ∧ state.ifType wlif = .bss then wlFreeIf wlif state else none

/-- The list of the driver without a monitor. -/
structure Initial (state : State) : Prop where
  list : ∃ nodes, Linked state.next state.ifList nodes ∧ nodes.Nodup ∧
    nodes.toFinset = state.live ∧ ∀ node ∈ nodes, state.ifType node = .bss
  monitorDev : state.monitorDev = none
  tasks : state.tasks = 0
  lastRequest : state.lastRequest = 0
  assertFailed : state.assertFailed = false

def machine : Machine State Label where
  initial := Initial
  step := step

/-! ## The list -/

/-- The list has exactly the live nodes, each once. -/
structure ListIs (state : State) (nodes : List Node) : Prop where
  linked : Linked state.next state.ifList nodes
  nodup : nodes.Nodup
  live : nodes.toFinset = state.live

section List

variable {state : State} {nodes : List Node}

theorem ListIs.mem_live (h : ListIs state nodes) (node : Node) :
    node ∈ state.live ↔ node ∈ nodes := by
  rw [← h.live, List.mem_toFinset]

theorem ListIs.card (h : ListIs state nodes) : nodes.length = state.live.card := by
  rw [← h.live, List.toFinset_card_of_nodup h.nodup]

/-- A new node is put at the end of the list. -/
theorem ListIs.wlAllocIf (h : ListIs state nodes) {node : Node} (hnew : node ∉ state.live)
    (type : IfType) :
    ∃ head next, wlAllocIf type node state = some { state with
        ifList := head
        next := next
        ifType := Function.update state.ifType node type
        dev := Function.update state.dev node false
        devRegisted := Function.update state.devRegisted node false
        live := insert node state.live } ∧
      Linked next head (nodes ++ [node]) := by
  have hnode : node ∉ nodes := mt (h.mem_live node).mpr hnew
  obtain ⟨head, next, hlink, hlinked⟩ :=
    h.linked.linkLast h.nodup hnode (Nat.le_of_eq h.card)
  exact ⟨head, next, by rw [Monitor.wlAllocIf, hlink]; rfl, hlinked⟩

/-- A freed node is taken off the list, and the others stay in order. -/
theorem ListIs.wlFreeIf (h : ListIs state nodes) {node : Node} (hnode : node ∈ nodes) :
    ∃ head next, wlFreeIf node state = some { state with
        ifList := head
        next := next
        dev := Function.update state.dev node false
        devRegisted := Function.update state.devRegisted node false
        live := state.live.erase node } ∧
      Linked next head (nodes.erase node) := by
  obtain ⟨head, next, hunlink, hlinked⟩ :=
    h.linked.unlink_eq h.nodup hnode (Nat.le_of_eq h.card)
  exact ⟨head, next, by rw [Monitor.wlFreeIf, hunlink]; rfl, hlinked⟩

end List

/-! ## The invariant -/

/-- The nodes that tasks will complete, and that of the monitor, are different monitor nodes on
the list. -/
structure Inv (state : State) (nodes : List Node) : Prop extends ListIs state nodes where
  adding : ∀ wlif, .addMonitorIf wlif ∈ state.tasks →
    wlif ∈ nodes ∧ state.ifType wlif = .mon ∧ state.monitorDev ≠ some wlif
  once : ∀ wlif, state.tasks.count (.addMonitorIf wlif) ≤ 1
  monitor : ∀ wlif, state.monitorDev = some wlif → wlif ∈ nodes ∧ state.ifType wlif = .mon

theorem Initial.inv {state : State} (h : Initial state) : ∃ nodes, Inv state nodes := by
  obtain ⟨nodes, hlinked, hnodup, hlive, _⟩ := h.list
  refine ⟨nodes, ⟨⟨hlinked, hnodup, hlive⟩, fun wlif hmem ↦ ?_, fun wlif ↦ ?_, fun wlif hsome ↦ ?_⟩⟩
  · rw [h.tasks] at hmem
    exact absurd hmem (Multiset.notMem_zero _)
  · rw [h.tasks, Multiset.count_zero]
    exact Nat.zero_le _
  · rw [h.monitorDev] at hsome
    cases hsome

section Steps

variable {state next : State} {nodes : List Node}

/-- Freeing a node that no task and no monitor names. -/
theorem Inv.free (h : Inv state nodes) {wlif : Node} (hmem : wlif ∈ nodes)
    (hadding : .addMonitorIf wlif ∉ state.tasks) (hmonitor : state.monitorDev ≠ some wlif) :
    ∃ next, wlFreeIf wlif state = some next ∧ Inv next (nodes.erase wlif) := by
  obtain ⟨head, link, heq, hlinked⟩ := h.toListIs.wlFreeIf hmem
  refine ⟨_, heq, ⟨⟨hlinked, h.nodup.erase wlif, ?_⟩, fun other hother ↦ ?_, h.once,
    fun other hother ↦ ?_⟩⟩
  · rw [toFinset_erase h.nodup, h.live]
  · obtain ⟨hnodes, htype, hdev⟩ := h.adding other hother
    have hne : other ≠ wlif := fun heq ↦ hadding (heq ▸ hother)
    exact ⟨(List.mem_erase_of_ne hne).mpr hnodes, htype, hdev⟩
  · obtain ⟨hnodes, htype⟩ := h.monitor other hother
    have hne : other ≠ wlif := fun heq ↦ hmonitor (heq ▸ hother)
    exact ⟨(List.mem_erase_of_ne hne).mpr hnodes, htype⟩

/-- Linking a monitor node and queueing the task that completes it. -/
theorem Inv.add (h : Inv state nodes) {wlif : Node} (hnew : wlif ∉ state.live) :
    ∃ next, (wlAllocIf .mon wlif state).map (fun state ↦
        { state with tasks := .addMonitorIf wlif ::ₘ state.tasks }) = some next ∧
      Inv next (nodes ++ [wlif]) := by
  obtain ⟨head, link, heq, hlinked⟩ := h.toListIs.wlAllocIf hnew .mon
  have hnode : wlif ∉ nodes := mt (h.mem_live wlif).mpr hnew
  have hpending : .addMonitorIf wlif ∉ state.tasks := fun hmem ↦ hnode (h.adding wlif hmem).1
  have hne : ∀ other ∈ nodes, other ≠ wlif := fun other hother heq ↦ hnode (heq ▸ hother)
  rw [heq]
  refine ⟨_, rfl, ⟨⟨hlinked, nodup_concat h.nodup hnode, ?_⟩, fun other hother ↦ ?_,
    fun other ↦ ?_, fun other hother ↦ ?_⟩⟩
  · rw [toFinset_concat, h.live]
  · rcases Multiset.mem_cons.mp hother with hsame | hother
    · cases hsame
      refine ⟨by simp, Function.update_self .., fun hmonitor ↦ hnode (h.monitor wlif hmonitor).1⟩
    · obtain ⟨hnodes, htype, hdev⟩ := h.adding other hother
      refine ⟨List.mem_append_left _ hnodes, ?_, hdev⟩
      exact (Function.update_of_ne (hne other hnodes) ..).trans htype
  · by_cases hsame : other = wlif
    · rw [hsame, Multiset.count_cons_self, Multiset.count_eq_zero_of_notMem hpending]
    · rw [Multiset.count_cons_of_ne (fun heq ↦ hsame (by injection heq))]
      exact h.once other
  · obtain ⟨hnodes, htype⟩ := h.monitor other hother
    exact ⟨List.mem_append_left _ hnodes,
      (Function.update_of_ne (hne other hnodes) ..).trans htype⟩

/-- The work queue takes the task of a node. -/
theorem Inv.taken (h : Inv state nodes) (wlif : Node) :
    .addMonitorIf wlif ∉ (state.take (.addMonitorIf wlif)).tasks := by
  rw [← Multiset.count_eq_zero]
  have honce := h.once wlif
  have herase : (state.take (.addMonitorIf wlif)).tasks.count (.addMonitorIf wlif) =
      state.tasks.count (.addMonitorIf wlif) - 1 := Multiset.count_erase_self ..
  omega

theorem Inv.take (h : Inv state nodes) (task : Task) : Inv (state.take task) nodes where
  toListIs := ⟨h.linked, h.nodup, h.live⟩
  adding wlif hmem := h.adding wlif (Multiset.mem_of_mem_erase hmem)
  once wlif := (Multiset.count_le_of_le _ (Multiset.erase_le _ _)).trans (h.once wlif)
  monitor := h.monitor

/-- The task of a node makes it the monitor. -/
theorem Inv.complete (h : Inv state nodes) {wlif : Node} (hmem : wlif ∈ nodes)
    (htype : state.ifType wlif = .mon) (htaken : .addMonitorIf wlif ∉ state.tasks)
    (dev devRegisted : Node → Bool) (assertFailed : Bool) :
    Inv { state with
      dev := dev, devRegisted := devRegisted, assertFailed := assertFailed
      monitorDev := some wlif } nodes where
  toListIs := ⟨h.linked, h.nodup, h.live⟩
  adding other hother := by
    obtain ⟨hnodes, hmon, _⟩ := h.adding other hother
    exact ⟨hnodes, hmon, fun heq ↦ htaken (Option.some.inj heq ▸ hother)⟩
  once := h.once
  monitor other hother := by
    obtain rfl : wlif = other := Option.some.inj hother
    exact ⟨hmem, htype⟩

end Steps

/-! ## Requests that keep the list -/

/-- The step can be taken: `MALLOC` returns a node that is not in use, the task is queued, the
interface that is freed exists. -/
def Enabled (state : State) : Label → Prop
  | .setMonitor _ malloc _ => ∀ wlif ∈ malloc, wlif ∉ state.live
  | .addMonitorIf wlif _ _ => .addMonitorIf wlif ∈ state.tasks
  | .delMonitor => .delMonitor ∈ state.tasks
  | .freeIf wlif => wlif ∈ state.live ∧ state.ifType wlif = .bss

/-- Every node on the list is allocated and appears once. -/
def Intact (state : State) : Prop :=
  ∃ nodes, Linked state.next state.ifList nodes ∧ nodes.Nodup ∧ ∀ node ∈ nodes, node ∈ state.live

/-- The request or the task does not do what was asked for. -/
def Fails (state : State) : Label → Prop
  | .setMonitor val malloc scheduled =>
      mismatched val state = true ∨ scheduled = false ∨ (val ≠ 0 ∧ malloc = none)
  | .addMonitorIf _ allocated registered => allocated = false ∨ registered = false
  | .delMonitor | .freeIf _ => False

/-- The node that the request of a task has put on the list. -/
def Label.requested : Label → List Node
  | .addMonitorIf wlif _ _ => [wlif]
  | _ => []

/-- A request that fails leaves the list as it was without the request. -/
def Restored (state : State) (label : Label) (next : State) : Prop :=
  Fails state label → ∀ nodes, Linked state.next state.ifList nodes →
    Linked next.next next.ifList (nodes.diff label.requested)

/-- A step that can be taken follows no stray pointer, keeps the list intact and undoes a request
that fails. -/
def KeepsList (state : State) (label : Label) : Prop :=
  Enabled state label →
    ∃ next, step state label = some next ∧ Intact next ∧ Restored state label next

/-- Once a request has linked its node, its task is queued and completes the node. -/
def Completes (state : State) : Label → Prop
  | .setMonitor val malloc scheduled =>
      mismatched val state = false → val ≠ 0 → (∃ wlif ∈ malloc, wlif ∉ state.live) →
        scheduled = true
  | .addMonitorIf wlif allocated registered =>
      .addMonitorIf wlif ∈ state.tasks → allocated = true ∧ registered = true
  | .delMonitor | .freeIf _ => True

section Keeps

variable {state next : State} {nodes : List Node} {label : Label}

theorem ListIs.intact (h : ListIs state nodes) : Intact state :=
  ⟨nodes, h.linked, h.nodup, fun node hmem ↦ (h.mem_live node).mpr hmem⟩

theorem enabled_of_step (hstep : step state label = some next) : Enabled state label := by
  cases label with
  | setMonitor val malloc scheduled =>
    obtain ⟨hfree, _⟩ := Option.ite_none_left_eq_some.mp hstep
    exact fun wlif hmalloc hlive ↦ hfree ⟨wlif, hmalloc, hlive⟩
  | addMonitorIf wlif allocated registered => exact (Option.ite_none_right_eq_some.mp hstep).1
  | delMonitor => exact (Option.ite_none_right_eq_some.mp hstep).1
  | freeIf wlif => exact (Option.ite_none_right_eq_some.mp hstep).1

/-- A step that has not touched the list has restored it. -/
theorem ListIs.restored (h : ListIs state nodes) (hnext : ListIs next nodes)
    (hrequested : label.requested = []) : Restored state label next := by
  intro _ others hothers
  rw [hrequested, List.diff_nil, hothers.unique h.linked]
  exact hnext.linked

theorem Inv.setMonitorType (h : Inv state nodes) (val : ℤ) :
    Inv (setMonitorType val state) nodes := by
  unfold Monitor.setMonitorType
  split
  · exact ⟨⟨h.linked, h.nodup, h.live⟩, h.adding, h.once, h.monitor⟩
  · exact ⟨⟨h.linked, h.nodup, h.live⟩, h.adding, h.once, h.monitor⟩

theorem setMonitorType_live (val : ℤ) (state : State) :
    (setMonitorType val state).live = state.live := by
  unfold setMonitorType
  split <;> rfl

/-- A request for a monitor. -/
theorem Inv.request (h : Inv state nodes) (val : ℤ) :
    Inv { state with lastRequest := val } nodes :=
  ⟨⟨h.linked, h.nodup, h.live⟩, h.adding, h.once, h.monitor⟩

/-- A request that is refused, asks for no monitor, or gets no node. -/
theorem Inv.setMonitor_unlinked (h : Inv state nodes) {val : ℤ} {malloc : Option Node}
    {scheduled : Bool} (hunlinked : mismatched val state = true ∨ val = 0 ∨ malloc = none) :
    ∃ next, wlSetMonitor val malloc scheduled state = some next ∧ Inv next nodes := by
  unfold wlSetMonitor
  split
  · exact ⟨_, rfl, h⟩
  split
  · cases scheduled with
    | false => exact ⟨_, rfl, h⟩
    | true =>
      refine ⟨_, rfl, ⟨⟨h.linked, h.nodup, h.live⟩, fun wlif hmem ↦ ?_, fun wlif ↦ ?_, h.monitor⟩⟩
      · rcases Multiset.mem_cons.mp hmem with hsame | hmem
        · cases hsame
        · exact h.adding wlif hmem
      · refine (Multiset.count_cons_of_ne ?_ _).trans_le (h.once wlif)
        exact nofun
  · cases malloc with
    | none => exact ⟨_, rfl, h.setMonitorType val⟩
    | some wlif => simp_all

/-- A request that links a node and queues its task. -/
theorem Inv.setMonitor_linked (h : Inv state nodes) {val : ℤ} {wlif : Node}
    (hmatched : mismatched val state = false) (hval : val ≠ 0) (hnew : wlif ∉ state.live) :
    ∃ next, wlSetMonitor val (some wlif) true state = some next ∧ Inv next (nodes ++ [wlif]) := by
  have hnew' : wlif ∉ (Monitor.setMonitorType val state).live := by
    rwa [setMonitorType_live]
  obtain ⟨next, hnext, hinv⟩ := (h.setMonitorType val).add hnew'
  refine ⟨next, ?_, hinv⟩
  rw [wlSetMonitor, if_neg (by simp [hmatched]), if_neg hval]
  exact hnext

theorem wlAddMonitorIf_completed (wlif : Node) (state : State) :
    wlAddMonitorIf wlif true true state = { state with
      dev := Function.update state.dev wlif true
      devRegisted := Function.update state.devRegisted wlif true
      monitorDev := some wlif
      assertFailed := state.assertFailed || state.monitorDev.isSome } := by
  cases hmonitor : state.monitorDev <;> simp [wlAddMonitorIf, hmonitor]

/-- The monitor is taken off the list. -/
theorem Inv.delMonitor (h : Inv state nodes) :
    ∃ next nodes', wlDelMonitor state = some next ∧ Inv next nodes' := by
  unfold wlDelMonitor
  cases hmonitor : state.monitorDev with
  | none =>
    refine ⟨_, nodes, rfl, ⟨⟨h.linked, h.nodup, h.live⟩, fun wlif hmem ↦ ?_, h.once, ?_⟩⟩
    · obtain ⟨hnodes, htype, _⟩ := h.adding wlif hmem
      exact ⟨hnodes, htype, nofun⟩
    · exact nofun
  | some wlif =>
    have hadding : .addMonitorIf wlif ∉ state.tasks :=
      fun hmem ↦ (h.adding wlif hmem).2.2 hmonitor
    have hother : ∀ other, .addMonitorIf other ∈ state.tasks → other ≠ wlif :=
      fun other hmem heq ↦ hadding (heq ▸ hmem)
    obtain ⟨head, link, heq, hlinked⟩ := h.toListIs.wlFreeIf (h.monitor wlif hmonitor).1
    simp only [heq, Option.map_some]
    refine ⟨_, nodes.erase wlif, rfl,
      ⟨⟨hlinked, h.nodup.erase wlif, ?_⟩, fun other hmem ↦ ?_, h.once, nofun⟩⟩
    · rw [toFinset_erase h.nodup, h.live]
    · obtain ⟨hnodes, htype, _⟩ := h.adding other hmem
      exact ⟨(List.mem_erase_of_ne (hother other hmem)).mpr hnodes, htype, nofun⟩

/-- A step that completes what it has begun keeps the invariant and undoes what fails. -/
theorem Inv.keeps (h : Inv state nodes) (henabled : Enabled state label)
    (hcompletes : Completes state label) :
    ∃ next nodes', step state label = some next ∧ Inv next nodes' ∧
      Restored state label next := by
  cases label with
  | setMonitor val malloc scheduled =>
    have hfree : ¬∃ wlif ∈ malloc, wlif ∈ state.live := by
      rintro ⟨wlif, hmalloc, hlive⟩
      exact henabled wlif hmalloc hlive
    have hstep : step state (.setMonitor val malloc scheduled) =
        wlSetMonitor val malloc scheduled { state with lastRequest := val } := if_neg hfree
    rw [hstep]
    by_cases hunlinked : mismatched val state = true ∨ val = 0 ∨ malloc = none
    · obtain ⟨next, hnext, hinv⟩ := (h.request val).setMonitor_unlinked hunlinked
      exact ⟨next, nodes, hnext, hinv, h.toListIs.restored hinv.toListIs rfl⟩
    · simp only [not_or, Bool.not_eq_true] at hunlinked
      obtain ⟨hmatched, hval, hmalloc⟩ := hunlinked
      obtain ⟨wlif, rfl⟩ := Option.ne_none_iff_exists'.mp hmalloc
      have hnew : wlif ∉ state.live := henabled wlif rfl
      obtain rfl : scheduled = true := hcompletes hmatched hval ⟨wlif, rfl, hnew⟩
      obtain ⟨next, hnext, hinv⟩ := (h.request val).setMonitor_linked hmatched hval hnew
      refine ⟨next, _, hnext, hinv, fun hfails ↦ ?_⟩
      simp [Fails, hmatched] at hfails
  | addMonitorIf wlif allocated registered =>
    obtain ⟨rfl, rfl⟩ := hcompletes henabled
    obtain ⟨hmem, htype, _⟩ := h.adding wlif henabled
    refine ⟨_, nodes, if_pos henabled, ?_, fun hfails ↦ ?_⟩
    · rw [wlAddMonitorIf_completed]
      exact (h.take _).complete hmem htype (h.taken wlif) ..
    · simp [Fails] at hfails
  | delMonitor =>
    obtain ⟨next, nodes', hnext, hinv⟩ := (h.take .delMonitor).delMonitor
    exact ⟨next, nodes', (if_pos henabled).trans hnext, hinv, fun hfails ↦ hfails.elim⟩
  | freeIf wlif =>
    have hadding : .addMonitorIf wlif ∉ state.tasks := by
      intro hmem
      exact absurd (henabled.2.symm.trans (h.adding wlif hmem).2.1) (by decide)
    have hmonitor : state.monitorDev ≠ some wlif := by
      intro hsome
      exact absurd (henabled.2.symm.trans (h.monitor wlif hsome).2) (by decide)
    obtain ⟨next, hnext, hinv⟩ := h.free ((h.mem_live wlif).mp henabled.1) hadding hmonitor
    exact ⟨next, _, (if_pos henabled).trans hnext, hinv, fun hfails ↦ hfails.elim⟩

/-- A node that is freed while it is linked stays on the list. -/
theorem Inv.unscheduled (h : Inv state nodes) {val : ℤ} {wlif : Node}
    (hmatched : mismatched val state = false) (hval : val ≠ 0) (hnew : wlif ∉ state.live)
    (hstep : step state (.setMonitor val (some wlif) false) = some next) : ¬Intact next := by
  have hinv := (h.request val).setMonitorType val
  have hnew' : wlif ∉ (Monitor.setMonitorType val { state with lastRequest := val }).live := by
    rwa [setMonitorType_live]
  obtain ⟨head, link, heq, hlinked⟩ := hinv.toListIs.wlAllocIf hnew' .mon
  have hfree : ¬∃ node ∈ some wlif, node ∈ state.live := by
    rintro ⟨node, hnode, hlive⟩
    exact hnew (Option.some.inj hnode ▸ hlive)
  have hmatched' : ¬mismatched val { state with lastRequest := val } = true :=
    Bool.not_eq_true _ ▸ hmatched
  rw [step, if_neg hfree, wlSetMonitor, if_neg hmatched', if_neg hval] at hstep
  simp only [heq, Option.map_some, Option.some.injEq] at hstep
  subst hstep
  rintro ⟨others, hothers, _, hlive⟩
  have hmem : wlif ∈ others := by
    rw [← hlinked.unique hothers]
    exact List.mem_append_right _ (List.mem_singleton_self wlif)
  exact Finset.notMem_erase wlif _ (hlive wlif hmem)

theorem wlAddMonitorIf_list (wlif : Node) (allocated registered : Bool) (state : State) :
    (wlAddMonitorIf wlif allocated registered state).ifList = state.ifList ∧
      (wlAddMonitorIf wlif allocated registered state).next = state.next := by
  unfold wlAddMonitorIf
  cases state.monitorDev <;> cases allocated <;> cases registered <;> exact ⟨rfl, rfl⟩

/-- A task that fails leaves the node of its request on the list. -/
theorem Inv.abandoned (h : Inv state nodes) {wlif : Node} {allocated registered : Bool}
    (htask : .addMonitorIf wlif ∈ state.tasks) (hfails : allocated = false ∨ registered = false)
    (hstep : step state (.addMonitorIf wlif allocated registered) = some next) :
    ¬Restored state (.addMonitorIf wlif allocated registered) next := by
  intro hrestored
  have hnext := hrestored hfails nodes h.linked
  rw [Label.requested, List.diff_cons, List.diff_nil] at hnext
  rw [step, if_pos htask] at hstep
  cases hstep
  obtain ⟨hhead, hlink⟩ := wlAddMonitorIf_list wlif allocated registered
    (state.take (.addMonitorIf wlif))
  rw [hhead, hlink] at hnext
  have hsame : nodes.erase wlif = nodes := hnext.unique h.linked
  have hmem : wlif ∈ nodes.erase wlif := hsame.symm ▸ (h.adding wlif htask).1
  exact h.nodup.not_mem_erase hmem

/-- A step keeps the list exactly when it completes what it has begun. -/
theorem Inv.keepsList_iff (h : Inv state nodes) :
    KeepsList state label ↔ Completes state label := by
  constructor
  · intro hkeeps
    cases label with
    | setMonitor val malloc scheduled =>
      rintro hmatched hval ⟨wlif, hmalloc, hnew⟩
      cases hmalloc
      cases scheduled with
      | true => rfl
      | false =>
        have henabled : Enabled state (.setMonitor val (some wlif) false) :=
          fun node hnode ↦ Option.some.inj hnode ▸ hnew
        obtain ⟨next, hnext, hintact, _⟩ := hkeeps henabled
        exact absurd hintact (h.unscheduled hmatched hval hnew hnext)
    | addMonitorIf wlif allocated registered =>
      intro htask
      obtain ⟨next, hnext, _, hrestored⟩ := hkeeps htask
      by_contra hfails
      rw [not_and_or, Bool.not_eq_true, Bool.not_eq_true] at hfails
      exact h.abandoned htask hfails hnext hrestored
    | delMonitor => trivial
    | freeIf wlif => trivial
  · intro hcompletes henabled
    obtain ⟨next, nodes', hnext, hinv, hrestored⟩ := h.keeps henabled hcompletes
    exact ⟨next, hnext, hinv.toListIs.intact, hrestored⟩

end Keeps

/-- Every step of a run keeps the list exactly when every step completes what it has begun. -/
theorem interface_list_intact_iff {start : State} (h : Initial start) (labels : List Label) :
    machine.Along KeepsList start labels ↔ machine.Along Completes start labels := by
  let invariant := fun state ↦ ∃ nodes, Inv state nodes
  have hcondition : ∀ state label, invariant state →
      (KeepsList state label ↔ Completes state label) :=
    fun _ _ ⟨_, hinv⟩ ↦ hinv.keepsList_iff
  refine @Machine.along_congr _ _ _ invariant _ _ hcondition ?_ _ _ h.inv
  rintro state label next ⟨nodes, hinv⟩ hkeeps hnext
  have henabled : Enabled state label := enabled_of_step hnext
  obtain ⟨next', nodes', hnext', hinv', _⟩ := hinv.keeps henabled (hinv.keepsList_iff.mp hkeeps)
  obtain rfl : next' = next := Option.some.inj (hnext'.symm.trans hnext)
  exact ⟨nodes', hinv'⟩

/-- The driver with the interface `wl->dev` only. -/
def attached : State where
  ifList := some 0
  next := fun _ ↦ none
  ifType := fun _ ↦ .bss
  dev := fun node ↦ decide (node = 0)
  devRegisted := fun node ↦ decide (node = 0)
  live := {0}
  monitorDev := none
  monitorType := 0
  tasks := 0
  lastRequest := 0
  assertFailed := false

theorem attached_initial : Initial attached :=
  ⟨⟨[0], ⟨rfl, rfl⟩, List.nodup_singleton 0, rfl, fun _ _ ↦ rfl⟩, rfl, rfl, rfl, rfl⟩

/-- A request whose task cannot be queued, and one whose device cannot be registered. -/
theorem failed_requests_break_list :
    Initial attached ∧
      (∃ next, machine.run attached [.setMonitor 1 (some 1) false] = some next ∧
        next.next 0 = some 1 ∧ 1 ∉ next.live ∧ ¬Intact next) ∧
      ∃ state next, machine.run attached [.setMonitor 1 (some 1) true] = some state ∧
        step state (.addMonitorIf 1 true false) = some next ∧
        Linked next.next next.ifList [0, 1] ∧ next.monitorDev = none ∧ next.tasks = 0 ∧
        ¬Restored state (.addMonitorIf 1 true false) next := by
  refine ⟨attached_initial, ⟨_, rfl, rfl, by decide, ?_⟩,
    ⟨_, _, rfl, rfl, ⟨rfl, rfl, rfl⟩, rfl, rfl, ?_⟩⟩
  · obtain ⟨nodes, hinv⟩ := attached_initial.inv
    have hnew : 1 ∉ attached.live := by decide
    exact hinv.unscheduled rfl one_ne_zero hnew rfl
  · intro hrestored
    have hlinked := hrestored (.inr rfl) [0, 1] ⟨rfl, rfl, rfl⟩
    exact nomatch hlinked.2

/-- A monitor is added and deleted again. -/
def addAndDelete : List Label :=
  [.setMonitor 1 (some 1) true, .addMonitorIf 1 true true, .setMonitor 0 none true, .delMonitor]

theorem interface_list_intact_add_and_delete :
    (machine.run attached addAndDelete).isSome ∧
      machine.Along KeepsList attached addAndDelete :=
  ⟨rfl, (interface_list_intact_iff attached_initial addAndDelete).mpr
    ⟨fun _ _ _ ↦ rfl, fun _ _ ↦ ⟨fun _ ↦ ⟨rfl, rfl⟩, fun _ _ ↦
      ⟨fun _ _ _ ↦ rfl, fun _ _ ↦ ⟨trivial, fun _ _ ↦ trivial⟩⟩⟩⟩⟩

end BroadcomWl.Linux.Monitor
