import BroadcomWl.Linux.Monitor

/-!
# Opening and closing the device

`wl_open` brings the radio up with `wl_up`, sets promiscuous mode, and brings cfg80211 up;
`wl_close` takes the radio down with `wl_down` when `wl->if_list` is empty. The network core
opens the device when it is closed and closes it when it is open. Between the calls other
interfaces may come and go on the list.

The list is never empty while the device exists: its own node was put there by `wl_attach` and
stays until `wl_free_if`. So closing leaves the radio up, and so does an open that fails after
`wl_up`.
-/

namespace BroadcomWl.Linux.OpenClose

open BroadcomWl.Memory BroadcomWl.Systems Monitor

def enodev : ℤ := 19

/-- `wl->pub->up`, whether the network core has the device open, and the interfaces. -/
structure State where
  up : Bool
  opened : Bool
  interfaces : Monitor.State

/-- `wl_up`; `wlcUp` is the result of `wlc_up`. -/
def wlUp (wlcUp : ℤ) (state : State) : ℤ × State :=
  if state.up then (0, state)
  else if wlcUp = 0 then (0, { state with up := true })
  else (wlcUp, state)

/-- `wl_down`: `wlc_down` is called whatever came before. -/
def wlDown (state : State) : State := { state with up := false }

/-- `wl_open`, with the results of `wlc_up`, `WLC_SET_PROMISC` and `wl_cfg80211_up`. -/
def wlOpen (wlcUp promisc cfg80211Up : ℤ) (state : State) : ℤ × State :=
  let (error, state) := wlUp wlcUp state
  let error := if error = 0 then promisc else error
  if cfg80211Up ≠ 0 then (-1, state)
  else (if error ≠ 0 then -enodev else 0, state)

/-- `wl_close`. -/
def wlClose (state : State) : State :=
  match state.interfaces.ifList with
  | none => wlDown state
  | some _ => state

/-- `ndo_open` and `ndo_stop`, or a step on the interface list. -/
inductive Label where
  | ndoOpen (wlcUp promisc cfg80211Up : ℤ)
  | ndoStop
  | interfaces (label : Monitor.Label)

/-- The network core notes whether the device is open. The device's own node is not freed. -/
def step (dev : Node) (state : State) : Label → Option State
  | .ndoOpen wlcUp promisc cfg80211Up =>
      if state.opened then none
      else
        let (ret, next) := wlOpen wlcUp promisc cfg80211Up state
        some { next with opened := decide (ret = 0) }
  | .ndoStop => if state.opened then some { wlClose state with opened := false } else none
  | .interfaces (.freeIf wlif) =>
      if wlif = dev then none
      else (Monitor.step state.interfaces (.freeIf wlif)).map fun interfaces ↦
        { state with interfaces := interfaces }
  | .interfaces label =>
      (Monitor.step state.interfaces label).map fun interfaces ↦
        { state with interfaces := interfaces }

/-- After `wl_attach`: the only interface is the device, and the radio is down. -/
structure Initial (dev : Node) (state : State) : Prop where
  down : state.up = false
  closed : state.opened = false
  interfaces : Monitor.Initial state.interfaces
  only : Linked state.interfaces.next state.interfaces.ifList [dev]

def machine (dev : Node) : Machine State Label where
  initial := Initial dev
  step := step dev

/-- No other interface is on the list. -/
def OnlyInterface (dev : Node) (state : State) : Prop :=
  Linked state.interfaces.next state.interfaces.ifList [dev]

/-- The radio is up after an open that returned 0. It is down after one that did not, and after
the only interface was closed. -/
def Inverse (dev : Node) (state : State) : Label → Prop
  | .ndoOpen wlcUp promisc cfg80211Up =>
      state.opened = false →
        ((wlOpen wlcUp promisc cfg80211Up state).1 = 0 →
            (wlOpen wlcUp promisc cfg80211Up state).2.up = true) ∧
          ((wlOpen wlcUp promisc cfg80211Up state).1 ≠ 0 →
            (wlOpen wlcUp promisc cfg80211Up state).2.up = false)
  | .ndoStop => state.opened = true → OnlyInterface dev state → (wlClose state).up = false
  | .interfaces _ => True

/-- Once the radio is up, nothing that follows in `wl_open` fails; and the device is only closed
while another interface is on the list. -/
def Condition (dev : Node) (state : State) : Label → Prop
  | .ndoOpen wlcUp promisc cfg80211Up =>
      state.opened = false → (state.up = true ∨ wlcUp = 0) → promisc = 0 ∧ cfg80211Up = 0
  | .ndoStop => state.opened = true → ¬OnlyInterface dev state
  | .interfaces _ => True

/-! ## The head of the list -/

/-- The device's node is the head of the list and is not the node of a monitor. -/
structure Headed (dev : Node) (interfaces : Monitor.State) : Prop where
  head : interfaces.ifList = some dev
  live : dev ∈ interfaces.live
  tasks : .addMonitorIf dev ∉ interfaces.tasks
  monitor : interfaces.monitorDev ≠ some dev

section Headed

variable {dev : Node} {interfaces next : Monitor.State}

/-- A node that is put on the list goes behind the head. -/
theorem Headed.wlAllocIf (h : Headed dev interfaces) {node : Node} {type : IfType}
    (hnext : Monitor.wlAllocIf type node interfaces = some next) :
    Headed dev next ∧ next.tasks = interfaces.tasks := by
  obtain ⟨⟨head, link⟩, hlink, rfl⟩ := Option.map_eq_some_iff.mp hnext
  unfold linkLast at hlink
  rw [h.head] at hlink
  obtain ⟨last, _, hlast⟩ := Option.map_eq_some_iff.mp hlink
  obtain ⟨rfl, rfl⟩ := Prod.mk.inj hlast
  exact ⟨⟨rfl, Finset.mem_insert_of_mem h.live, h.tasks, h.monitor⟩, rfl⟩

/-- Another node is taken out behind the head. -/
theorem Headed.wlFreeIf (h : Headed dev interfaces) {node : Node} (hne : node ≠ dev)
    (hnext : Monitor.wlFreeIf node interfaces = some next) : Headed dev next := by
  obtain ⟨⟨head, link⟩, hunlink, rfl⟩ := Option.map_eq_some_iff.mp hnext
  have hhead : interfaces.ifList ≠ some node := fun heq ↦
    hne (Option.some.inj (heq.symm.trans h.head))
  unfold unlink at hunlink
  rw [if_neg hhead] at hunlink
  obtain ⟨before, _, hbefore⟩ := Option.map_eq_some_iff.mp hunlink
  refine ⟨?_, Finset.mem_erase_of_ne_of_mem hne.symm h.live, h.tasks, h.monitor⟩
  cases before with
  | none =>
    obtain ⟨rfl, _⟩ := Prod.mk.inj hbefore
    exact h.head
  | some before =>
    obtain ⟨rfl, _⟩ := Prod.mk.inj hbefore
    exact h.head

theorem Headed.take (h : Headed dev interfaces) (task : Task) :
    Headed dev (interfaces.take task) :=
  ⟨h.head, h.live, fun hmem ↦ h.tasks (Multiset.mem_of_mem_erase hmem), h.monitor⟩

theorem Headed.wlAddMonitorIf (h : Headed dev interfaces) {wlif : Node} (hne : wlif ≠ dev)
    (allocated registered : Bool) :
    Headed dev (Monitor.wlAddMonitorIf wlif allocated registered interfaces) := by
  have hmonitor : (some wlif : Option Node) ≠ some dev := fun heq ↦ hne (Option.some.inj heq)
  unfold Monitor.wlAddMonitorIf
  cases interfaces.monitorDev.isSome <;> cases allocated <;> cases registered
  all_goals
    first
    | exact ⟨h.head, h.live, h.tasks, h.monitor⟩
    | exact ⟨h.head, h.live, h.tasks, hmonitor⟩
    | exact ⟨h.head, h.live, h.tasks, (Option.some_ne_none dev).symm⟩

theorem Headed.setMonitorType (h : Headed dev interfaces) (val : ℤ) :
    Headed dev (Monitor.setMonitorType val interfaces) := by
  unfold Monitor.setMonitorType
  split <;> exact ⟨h.head, h.live, h.tasks, h.monitor⟩

theorem Headed.wlScheduleTask (h : Headed dev interfaces) {task : Task}
    (hne : task ≠ .addMonitorIf dev) (scheduled : Bool) :
    Headed dev (Monitor.wlScheduleTask task scheduled interfaces).2 := by
  unfold Monitor.wlScheduleTask
  split
  · refine ⟨h.head, h.live, fun hmem ↦ ?_, h.monitor⟩
    rcases Multiset.mem_cons.mp hmem with heq | hmem
    · exact hne heq.symm
    · exact h.tasks hmem
  · exact h

theorem Headed.wlSetMonitor (h : Headed dev interfaces) {val : ℤ} {malloc : Option Node}
    {scheduled : Bool} (hmalloc : ∀ wlif ∈ malloc, wlif ∉ interfaces.live)
    (hnext : Monitor.wlSetMonitor val malloc scheduled interfaces = some next) :
    Headed dev next := by
  unfold Monitor.wlSetMonitor at hnext
  split at hnext
  · cases hnext
    exact h
  split at hnext
  · cases hnext
    exact h.wlScheduleTask (by simp) scheduled
  cases malloc with
  | none =>
    cases hnext
    exact h.setMonitorType val
  | some wlif =>
    have hne : wlif ≠ dev := fun heq ↦ hmalloc wlif rfl (heq ▸ h.live)
    obtain ⟨linked, hlinked, rfl⟩ := Option.map_eq_some_iff.mp hnext
    have hheaded := ((h.setMonitorType val).wlAllocIf hlinked).1
    have htask : Task.addMonitorIf wlif ≠ .addMonitorIf dev :=
      fun heq ↦ hne (Task.addMonitorIf.inj heq)
    have hqueued := hheaded.wlScheduleTask htask scheduled
    dsimp only
    split
    · exact hqueued
    · exact ⟨hqueued.head, Finset.mem_erase_of_ne_of_mem hne.symm hqueued.live, hqueued.tasks,
        hqueued.monitor⟩

/-- No request, task or removal of another interface takes the device from the head. -/
theorem Headed.step (h : Headed dev interfaces) {label : Monitor.Label}
    (hlabel : label ≠ .freeIf dev) (hnext : Monitor.step interfaces label = some next) :
    Headed dev next := by
  cases label with
  | setMonitor val malloc scheduled =>
    obtain ⟨hnew, hnext⟩ := Option.ite_none_left_eq_some.mp hnext
    have hrequest : Headed dev { interfaces with lastRequest := val } :=
      ⟨h.head, h.live, h.tasks, h.monitor⟩
    exact hrequest.wlSetMonitor (fun wlif hwlif hlive ↦ hnew ⟨wlif, hwlif, hlive⟩) hnext
  | addMonitorIf wlif allocated registered =>
    obtain ⟨htask, hnext⟩ := Option.ite_none_right_eq_some.mp hnext
    cases hnext
    have hne : wlif ≠ dev := fun heq ↦ h.tasks (heq ▸ htask)
    exact (h.take (.addMonitorIf wlif)).wlAddMonitorIf hne allocated registered
  | delMonitor =>
    obtain ⟨_, hnext⟩ := Option.ite_none_right_eq_some.mp hnext
    have htaken := h.take .delMonitor
    unfold wlDelMonitor at hnext
    split at hnext
    · cases hnext
      exact ⟨htaken.head, htaken.live, htaken.tasks, htaken.monitor⟩
    · rename_i wlif hmonitor
      have hne : wlif ≠ dev := fun heq ↦ htaken.monitor (heq ▸ hmonitor)
      obtain ⟨freed, hfreed, rfl⟩ := Option.map_eq_some_iff.mp hnext
      have hheaded := htaken.wlFreeIf hne hfreed
      exact ⟨hheaded.head, hheaded.live, hheaded.tasks, (Option.some_ne_none dev).symm⟩
  | freeIf wlif =>
    obtain ⟨_, hnext⟩ := Option.ite_none_right_eq_some.mp hnext
    exact h.wlFreeIf (fun heq ↦ hlabel (heq ▸ rfl)) hnext

end Headed

/-! ## Every sequence of calls -/

/-- The device is at the head of the list, and while it is open the radio is up. -/
structure Inv (dev : Node) (state : State) : Prop where
  headed : Headed dev state.interfaces
  up : state.opened = true → state.up = true

section Calls

variable {dev : Node} {state next : State}

theorem Initial.inv (h : Initial dev state) : Inv dev state := by
  obtain ⟨nodes, hlinked, _, hlive, _⟩ := h.interfaces.list
  obtain rfl : nodes = [dev] := hlinked.unique h.only
  refine ⟨⟨h.only.1, ?_, ?_, ?_⟩, fun hopened ↦ absurd (h.closed.symm.trans hopened) (by decide)⟩
  · rw [← hlive]
    simp
  · rw [h.interfaces.tasks]
    exact Multiset.notMem_zero _
  · rw [h.interfaces.monitorDev]
    exact (Option.some_ne_none dev).symm

/-- An open leaves the interfaces alone, and afterwards the radio is up if it was or `wlc_up`
succeeded. -/
theorem wlOpen_snd (wlcUp promisc cfg80211Up : ℤ) (state : State) :
    (wlOpen wlcUp promisc cfg80211Up state).2 =
      { state with up := state.up || decide (wlcUp = 0) } := by
  unfold wlOpen wlUp
  cases hup : state.up <;> by_cases hwlc : wlcUp = 0 <;> by_cases hcfg : cfg80211Up = 0 <;>
  simp [hwlc, hcfg]
  all_goals rw [← hup]

/-- An open returns 0 when the radio comes up and nothing fails after that. -/
theorem wlOpen_fst_eq_zero_iff (wlcUp promisc cfg80211Up : ℤ) (state : State) :
    (wlOpen wlcUp promisc cfg80211Up state).1 = 0 ↔
      (state.up = true ∨ wlcUp = 0) ∧ promisc = 0 ∧ cfg80211Up = 0 := by
  unfold wlOpen wlUp enodev
  cases hup : state.up <;> by_cases hwlc : wlcUp = 0 <;> by_cases hcfg : cfg80211Up = 0 <;>
  by_cases hpromisc : promisc = 0 <;>
  simp [hwlc, hcfg, hpromisc]

theorem wlClose_of_headed (h : Headed dev state.interfaces) : wlClose state = state := by
  rw [wlClose, h.head]

theorem inverse_iff_condition (h : Inv dev state) (label : Label) :
    Inverse dev state label ↔ Condition dev state label := by
  cases label with
  | ndoOpen wlcUp promisc cfg80211Up =>
    refine forall_congr' fun hclosed ↦ ?_
    rw [wlOpen_snd, ne_eq, wlOpen_fst_eq_zero_iff]
    cases state.up <;> by_cases hwlc : wlcUp = 0 <;> simp [hwlc]
  | ndoStop =>
    refine forall_congr' fun hopened ↦ ?_
    rw [wlClose_of_headed h.headed, h.up hopened]
    simp
  | interfaces label => exact Iff.rfl

theorem Inv.step {label : Label} (h : Inv dev state) (hnext : step dev state label = some next) :
    Inv dev next := by
  cases label with
  | ndoOpen wlcUp promisc cfg80211Up =>
    have hopen : OpenClose.step dev state (.ndoOpen wlcUp promisc cfg80211Up) =
        if state.opened then none
        else some { (wlOpen wlcUp promisc cfg80211Up state).2 with
          opened := decide ((wlOpen wlcUp promisc cfg80211Up state).1 = 0) } := rfl
    rw [hopen, wlOpen_snd] at hnext
    obtain ⟨_, hnext⟩ := Option.ite_none_left_eq_some.mp hnext
    obtain rfl := Option.some.inj hnext
    refine ⟨h.headed, fun hzero ↦ ?_⟩
    obtain ⟨hup, -⟩ := (wlOpen_fst_eq_zero_iff ..).mp (of_decide_eq_true hzero)
    simpa using hup
  | ndoStop =>
    obtain ⟨_, hnext⟩ := Option.ite_none_right_eq_some.mp hnext
    cases hnext
    rw [wlClose_of_headed h.headed]
    exact ⟨h.headed, fun hopened ↦ (Bool.false_ne_true hopened).elim⟩
  | interfaces label =>
    have hinterfaces : label ≠ .freeIf dev ∧
        ∃ interfaces, Monitor.step state.interfaces label = some interfaces ∧
          { state with interfaces := interfaces } = next := by
      cases label with
      | freeIf wlif =>
        obtain ⟨hne, hnext⟩ := Option.ite_none_left_eq_some.mp hnext
        exact ⟨fun heq ↦ hne (Monitor.Label.freeIf.inj heq), Option.map_eq_some_iff.mp hnext⟩
      | setMonitor | addMonitorIf | delMonitor =>
        exact ⟨by simp, Option.map_eq_some_iff.mp hnext⟩
    obtain ⟨hlabel, interfaces, hstep, rfl⟩ := hinterfaces
    exact ⟨h.headed.step hlabel hstep, h.up⟩

/-- In every sequence of opens and closes from attach on, with interfaces coming and going, each
call leaves the radio as it should if and only if nothing fails in an open after the radio is up
and the device is never closed alone. -/
theorem open_close_inverse_iff (h : Initial dev state) (labels : List Label) :
    (machine dev).Along (Inverse dev) state labels ↔
      (machine dev).Along (Condition dev) state labels := by
  refine @Machine.along_congr _ _ _ (Inv dev) _ _ ?_ ?_ _ _ h.inv
  · exact fun state label hstate ↦ inverse_iff_condition hstate label
  · exact fun state label next hstate _ hnext ↦ hstate.step hnext

end Calls

/-- The driver after `wl_attach`. -/
def attachedState : State := ⟨false, false, attached⟩

theorem attachedState_initial : Initial 0 attachedState :=
  ⟨rfl, rfl, attached_initial, ⟨rfl, rfl⟩⟩

/-- The radio fails at first; then the device is opened, a monitor is added, and the device is
closed. -/
def openedWithMonitor : List Label :=
  [.ndoOpen 1 0 0, .ndoOpen 0 0 0, .interfaces (.setMonitor 1 (some 1) true), .ndoStop]

theorem open_close_inverse_with_monitor :
    ((machine 0).run attachedState openedWithMonitor).isSome ∧
      (machine 0).Along (Inverse 0) attachedState openedWithMonitor := by
  refine ⟨rfl, (open_close_inverse_iff attachedState_initial _).mpr ⟨?_, ?_⟩⟩
  · exact fun _ h ↦ absurd h (by decide)
  rintro _ ⟨⟩
  refine ⟨fun _ _ ↦ ⟨rfl, rfl⟩, ?_⟩
  rintro _ ⟨⟩
  refine ⟨trivial, ?_⟩
  rintro _ ⟨⟩
  refine ⟨fun _ honly ↦ ?_, fun _ _ ↦ trivial⟩
  have hend : (some 1 : Option Node) = none := honly.2
  exact absurd hend (by decide)

/-- Opening the device and closing it again leaves the radio up, and so does an open in which
`WLC_SET_PROMISC` fails. -/
theorem radio_left_up :
    ¬(machine 0).Along (Inverse 0) attachedState [.ndoOpen 0 0 0, .ndoStop] ∧
      ¬(machine 0).Along (Inverse 0) attachedState [.ndoOpen 0 1 0] := by
  refine ⟨fun halong ↦ ?_, fun halong ↦ ?_⟩
  · have hdown := (halong.2 _ rfl).1 rfl ⟨rfl, rfl⟩
    exact absurd hdown (by decide)
  · exact absurd ((halong.1 rfl).2 (by decide)) (by decide)

end BroadcomWl.Linux.OpenClose
