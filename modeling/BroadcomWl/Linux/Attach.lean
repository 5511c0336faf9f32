import BroadcomWl.Memory.Ledger
import Mathlib.Data.Finset.Lattice.Lemmas
import Mathlib.Data.Int.Order.Basic

/-!
# Attaching and removing the device

`wl_attach` acquires its resources one after the other; `wl_free` undoes them, also for the
failures of `wl_attach` itself, and `wl_cfg80211_attach` undoes its own. Every acquisition may
fail. A ledger records what is acquired, accessed and released until `wl_attach` has returned
`NULL` or `wl_remove` has returned. Released objects keep their contents here: the first access
to one is already what the ledger reports.

The second register mapping belongs to the caller, and what `wlc_attach` and the firmware
acquire to the closed part of the driver.
-/

namespace BroadcomWl.Linux.Attach

open BroadcomWl.Memory.Ledger

/-- The buffers of `struct wl_cfg80211_priv`, in the order in which they are allocated. -/
inductive PrivMem where
  | conf
  | profile
  | scanReqInt
  | ioctlBuf
  | extraBuf
  | pmkList
deriving DecidableEq, Repr

/-- What is acquired. The private data of cfg80211 is a part of the wiphy. -/
inductive Resource where
  | osh
  | wl
  | wlif
  | netDevice
  | regs
  | wlc
  | irq
  | wdev
  | wiphy
  | wiphyRegistration
  | privMem (buf : PrivMem)
  | eventThread
  | netdevRegistration
  | module
  | procEntry
deriving DecidableEq, Repr

/-- The `bustype` argument; every other number is forced to PCI. -/
inductive BusType where
  | pcmcia
  | pci
  | rpc
  | other
deriving DecidableEq, Repr

/-- Which acquisitions succeed, what `wlc_chipmatch` tells `wl_remove`, the module parameters, and
the arguments of `wl_attach`. -/
structure Environment where
  outcome : Resource → Bool
  chipmatch : Bool
  wlFound : Int32
  instanceBase : Int32
  oneonly : Bool
  bustype : BusType
  irq : ℕ

/-- The pointers and flags that the release paths test, and the ledger. `wlDev` is `wl->dev`,
`wlifDev` is `wlif->dev`, `wlIrq` is `wl->dev->irq`, and `wdev` is `wl->wdev` of the private
data. -/
structure State where
  log : List (Event Resource)
  wlDev : Bool
  wlifDev : Bool
  wlIrq : ℕ
  devRegisted : Bool
  ieee80211Ptr : Bool
  regsva : Bool
  wlc : Bool
  module : Bool
  procEntry : Bool
  wdev : Bool
  privMem : PrivMem → Bool
  eventTsk : Bool

def State.acquire (resource : Resource) (state : State) : State :=
  { state with log := state.log ++ [.acquire resource] }

def State.access (resource : Resource) (state : State) : State :=
  { state with log := state.log ++ [.access resource] }

def State.release (resource : Resource) (state : State) : State :=
  { state with log := state.log ++ [.release resource] }

/-! ## cfg80211 -/

/-- `wl_alloc_wdev`; the result is whether it returned zero. -/
def wlAllocWdev (env : Environment) (state : State) : Bool × State :=
  if !env.outcome .wdev then (false, state)
  else
    let state := state.acquire .wdev
    if !env.outcome .wiphy then (false, (state.access .wdev).release .wdev)
    else
      let state := ((state.acquire .wiphy).access .wdev).access .wiphy
      if !env.outcome .wiphyRegistration then
        (false, ((state.access .wdev).release .wiphy).release .wdev)
      else (true, state.acquire .wiphyRegistration)

/-- `wl_free_wdev`. -/
def wlFreeWdev (state : State) : State :=
  let state := state.access .wiphy
  if !state.wdev then state
  else
    let state := (state.access .wdev).release .wiphyRegistration
    let state := (state.access .wdev).release .wiphy
    let state := state.release .wdev
    { state.access .wiphy with wdev := false }

/-- The buffers that `wl_init_priv_mem` allocates. -/
def privMems : List PrivMem := [.conf, .profile, .scanReqInt, .ioctlBuf, .extraBuf, .pmkList]

/-- One `kfree` of `wl_deinit_priv_mem`. -/
def kfreePrivMem (state : State) (buf : PrivMem) : State :=
  let state := state.access .wiphy
  let state := if state.privMem buf then state.release (.privMem buf) else state
  { state with privMem := Function.update state.privMem buf false }

/-- `wl_deinit_priv_mem`. -/
def wlDeinitPrivMem (state : State) : State := privMems.foldl kfreePrivMem state

/-- The allocations of `wl_init_priv_mem`, up to the first that fails. -/
def kzallocPrivMems (env : Environment) : List PrivMem → State → Bool × State
  | [], state => (true, state)
  | buf :: bufs, state =>
      if !env.outcome (.privMem buf) then
        (false, { state.access .wiphy with
          privMem := Function.update state.privMem buf false })
      else
        kzallocPrivMems env bufs { (state.acquire (.privMem buf)).access .wiphy with
          privMem := Function.update state.privMem buf true }

/-- `wl_init_priv_mem`. -/
def wlInitPrivMem (env : Environment) (state : State) : Bool × State :=
  let (allocated, state) := kzallocPrivMems env privMems state
  if allocated then (true, state) else (false, wlDeinitPrivMem state)

/-- `wl_create_event_handler`. -/
def wlCreateEventHandler (env : Environment) (state : State) : Bool × State :=
  if !env.outcome .eventThread then (false, { state.access .wiphy with eventTsk := false })
  else (true, { (state.acquire .eventThread).access .wiphy with eventTsk := true })

/-- `wl_destroy_event_handler`. -/
def wlDestroyEventHandler (state : State) : State :=
  let state := state.access .wiphy
  if state.eventTsk then
    { (state.release .eventThread).access .wiphy with eventTsk := false }
  else state

/-- `wl_init_cfg80211_priv`. -/
def wlInitCfg80211Priv (env : Environment) (state : State) : Bool × State :=
  let state := { state.access .wiphy with wdev := true }
  let (allocated, state) := wlInitPrivMem env state
  if !allocated then (false, state)
  else
    let (created, state) := wlCreateEventHandler env state
    if !created then (false, state) else (true, state.access .wiphy)

/-- `wl_deinit_cfg80211_priv`; `wl_flush_eq` and `wl_link_down` access the private data. -/
def wlDeinitCfg80211Priv (state : State) : State :=
  wlDeinitPrivMem ((wlDestroyEventHandler state).access .wiphy)

/-- `wl_cfg80211_attach`; the result is whether it returned zero. -/
def wlCfg80211Attach (env : Environment) (state : State) : Bool × State :=
  let (allocated, state) := wlAllocWdev env state
  if !allocated then (false, state)
  else
    let state := state.access .wdev
    let state := { state.access .netDevice with ieee80211Ptr := true }
    let (initialized, state) := wlInitCfg80211Priv env (state.access .wdev)
    if !initialized then (false, wlFreeWdev state) else (true, state.access .wiphy)

/-- `wl_cfg80211_detach`. -/
def wlCfg80211Detach (state : State) : State :=
  let state := state.access .netDevice
  if !state.ieee80211Ptr then state
  else wlFreeWdev (wlDeinitCfg80211Priv (state.access .wdev))

/-! ## The driver -/

/-- The first block of `wl_free_if`. -/
def unregisterNetdev (state : State) : State :=
  if state.devRegisted then
    { (state.access .netDevice).release .netdevRegistration with devRegisted := false }
  else state

/-- The last block of `wl_free_if`. -/
def freeNetdev (state : State) : State :=
  if state.wlifDev then { (state.release .netDevice).access .wlif with wlifDev := false }
  else state

/-- `wl_free_if`, for the interface of `wl->dev`. -/
def wlFreeIf (state : State) : State :=
  let state := wlCfg80211Detach (unregisterNetdev (state.access .wlif))
  (freeNetdev ((state.access .wl).access .wlif)).release .wlif

/-- The block of `wl_free` for the interrupt. -/
def freeIrq (state : State) : State :=
  let state := state.access .wl
  if !state.wlDev then state
  else
    let state := state.access .netDevice
    if state.wlIrq = 0 then state else state.release .irq

/-- The block of `wl_free` for the interface. -/
def freeDev (state : State) : State :=
  if state.wlDev then { wlFreeIf (state.access .netDevice) with wlDev := false } else state

/-- The blocks of `wl_free` for the common driver; `wl->pub` and `wl->wlc` are set together. A
module or a proc entry that was never made is not there to be removed. -/
def freeWlc (state : State) : State :=
  if !state.wlc then state
  else
    let state := if state.module then state.release .module else state
    let state := if state.procEntry then state.release .procEntry else state
    { state.release .wlc with wlc := false }

/-- The block of `wl_free` for the registers; the bus is never SDIO or JTAG. -/
def freeRegs (state : State) : State :=
  if state.regsva then { state.release .regs with regsva := false } else state

/-- `wl_free`, without the timers, the transmit queue and the wait for the callbacks. -/
def wlFree (state : State) : State :=
  ((freeRegs (freeWlc (freeDev (freeIrq state)))).release .wl).release .osh

/-- `wl_remove`; `wl_down` accesses the interfaces. -/
def wlRemove (env : Environment) (state : State) : State :=
  if !env.chipmatch then state
  else wlFree (((state.access .wl).access .wlif).access .netDevice)

/-- `wl_attach` from `register_netdev` on. -/
def wlAttachRegister (env : Environment) (state : State) : Bool × State :=
  if !env.outcome .netdevRegistration then (false, wlFree state)
  else
    let state := { (state.acquire .netdevRegistration).access .wlif with devRegisted := true }
    if !env.outcome .module then (false, wlFree state)
    else
      let state := { state.acquire .module with module := true }
      if !env.outcome .procEntry then (true, state)
      else (true, { state.acquire .procEntry with procEntry := true })

/-- `parentdev` is there only on a PCI bus. -/
def hasParentdev : BusType → Bool
  | .pcmcia | .rpc => false
  | .pci | .other => true

/-- `wl_attach` from `wl_cfg80211_attach` on. -/
def wlAttachCfg80211 (env : Environment) (state : State) : Bool × State :=
  if !hasParentdev env.bustype then (false, wlFree state)
  else
    let (attached, state) := wlCfg80211Attach env state
    if !attached then (false, wlFree state) else wlAttachRegister env state

/-- `wl_attach` from `ioremap` on, where every failure goes to `fail`. -/
def wlAttachDevice (env : Environment) (state : State) : Bool × State :=
  if !env.outcome .regs then (false, wlFree state)
  else
    let state := { state.acquire .regs with regsva := true }
    if !env.outcome .wlc then (false, wlFree state)
    else
      let state := { (state.acquire .wlc).access .wlif with wlc := true }
      if !env.outcome .irq then (false, wlFree state)
      else
        wlAttachCfg80211 env { (state.acquire .irq).access .netDevice with wlIrq := env.irq }

/-- The unit number overflows, or `oneonly` is set and the unit is not the first. -/
def refused (env : Environment) : Bool :=
  let unit := env.wlFound + env.instanceBase
  decide (unit < 0) || (env.oneonly && decide (unit ≠ env.instanceBase))

def start : State where
  log := []
  wlDev := false
  wlifDev := false
  wlIrq := 0
  devRegisted := false
  ieee80211Ptr := false
  regsva := false
  wlc := false
  module := false
  procEntry := false
  wdev := false
  privMem := fun _ ↦ false
  eventTsk := false

/-- `wl_attach`; the result is whether it returned a driver. -/
def wlAttach (env : Environment) : Bool × State :=
  if refused env then (false, start)
  else
    let state := start.acquire .osh
    if !env.outcome .wl then (false, state.release .osh)
    else
      let state := state.acquire .wl
      if !env.outcome .wlif then (false, (state.release .wl).release .osh)
      else
        let state := state.acquire .wlif
        if !env.outcome .netDevice then (false, (state.release .wl).release .osh)
        else
          wlAttachDevice env { (state.acquire .netDevice).access .wlif with
            wlifDev := true, wlDev := true }

/-- The `wl_remove` that follows when a driver was returned. -/
def finish (env : Environment) (attached : Bool × State) : State :=
  if attached.1 then wlRemove env attached.2 else attached.2

/-- A call of `wl_attach` up to the end of its driver. -/
def lifetime (env : Environment) : State := finish env (wlAttach env)

/-! ## The ledger only grows -/

section Precedes

variable {state next : State}

/-- The ledger of `next` continues that of `state`. -/
def State.Precedes (state next : State) : Prop := state.log <+: next.log

theorem State.Precedes.refl (state : State) : state.Precedes state := List.prefix_rfl

theorem State.Precedes.trans {middle : State} (hfirst : state.Precedes middle)
    (hsecond : middle.Precedes next) : state.Precedes next :=
  List.IsPrefix.trans hfirst hsecond

theorem precedes_access (resource : Resource) (state : State) :
    state.Precedes (state.access resource) := List.prefix_append ..

theorem precedes_release (resource : Resource) (state : State) :
    state.Precedes (state.release resource) := List.prefix_append ..

theorem precedes_kfreePrivMem (state : State) (buf : PrivMem) :
    state.Precedes (kfreePrivMem state buf) := by
  refine (precedes_access .wiphy state).trans ?_
  unfold kfreePrivMem
  dsimp only
  split
  · exact precedes_release ..
  · exact .refl _

theorem precedes_wlDeinitPrivMem (state : State) : state.Precedes (wlDeinitPrivMem state) := by
  unfold wlDeinitPrivMem
  induction privMems generalizing state with
  | nil => exact .refl state
  | cons buf bufs ih => exact (precedes_kfreePrivMem state buf).trans (ih _)

theorem precedes_wlFreeWdev (state : State) : state.Precedes (wlFreeWdev state) := by
  unfold wlFreeWdev
  dsimp only
  split
  · exact precedes_access ..
  · simp [State.Precedes, State.access, State.release]

theorem precedes_wlDeinitCfg80211Priv (state : State) :
    state.Precedes (wlDeinitCfg80211Priv state) := by
  have hdestroy : state.Precedes (wlDestroyEventHandler state) := by
    unfold wlDestroyEventHandler
    dsimp only
    split
    · simp [State.Precedes, State.access, State.release]
    · exact precedes_access ..
  exact (hdestroy.trans (precedes_access ..)).trans (precedes_wlDeinitPrivMem _)

theorem precedes_wlCfg80211Detach (state : State) : state.Precedes (wlCfg80211Detach state) := by
  refine (precedes_access .netDevice state).trans ?_
  unfold wlCfg80211Detach
  dsimp only
  split
  · exact .refl _
  · exact (precedes_access ..).trans
      ((precedes_wlDeinitCfg80211Priv _).trans (precedes_wlFreeWdev _))

theorem precedes_unregisterNetdev (state : State) :
    state.Precedes (unregisterNetdev state) := by
  unfold unregisterNetdev
  split
  · simp [State.Precedes, State.access, State.release]
  · exact .refl _

theorem precedes_freeNetdev (state : State) : state.Precedes (freeNetdev state) := by
  unfold freeNetdev
  split
  · simp [State.Precedes, State.access, State.release]
  · exact .refl _

/-- What follows the detachment in `wl_free_if`. -/
theorem detach_precedes_wlFreeIf (state : State) :
    (wlCfg80211Detach (unregisterNetdev (state.access .wlif))).Precedes (wlFreeIf state) := by
  refine (precedes_access .wl _).trans ((precedes_access .wlif _).trans ?_)
  exact (precedes_freeNetdev _).trans (precedes_release ..)

theorem precedes_wlFreeIf (state : State) : state.Precedes (wlFreeIf state) :=
  (precedes_access .wlif state).trans ((precedes_unregisterNetdev _).trans
    ((precedes_wlCfg80211Detach _).trans (detach_precedes_wlFreeIf state)))

theorem precedes_freeIrq (state : State) : state.Precedes (freeIrq state) := by
  refine (precedes_access .wl state).trans ?_
  unfold freeIrq
  dsimp only
  split
  · exact .refl _
  · split
    · exact precedes_access ..
    · exact (precedes_access ..).trans (precedes_release ..)

theorem precedes_freeDev (state : State) : state.Precedes (freeDev state) := by
  unfold freeDev
  split
  · exact (precedes_access ..).trans (precedes_wlFreeIf _)
  · exact .refl _

theorem precedes_freeWlc (state : State) : state.Precedes (freeWlc state) := by
  unfold freeWlc
  dsimp only
  split
  · exact .refl _
  · split <;> split <;> simp [State.Precedes, State.release]

theorem precedes_freeRegs (state : State) : state.Precedes (freeRegs state) := by
  unfold freeRegs
  split
  · exact precedes_release ..
  · exact .refl _

/-- What follows the interface in `wl_free`. -/
theorem freeDev_precedes_wlFree (state : State) :
    (freeDev (freeIrq state)).Precedes (wlFree state) :=
  ((precedes_freeWlc _).trans (precedes_freeRegs _)).trans
    ((precedes_release .wl _).trans (precedes_release ..))

theorem precedes_wlFree (state : State) : state.Precedes (wlFree state) :=
  ((precedes_freeIrq state).trans (precedes_freeDev _)).trans (freeDev_precedes_wlFree state)

end Precedes

/-! ## A wiphy that was registered -/

section Late

variable {state next : State}

/-- A released object has been touched. -/
def Late (state : State) : Prop := ¬Quiet state.log

theorem Late.precedes (h : Late state) (hnext : state.Precedes next) : Late next := by
  obtain ⟨more, hmore⟩ := hnext
  exact fun hquiet ↦ h (Quiet.of_append (hmore ▸ hquiet))

/-- The pointers that lead from the driver to the wiphy. -/
structure SamePointers (state next : State) : Prop where
  wlDev : next.wlDev = state.wlDev
  ieee80211Ptr : next.ieee80211Ptr = state.ieee80211Ptr
  wdev : next.wdev = state.wdev

theorem SamePointers.refl (state : State) : SamePointers state state := ⟨rfl, rfl, rfl⟩

theorem SamePointers.trans {middle : State} (hfirst : SamePointers state middle)
    (hsecond : SamePointers middle next) : SamePointers state next :=
  ⟨hsecond.wlDev.trans hfirst.wlDev, hsecond.ieee80211Ptr.trans hfirst.ieee80211Ptr,
    hsecond.wdev.trans hfirst.wdev⟩

theorem samePointers_kfreePrivMem (state : State) (buf : PrivMem) :
    SamePointers state (kfreePrivMem state buf) := by
  unfold kfreePrivMem
  dsimp only
  split <;> exact ⟨rfl, rfl, rfl⟩

theorem samePointers_wlDeinitPrivMem (state : State) :
    SamePointers state (wlDeinitPrivMem state) := by
  unfold wlDeinitPrivMem
  induction privMems generalizing state with
  | nil => exact .refl state
  | cons buf bufs ih => exact (samePointers_kfreePrivMem state buf).trans (ih _)

theorem samePointers_wlDeinitCfg80211Priv (state : State) :
    SamePointers state (wlDeinitCfg80211Priv state) := by
  have hdestroy : SamePointers state ((wlDestroyEventHandler state).access .wiphy) := by
    unfold wlDestroyEventHandler
    dsimp only
    split <;> exact ⟨rfl, rfl, rfl⟩
  exact hdestroy.trans (samePointers_wlDeinitPrivMem _)

theorem samePointers_unregisterNetdev (state : State) :
    SamePointers state (unregisterNetdev state) := by
  unfold unregisterNetdev
  split <;> exact ⟨rfl, rfl, rfl⟩

theorem samePointers_freeIrq (state : State) : SamePointers state (freeIrq state) := by
  unfold freeIrq
  dsimp only
  split
  · exact ⟨rfl, rfl, rfl⟩
  · split <;> exact ⟨rfl, rfl, rfl⟩

theorem samePointers_kzallocPrivMems (env : Environment) (bufs : List PrivMem) (state : State) :
    SamePointers state (kzallocPrivMems env bufs state).2 := by
  induction bufs generalizing state with
  | nil => exact .refl state
  | cons buf bufs ih =>
    unfold kzallocPrivMems
    split
    · exact ⟨rfl, rfl, rfl⟩
    · refine SamePointers.trans ?_ (ih _)
      exact ⟨rfl, rfl, rfl⟩

theorem samePointers_wlInitPrivMem (env : Environment) (state : State) :
    SamePointers state (wlInitPrivMem env state).2 := by
  have halloc := samePointers_kzallocPrivMems env privMems state
  unfold wlInitPrivMem
  dsimp only
  split
  · exact halloc
  · exact halloc.trans (samePointers_wlDeinitPrivMem _)

/-- `wl_init_cfg80211_priv` sets `wl->wdev`, whether it succeeds or not. -/
theorem samePointers_wlInitCfg80211Priv (env : Environment) (state : State) :
    SamePointers { state with wdev := true } (wlInitCfg80211Priv env state).2 := by
  have hinit := samePointers_wlInitPrivMem env { state.access .wiphy with wdev := true }
  have hstart : SamePointers { state with wdev := true }
      { state.access .wiphy with wdev := true } := ⟨rfl, rfl, rfl⟩
  unfold wlInitCfg80211Priv wlCreateEventHandler
  dsimp only
  split
  · exact hstart.trans hinit
  · split <;> split <;> exact (hstart.trans hinit).trans ⟨rfl, rfl, rfl⟩

/-- `wl_free_wdev` writes to the private data behind `wiphy_free`. -/
theorem wlFreeWdev_late (hwdev : state.wdev = true) : Late (wlFreeWdev state) := by
  intro hquiet
  have hfree : ¬(!(state.access .wiphy).wdev) = true := by
    change ¬(!state.wdev) = true
    rw [hwdev]
    exact Bool.false_ne_true
  unfold wlFreeWdev at hquiet
  dsimp only at hquiet
  rw [if_neg hfree] at hquiet
  refine (quiet_concat.mp hquiet).2 ?_
  simp [State.access, State.release, Event.resource]

/-- The driver and the net device lead to the private data. -/
structure Attached (state : State) : Prop where
  wlDev : state.wlDev = true
  ieee80211Ptr : state.ieee80211Ptr = true
  wdev : state.wdev = true

theorem Attached.congr (h : Attached state) (hnext : SamePointers state next) : Attached next :=
  ⟨hnext.wlDev.trans h.wlDev, hnext.ieee80211Ptr.trans h.ieee80211Ptr, hnext.wdev.trans h.wdev⟩

theorem Attached.wlCfg80211Detach_late (h : Attached state) : Late (wlCfg80211Detach state) := by
  have hptr : ¬(!(state.access .netDevice).ieee80211Ptr) = true := by
    change ¬(!state.ieee80211Ptr) = true
    rw [h.ieee80211Ptr]
    exact Bool.false_ne_true
  unfold wlCfg80211Detach
  dsimp only
  rw [if_neg hptr]
  refine wlFreeWdev_late ?_
  exact (samePointers_wlDeinitCfg80211Priv _).wdev.trans h.wdev

theorem Attached.wlFree_late (h : Attached state) : Late (wlFree state) := by
  have hirq : Attached (freeIrq state) := h.congr (samePointers_freeIrq state)
  have hdetach : Late (wlFreeIf ((freeIrq state).access .netDevice)) := by
    have haccess : Attached (((freeIrq state).access .netDevice).access .wlif) :=
      ⟨hirq.wlDev, hirq.ieee80211Ptr, hirq.wdev⟩
    have hif := haccess.congr (samePointers_unregisterNetdev _)
    exact hif.wlCfg80211Detach_late.precedes (detach_precedes_wlFreeIf _)
  have hdev : Late (freeDev (freeIrq state)) := by
    unfold freeDev
    rw [if_pos hirq.wlDev]
    exact hdetach
  exact hdev.precedes (freeDev_precedes_wlFree state)

end Late

/-! ## A failure before the wiphy is registered -/

section Ready

variable {state next : State} {held : Finset Resource}

/-- What `fail` finds as long as cfg80211 is not attached: the ledger holds what the pointers of
the driver say. Only the interrupt may be held without being known. -/
structure Ready (state : State) (held : Finset Resource) : Prop where
  holds : Holds state.log held
  wlDev : state.wlDev = true
  wlifDev : state.wlifDev = true
  devRegisted : state.devRegisted = false
  ieee80211Ptr : state.ieee80211Ptr = false
  module : state.module = false
  procEntry : state.procEntry = false
  always : {.osh, .wl, .wlif, .netDevice} ⊆ held
  regs : .regs ∈ held ↔ state.regsva = true
  wlc : .wlc ∈ held ↔ state.wlc = true
  irq : state.wlIrq ≠ 0 → .irq ∈ held
  only : held ⊆ {.osh, .wl, .wlif, .netDevice, .regs, .wlc, .irq}

theorem freeIrq_spec (h : Holds state.log held) (hdev : state.wlDev = true) (hwl : .wl ∈ held)
    (hnet : .netDevice ∈ held) (hirq : state.wlIrq ≠ 0 → .irq ∈ held) :
    ∃ log, freeIrq state = { state with log := log } ∧
      Holds log (if state.wlIrq = 0 then held else held.erase .irq) := by
  have haccess := (h.access hwl).access hnet
  have hfound : ¬(!(state.access .wl).wlDev) = true := by
    change ¬(!state.wlDev) = true
    rw [hdev]
    exact Bool.false_ne_true
  unfold freeIrq
  dsimp only
  rw [if_neg hfound]
  by_cases hzero : state.wlIrq = 0
  · rw [if_pos hzero]
    exact ⟨_, if_pos hzero, haccess⟩
  · rw [if_neg hzero]
    exact ⟨_, if_neg hzero, haccess.release (hirq hzero)⟩

/-- The interface of a driver without cfg80211. -/
theorem freeDev_spec (h : Holds state.log held) (hdev : state.wlDev = true)
    (hwlifDev : state.wlifDev = true) (hregisted : state.devRegisted = false)
    (hptr : state.ieee80211Ptr = false) (hwl : .wl ∈ held) (hwlif : .wlif ∈ held)
    (hnet : .netDevice ∈ held) :
    ∃ log, freeDev state = { state with log := log, wlDev := false, wlifDev := false } ∧
      Holds log ((held.erase .netDevice).erase .wlif) := by
  obtain ⟨log, _, _, irq, _, _, regsva, wlc, module, procEntry, wdev, privMem, eventTsk⟩ := state
  subst hdev hwlifDev hregisted hptr
  refine ⟨_, rfl, ?_⟩
  have hdetached := (((h.access hnet).access hwlif).access hnet).access hwl
  have hwlif' : .wlif ∈ held.erase .netDevice := Finset.mem_erase.mpr ⟨by decide, hwlif⟩
  exact (((hdetached.access hwlif).release hnet).access hwlif').release hwlif'

theorem freeWlc_spec (h : Holds state.log held) (hmodule : state.module = false)
    (hproc : state.procEntry = false) (hwlc : .wlc ∈ held ↔ state.wlc = true) :
    ∃ log, freeWlc state = { state with log := log, wlc := false } ∧
      Holds log (held.erase .wlc) := by
  obtain ⟨log, _, _, irq, _, _, regsva, wlc, module, procEntry, wdev, privMem, eventTsk⟩ := state
  subst hmodule hproc
  cases wlc with
  | true => exact ⟨_, rfl, h.release (hwlc.mpr rfl)⟩
  | false =>
    rw [Finset.erase_eq_of_notMem (mt hwlc.mp Bool.false_ne_true)]
    exact ⟨_, rfl, h⟩

theorem freeRegs_spec (h : Holds state.log held) (hregs : .regs ∈ held ↔ state.regsva = true) :
    ∃ log, freeRegs state = { state with log := log, regsva := false } ∧
      Holds log (held.erase .regs) := by
  obtain ⟨log, _, _, irq, _, _, regsva, wlc, module, procEntry, wdev, privMem, eventTsk⟩ := state
  cases regsva with
  | true => exact ⟨_, rfl, h.release (hregs.mpr rfl)⟩
  | false =>
    rw [Finset.erase_eq_of_notMem (mt hregs.mp Bool.false_ne_true)]
    exact ⟨_, rfl, h⟩

/-- What `wl_free` releases in any case leaves at most the interrupt. -/
theorem erase_all_eq (h : held ⊆ {.osh, .wl, .wlif, .netDevice, .regs, .wlc, .irq}) :
    (((((held.erase .netDevice).erase .wlif).erase .wlc).erase .regs).erase .wl).erase .osh =
      held ∩ {.irq} := by
  ext resource
  have honly : resource ∈ held → resource = .osh ∨ resource = .wl ∨ resource = .wlif ∨
      resource = .netDevice ∨ resource = .regs ∨ resource = .wlc ∨ resource = .irq := by
    simpa only [Finset.mem_insert, Finset.mem_singleton] using @h resource
  simp only [Finset.mem_erase, Finset.mem_inter, Finset.mem_singleton]
  constructor
  · rintro ⟨hosh, hwl, hregs, hwlc, hwlif, hnet, hheld⟩
    simp only [hosh, hwl, hregs, hwlc, hwlif, hnet, false_or] at honly
    exact ⟨hheld, honly hheld⟩
  · rintro ⟨hheld, rfl⟩
    exact ⟨by decide, by decide, by decide, by decide, by decide, by decide, hheld⟩

/-- `wl_free` releases all that is held, but not the interrupt with number zero. -/
theorem Ready.wlFree_holds (h : Ready state held) :
    Holds (wlFree state).log (if state.wlIrq = 0 then held ∩ {.irq} else ∅) := by
  have hosh : .osh ∈ held := h.always (by decide)
  have hwl : .wl ∈ held := h.always (by decide)
  have hwlif : .wlif ∈ held := h.always (by decide)
  have hnet : .netDevice ∈ held := h.always (by decide)
  obtain ⟨log, hirq, hholds⟩ := freeIrq_spec h.holds h.wlDev hwl hnet h.irq
  generalize hrest : (if state.wlIrq = 0 then held else held.erase .irq) = rest at hholds
  have hmem : ∀ resource, resource ≠ .irq → (resource ∈ rest ↔ resource ∈ held) := by
    intro resource hne
    rw [← hrest]
    split
    · exact Iff.rfl
    · exact Finset.mem_erase.trans (and_iff_right hne)
  obtain ⟨log, hdev, hholds⟩ := @freeDev_spec { state with log := log } rest hholds h.wlDev
    h.wlifDev h.devRegisted h.ieee80211Ptr ((hmem _ (by decide)).mpr hwl)
    ((hmem _ (by decide)).mpr hwlif) ((hmem _ (by decide)).mpr hnet)
  have hwlc : .wlc ∈ (rest.erase .netDevice).erase .wlif ↔ state.wlc = true := by
    simp [hmem, h.wlc]
  obtain ⟨log, hfreeWlc, hholds⟩ := @freeWlc_spec
    { state with log := log, wlDev := false, wlifDev := false } _ hholds h.module h.procEntry hwlc
  have hregs : .regs ∈ ((rest.erase .netDevice).erase .wlif).erase .wlc ↔ state.regsva = true := by
    simp [hmem, h.regs]
  obtain ⟨log, hfreeRegs, hholds⟩ := @freeRegs_spec
    { state with log := log, wlDev := false, wlifDev := false, wlc := false } _ hholds hregs
  have hwl' := @Holds.release _ _ _ .wl _ hholds (by simp [hmem, hwl])
  have hosh' := @Holds.release _ _ _ .osh _ hwl' (by simp [hmem, hosh])
  have hlog : (wlFree state).log = log ++ [.release .wl] ++ [.release .osh] := by
    rw [wlFree, hirq, hdev, hfreeWlc, hfreeRegs]
    rfl
  have hleft : rest ∩ {.irq} = if state.wlIrq = 0 then held ∩ {.irq} else ∅ := by
    rw [← hrest]
    split
    · rfl
    · exact Finset.inter_singleton_of_notMem (Finset.notMem_erase .irq held)
  have hsubset : rest ⊆ held := by
    rw [← hrest]
    split
    · exact Finset.Subset.refl held
    · exact Finset.erase_subset .irq held
  rw [hlog, ← hleft, ← erase_all_eq (hsubset.trans h.only)]
  exact hosh'

/-- A failure that finds cfg80211 not attached is undone, unless the interrupt has number zero. -/
theorem Ready.accounted_iff (h : Ready state held) :
    Accounted (wlFree state).log ↔ (.irq ∈ held → state.wlIrq ≠ 0) := by
  have hholds := h.wlFree_holds
  constructor
  · intro haccounted hmem hzero
    rw [if_pos hzero] at hholds
    have hleft : .irq ∈ held ∩ {.irq} := Finset.mem_inter.mpr ⟨hmem, Finset.mem_singleton_self _⟩
    exact hholds.not_accounted hleft haccounted
  · intro hirq
    have hnone : (if state.wlIrq = 0 then held ∩ {.irq} else ∅) = (∅ : Finset Resource) := by
      split
      · next hzero =>
        exact Finset.inter_singleton_of_notMem fun hmem ↦ hirq hmem hzero
      · rfl
    rw [hnone] at hholds
    exact hholds.accounted

/-- Before the interrupt is requested every failure is undone. -/
theorem Ready.accounted (h : Ready state held) (hirq : .irq ∉ held) :
    Accounted (wlFree state).log :=
  h.accounted_iff.mpr fun hmem ↦ absurd hmem hirq

end Ready

/-! ## The acquisitions -/

section Acquisitions

variable {env : Environment} {state next : State} {held : Finset Resource}

/-- So far resources were only acquired. -/
structure Acquiring (state : State) : Prop where
  osh : .acquire .osh ∈ state.log
  unreleased : ∀ resource, .release resource ∉ state.log

theorem Acquiring.append {event : Event Resource} (h : Acquiring state)
    (hlog : next.log = state.log ++ [event]) (hevent : ∀ resource, event ≠ .release resource) :
    Acquiring next := by
  constructor
  · rw [hlog]
    exact List.mem_append_left _ h.osh
  · intro resource hmem
    rw [hlog] at hmem
    rcases List.mem_append.mp hmem with hmem | hmem
    · exact h.unreleased resource hmem
    · exact hevent resource (List.mem_singleton.mp hmem).symm

theorem Acquiring.acquire (h : Acquiring state) (resource : Resource) :
    Acquiring (state.acquire resource) :=
  h.append rfl fun _ heq ↦ by cases heq

theorem Acquiring.access (h : Acquiring state) (resource : Resource) :
    Acquiring (state.access resource) :=
  h.append rfl fun _ heq ↦ by cases heq

/-- A driver that is left like this keeps everything. -/
theorem Acquiring.not_accounted (h : Acquiring state) : ¬Accounted state.log := by
  intro haccounted
  have hone := haccounted.released .osh h.osh
  rw [List.count_eq_zero_of_not_mem (h.unreleased .osh)] at hone
  exact Nat.zero_ne_one hone

theorem Late.not_accounted (h : Late state) : ¬Accounted state.log :=
  fun haccounted ↦ h haccounted.quiet

theorem Acquiring.kzallocPrivMems {bufs : List PrivMem} (h : Acquiring state)
    (hallocated : (kzallocPrivMems env bufs state).1 = true) :
    Acquiring (kzallocPrivMems env bufs state).2 := by
  induction bufs generalizing state with
  | nil => exact h
  | cons buf bufs ih =>
    unfold Attach.kzallocPrivMems at hallocated ⊢
    split at hallocated
    · cases hallocated
    · next houtcome =>
      rw [if_neg houtcome]
      refine ih ?_ hallocated
      exact ⟨((h.acquire _).access .wiphy).osh, ((h.acquire _).access .wiphy).unreleased⟩

theorem Acquiring.wlInitCfg80211Priv (h : Acquiring state)
    (hinitialized : (wlInitCfg80211Priv env state).1 = true) :
    Acquiring (wlInitCfg80211Priv env state).2 := by
  have hstart : Acquiring { state.access .wiphy with wdev := true } :=
    ⟨(h.access .wiphy).osh, (h.access .wiphy).unreleased⟩
  have hmem := @Acquiring.kzallocPrivMems env _ privMems hstart
  revert hinitialized
  unfold Attach.wlInitCfg80211Priv wlInitPrivMem wlCreateEventHandler
  cases halloc : Attach.kzallocPrivMems env privMems { state.access .wiphy with wdev := true } with
  | mk allocated after =>
    rw [halloc] at hmem
    simp only [halloc]
    cases allocated with
    | false => exact (nomatch ·)
    | true =>
      have hafter : Acquiring after := hmem rfl
      cases hthread : env.outcome .eventThread with
      | false => exact (nomatch ·)
      | true =>
        intro _
        have hcreated := ((hafter.acquire .eventThread).access .wiphy).access .wiphy
        exact ⟨hcreated.osh, hcreated.unreleased⟩

/-- `wl_alloc_wdev` has registered a wiphy. -/
def AllocatesWdev (env : Environment) : Prop :=
  env.outcome .wdev = true ∧ env.outcome .wiphy = true ∧ env.outcome .wiphyRegistration = true

theorem wlAllocWdev_of_allocates (h : AllocatesWdev env) (state : State) :
    wlAllocWdev env state = (true, ((((state.acquire .wdev).acquire .wiphy).access .wdev).access
      .wiphy).acquire .wiphyRegistration) := by
  simp [wlAllocWdev, h.1, h.2.1, h.2.2]

/-- Otherwise it has undone what it did. -/
theorem wlAllocWdev_of_not_allocates (h : ¬AllocatesWdev env) (hholds : Holds state.log held)
    (hnew : ∀ resource, .release resource ∉ state.log) (hwdev : .wdev ∉ held)
    (hwiphy : .wiphy ∉ held) :
    ∃ log, wlAllocWdev env state = (false, { state with log := log }) ∧ Holds log held := by
  have hacquired : Holds (state.acquire .wdev).log (insert .wdev held) :=
    hholds.acquire (hnew .wdev)
  have hmem : .wdev ∈ insert Resource.wdev held := Finset.mem_insert_self ..
  unfold wlAllocWdev
  cases houtcome : env.outcome .wdev with
  | false => exact ⟨state.log, rfl, hholds⟩
  | true =>
    cases houtcome' : env.outcome .wiphy with
    | false => exact ⟨_, rfl, (hacquired.access hmem).release_insert hwdev⟩
    | true =>
      have hregistration : env.outcome .wiphyRegistration = false := by
        by_contra hregistered
        exact h ⟨houtcome, houtcome', Bool.not_eq_false _ ▸ hregistered⟩
      have hnew' : .release .wiphy ∉ (state.acquire .wdev).log := by
        simp [State.acquire, hnew]
      have hboth : Holds _ (insert Resource.wiphy (insert .wdev held)) := hacquired.acquire hnew'
      have hmemWdev : .wdev ∈ insert Resource.wiphy (insert .wdev held) :=
        Finset.mem_insert_of_mem hmem
      have hmemWiphy : .wiphy ∈ insert Resource.wiphy (insert .wdev held) :=
        Finset.mem_insert_self ..
      have hnotWiphy : .wiphy ∉ insert Resource.wdev held := by simp [hwiphy]
      have haccessed := ((hboth.access hmemWdev).access hmemWiphy).access hmemWdev
      rw [hregistration]
      exact ⟨_, rfl, (haccessed.release_insert hnotWiphy).release_insert hwdev⟩

/-- When the wiphy was registered, a failure of `wl_cfg80211_attach` has come too late, and its
success leaves the pointers. -/
theorem wlCfg80211Attach_of_allocates (h : AllocatesWdev env) (hdev : state.wlDev = true)
    (hacquiring : Acquiring state) :
    ((wlCfg80211Attach env state).1 = false → Late (wlCfg80211Attach env state).2) ∧
      ((wlCfg80211Attach env state).1 = true →
        Attached (wlCfg80211Attach env state).2 ∧ Acquiring (wlCfg80211Attach env state).2) := by
  unfold wlCfg80211Attach
  rw [wlAllocWdev_of_allocates h]
  simp only [Bool.not_true, Bool.false_eq_true, if_false]
  generalize hstart : State.access .wdev _ = start
  have hacquiring' : Acquiring start := by
    have hallocated := (((hacquiring.acquire .wdev).acquire .wiphy).access .wdev).access .wiphy
    have hregistered := ((hallocated.acquire .wiphyRegistration).access .wdev).access .netDevice
    rw [← hstart]
    exact ⟨(hregistered.access .wdev).osh, (hregistered.access .wdev).unreleased⟩
  have hpointers := samePointers_wlInitCfg80211Priv env start
  have hattached : Attached (wlInitCfg80211Priv env start).2 := by
    refine ⟨hpointers.wlDev.trans ?_, hpointers.ieee80211Ptr.trans ?_, hpointers.wdev⟩
    · rw [← hstart]
      exact hdev
    · rw [← hstart]
      rfl
  cases hinit : (wlInitCfg80211Priv env start).1 with
  | false => exact ⟨fun _ ↦ wlFreeWdev_late hattached.wdev, (nomatch ·)⟩
  | true =>
    have hdone := (hacquiring'.wlInitCfg80211Priv hinit).access .wiphy
    exact ⟨(nomatch ·), fun _ ↦ ⟨hattached.congr ⟨rfl, rfl, rfl⟩, hdone⟩⟩

theorem wlCfg80211Attach_of_not_allocates (h : ¬AllocatesWdev env) (hholds : Holds state.log held)
    (hnew : ∀ resource, .release resource ∉ state.log) (hwdev : .wdev ∉ held)
    (hwiphy : .wiphy ∉ held) :
    ∃ log, wlCfg80211Attach env state = (false, { state with log := log }) ∧ Holds log held := by
  obtain ⟨log, halloc, hlog⟩ := wlAllocWdev_of_not_allocates h hholds hnew hwdev hwiphy
  exact ⟨log, by simp [wlCfg80211Attach, halloc], hlog⟩

/-- A driver that is returned is kept or removed too late. -/
theorem Attached.wlRemove_not_accounted (h : Attached state) (hacquiring : Acquiring state) :
    ¬Accounted (wlRemove env state).log := by
  unfold wlRemove
  split
  · exact hacquiring.not_accounted
  · refine Late.not_accounted (Attached.wlFree_late ?_)
    exact ⟨h.wlDev, h.ieee80211Ptr, h.wdev⟩

theorem Attached.register_not_accounted (h : Attached state) (hacquiring : Acquiring state) :
    ¬Accounted (finish env (wlAttachRegister env state)).log := by
  unfold wlAttachRegister
  have hregistered := (hacquiring.acquire .netdevRegistration).access .wlif
  have hmodule := hregistered.acquire .module
  cases env.outcome .netdevRegistration with
  | false => exact h.wlFree_late.not_accounted
  | true =>
    cases env.outcome .module with
    | false =>
      refine Late.not_accounted (Attached.wlFree_late ?_)
      exact ⟨h.wlDev, h.ieee80211Ptr, h.wdev⟩
    | true =>
      have hproc := hmodule.acquire .procEntry
      cases env.outcome .procEntry with
      | false =>
        refine Attached.wlRemove_not_accounted (h.congr ⟨rfl, rfl, rfl⟩) ?_
        exact ⟨hmodule.osh, hmodule.unreleased⟩
      | true =>
        refine Attached.wlRemove_not_accounted (h.congr ⟨rfl, rfl, rfl⟩) ?_
        exact ⟨hproc.osh, hproc.unreleased⟩

/-- From `wl_cfg80211_attach` on, only failures up to the registration of the wiphy are undone. -/
theorem Ready.cfg80211_accounted_iff (h : Ready state held) (hacquiring : Acquiring state)
    (hirq : .irq ∈ held) :
    Accounted (finish env (wlAttachCfg80211 env state)).log ↔
      state.wlIrq ≠ 0 ∧ ¬(hasParentdev env.bustype = true ∧ AllocatesWdev env) := by
  have hfree : Accounted (wlFree state).log ↔ state.wlIrq ≠ 0 := by
    calc
      Accounted (wlFree state).log ↔ (.irq ∈ held → state.wlIrq ≠ 0) := h.accounted_iff
      _ ↔ state.wlIrq ≠ 0 := forall_prop_of_true hirq
  unfold wlAttachCfg80211
  cases hparent : hasParentdev env.bustype with
  | false => exact hfree.trans (iff_self_and.mpr fun _ ↦ (nomatch ·.1))
  | true =>
    by_cases hallocates : AllocatesWdev env
    · obtain ⟨hfailed, hattached⟩ := wlCfg80211Attach_of_allocates hallocates h.wlDev hacquiring
      refine iff_of_false ?_ fun hnot ↦ hnot.2 ⟨rfl, hallocates⟩
      generalize wlCfg80211Attach env state = result at hfailed hattached ⊢
      obtain ⟨attached, after⟩ := result
      cases attached with
      | false => exact ((hfailed rfl).precedes (precedes_wlFree after)).not_accounted
      | true => exact (hattached rfl).1.register_not_accounted (hattached rfl).2
    · have hwdev : .wdev ∉ held := fun hmem ↦ absurd (h.only hmem) (by decide)
      have hwiphy : .wiphy ∉ held := fun hmem ↦ absurd (h.only hmem) (by decide)
      obtain ⟨log, hattach, hlog⟩ := wlCfg80211Attach_of_not_allocates hallocates h.holds
        hacquiring.unreleased hwdev hwiphy
      have hready : Ready { state with log := log } held := { h with holds := hlog }
      rw [hattach]
      calc
        Accounted (wlFree { state with log := log }).log ↔ (.irq ∈ held → state.wlIrq ≠ 0) :=
          hready.accounted_iff
        _ ↔ state.wlIrq ≠ 0 := forall_prop_of_true hirq
        _ ↔ state.wlIrq ≠ 0 ∧ ¬(true = true ∧ AllocatesWdev env) :=
          iff_self_and.mpr fun _ hboth ↦ hallocates hboth.2

/-- What the driver has when it has its interface. -/
abbrev interface : Finset Resource := {.netDevice, .wlif, .wl, .osh}

theorem Ready.acquireRegs (h : Ready state interface) (hacquiring : Acquiring state)
    (hzero : state.wlIrq = 0) :
    Ready { state.acquire .regs with regsva := true } (insert .regs interface) :=
  { h with
    holds := h.holds.acquire (hacquiring.unreleased .regs)
    always := by decide
    regs := iff_of_true (by decide) rfl
    wlc := iff_of_false (by decide) (mt h.wlc.mpr (by decide))
    irq := fun hne ↦ absurd hzero hne
    only := by decide }

theorem Ready.acquireWlc (h : Ready state (insert .regs interface))
    (hacquiring : Acquiring state) (hzero : state.wlIrq = 0) :
    Ready { (state.acquire .wlc).access .wlif with wlc := true }
      (insert .wlc (insert .regs interface)) :=
  { h with
    holds := (h.holds.acquire (hacquiring.unreleased .wlc)).access (by decide)
    always := by decide
    regs := iff_of_true (by decide) (h.regs.mp (by decide))
    wlc := iff_of_true (by decide) rfl
    irq := fun hne ↦ absurd hzero hne
    only := by decide }

theorem Ready.acquireIrq (h : Ready state (insert .wlc (insert .regs interface)))
    (hacquiring : Acquiring state) (irq : ℕ) :
    Ready { (state.acquire .irq).access .netDevice with wlIrq := irq }
      (insert .irq (insert .wlc (insert .regs interface))) :=
  { h with
    holds := (h.holds.acquire (hacquiring.unreleased .irq)).access (by decide)
    always := by decide
    regs := iff_of_true (by decide) (h.regs.mp (by decide))
    wlc := iff_of_true (by decide) (h.wlc.mp (by decide))
    irq := fun _ ↦ by decide
    only := by decide }

/-- From `ioremap` on, failures up to the registration of the wiphy are undone, unless the
interrupt has number zero. -/
theorem Ready.device_accounted_iff (h : Ready state interface) (hacquiring : Acquiring state)
    (hzero : state.wlIrq = 0) :
    Accounted (finish env (wlAttachDevice env state)).log ↔
      ((env.outcome .regs = true ∧ env.outcome .wlc = true ∧ env.outcome .irq = true) →
        env.irq ≠ 0 ∧ ¬(hasParentdev env.bustype = true ∧ AllocatesWdev env)) := by
  have hregs := h.acquireRegs hacquiring hzero
  have hacquiringRegs : Acquiring { state.acquire .regs with regsva := true } :=
    ⟨(hacquiring.acquire .regs).osh, (hacquiring.acquire .regs).unreleased⟩
  have hwlc := hregs.acquireWlc hacquiringRegs hzero
  have hlogWlc := (hacquiringRegs.acquire .wlc).access .wlif
  have hirq := hwlc.acquireIrq ⟨hlogWlc.osh, hlogWlc.unreleased⟩ env.irq
  have hlogIrq := (hlogWlc.acquire .irq).access .netDevice
  unfold wlAttachDevice
  cases env.outcome .regs with
  | false => exact iff_of_true (h.accounted (by decide)) (nomatch ·.1)
  | true =>
    cases env.outcome .wlc with
    | false => exact iff_of_true (hregs.accounted (by decide)) (nomatch ·.2.1)
    | true =>
      cases env.outcome .irq with
      | false => exact iff_of_true (hwlc.accounted (by decide)) (nomatch ·.2.2)
      | true =>
        have hcfg80211 := @Ready.cfg80211_accounted_iff env _ _ hirq
          ⟨hlogIrq.osh, hlogIrq.unreleased⟩ (by decide)
        exact hcfg80211.trans ⟨fun hboth _ ↦ hboth, fun hboth ↦ hboth ⟨rfl, rfl, rfl⟩⟩

end Acquisitions

/-! ## The ledger of a driver -/

/-- `wl_attach` gets as far as `alloc_netdev`. -/
def ReachesNetDevice (env : Environment) : Prop :=
  refused env = false ∧ env.outcome .wl = true ∧ env.outcome .wlif = true

/-- It gets the interrupt. -/
def GetsIrq (env : Environment) : Prop :=
  (ReachesNetDevice env ∧ env.outcome .netDevice = true) ∧
    env.outcome .regs = true ∧ env.outcome .wlc = true ∧ env.outcome .irq = true

/-- It registers the wiphy. -/
def RegistersWiphy (env : Environment) : Prop :=
  GetsIrq env ∧ hasParentdev env.bustype = true ∧ AllocatesWdev env

section FirstAcquisitions

variable {env : Environment}

theorem start_holds_osh : Holds (start.acquire .osh).log {.osh} :=
  holds_nil.acquire List.not_mem_nil

theorem start_holds_wl : Holds ((start.acquire .osh).acquire .wl).log {.wl, .osh} :=
  start_holds_osh.acquire (by decide)

theorem start_holds_wlif :
    Holds (((start.acquire .osh).acquire .wl).acquire .wlif).log {.wlif, .wl, .osh} :=
  start_holds_wl.acquire (by decide)

/-- What fails before `alloc_netdev` is undone on the spot. -/
theorem accounted_of_not_reaches (h : ¬ReachesNetDevice env) : Accounted (lifetime env).log := by
  unfold lifetime wlAttach
  cases hrefused : refused env with
  | true => exact holds_nil.accounted
  | false =>
    cases hwl : env.outcome .wl with
    | false => exact (start_holds_osh.release_insert (Finset.notMem_empty _)).accounted
    | true =>
      cases hwlif : env.outcome .wlif with
      | false =>
        have hreleased := start_holds_wl.release_insert (by decide)
        exact (hreleased.release_insert (Finset.notMem_empty _)).accounted
      | true => exact absurd ⟨hrefused, hwl, hwlif⟩ h

/-- When `alloc_netdev` fails, the interface is lost. -/
theorem not_accounted_of_no_netDevice (h : ReachesNetDevice env)
    (hnet : env.outcome .netDevice = false) : ¬Accounted (lifetime env).log := by
  obtain ⟨hrefused, hwl, hwlif⟩ := h
  have hreleased := @Holds.release _ _ _ .wl _ start_holds_wlif (by decide)
  have hleft := @Holds.release _ _ _ .osh _ hreleased (by decide)
  unfold lifetime wlAttach
  rw [hrefused, hwl, hwlif, hnet]
  exact @Holds.not_accounted _ _ _ .wlif _ hleft (by decide)

/-- The driver has its interface. -/
theorem start_ready :
    Ready { ((((start.acquire .osh).acquire .wl).acquire .wlif).acquire .netDevice).access .wlif
      with wlifDev := true, wlDev := true } interface where
  holds := (start_holds_wlif.acquire (by decide)).access (by decide)
  wlDev := rfl
  wlifDev := rfl
  devRegisted := rfl
  ieee80211Ptr := rfl
  module := rfl
  procEntry := rfl
  always := by decide
  regs := iff_of_false (by decide) (by decide)
  wlc := iff_of_false (by decide) (by decide)
  irq hne := absurd rfl hne
  only := by decide

theorem accounted_iff_of_netDevice (h : ReachesNetDevice env)
    (hnet : env.outcome .netDevice = true) :
    Accounted (lifetime env).log ↔
      ((env.outcome .regs = true ∧ env.outcome .wlc = true ∧ env.outcome .irq = true) →
        env.irq ≠ 0 ∧ ¬(hasParentdev env.bustype = true ∧ AllocatesWdev env)) := by
  obtain ⟨hrefused, hwl, hwlif⟩ := h
  have hacquiring : Acquiring (start.acquire .osh) :=
    ⟨List.mem_singleton_self _, fun _ hmem ↦ nomatch List.mem_singleton.mp hmem⟩
  have hlog := (((hacquiring.acquire .wl).acquire .wlif).acquire .netDevice).access .wlif
  unfold lifetime wlAttach
  rw [hrefused, hwl, hwlif, hnet]
  exact start_ready.device_accounted_iff ⟨hlog.osh, hlog.unreleased⟩ rfl

end FirstAcquisitions

/-- Everything is released exactly once and nothing is touched afterwards if and only if
`alloc_netdev` does not fail, an interrupt that was requested has a number, and the wiphy is not
registered. -/
theorem attach_ledger_accounted_iff (env : Environment) :
    Accounted (lifetime env).log ↔
      (ReachesNetDevice env → env.outcome .netDevice = true) ∧
        (GetsIrq env → env.irq ≠ 0) ∧ ¬RegistersWiphy env := by
  by_cases hreaches : ReachesNetDevice env
  · cases hnet : env.outcome .netDevice with
    | false =>
      exact iff_of_false (not_accounted_of_no_netDevice hreaches hnet)
        fun hall ↦ Bool.false_ne_true (hall.1 hreaches)
    | true =>
      refine (accounted_iff_of_netDevice hreaches hnet).trans ?_
      constructor
      · intro hdevice
        exact ⟨fun _ ↦ rfl, fun hirq ↦ (hdevice hirq.2).1,
          fun hwiphy ↦ (hdevice hwiphy.1.2).2 hwiphy.2⟩
      · rintro ⟨_, hirq, hwiphy⟩ hgets
        have hgets' : GetsIrq env := ⟨⟨hreaches, hnet⟩, hgets⟩
        exact ⟨hirq hgets', fun hallocates ↦ hwiphy ⟨hgets', hallocates⟩⟩
  · exact iff_of_true (accounted_of_not_reaches hreaches)
      ⟨fun h ↦ absurd h hreaches, fun h ↦ absurd h.1.1 hreaches, fun h ↦ hreaches h.1.1.1⟩

/-- A PCI device of which only the given acquisition fails, if any. -/
def allBut (failing : Option Resource) : Environment where
  outcome resource := decide (failing ≠ some resource)
  chipmatch := true
  wlFound := 0
  instanceBase := 0
  oneonly := false
  bustype := .pci
  irq := 17

/-- Without a failure `wl_remove` writes to the private data of a released wiphy; without an event
thread `wl_free` follows `dev->ieee80211_ptr` to a released `wdev`; without a net device the
interface is lost. -/
theorem attach_ledger_not_accounted :
    [.release .wiphy, .access .wiphy].Sublist (lifetime (allBut none)).log ∧
      ¬Accounted (lifetime (allBut none)).log ∧
      [.release .wdev, .access .wdev].Sublist (lifetime (allBut (some .eventThread))).log ∧
      ¬Accounted (lifetime (allBut (some .eventThread))).log ∧
      .acquire .wlif ∈ (lifetime (allBut (some .netDevice))).log ∧
      .release .wlif ∉ (lifetime (allBut (some .netDevice))).log ∧
      ¬Accounted (lifetime (allBut (some .netDevice))).log := by
  have hwiphy : [.release .wiphy, .access .wiphy].Sublist (lifetime (allBut none)).log := by decide
  have hwdev : [.release .wdev, .access .wdev].Sublist
      (lifetime (allBut (some .eventThread))).log := by decide
  refine ⟨hwiphy, fun h ↦ h.quiet.ne_of_sublist hwiphy rfl, hwdev,
    fun h ↦ h.quiet.ne_of_sublist hwdev rfl, by decide, by decide, fun h ↦ ?_⟩
  have hwlif := h.released .wlif (by decide)
  exact absurd hwlif (by decide)

end BroadcomWl.Linux.Attach
