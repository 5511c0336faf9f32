import BroadcomWl.Linux.Attach
import BroadcomWl.Systems.Machine
import BroadcomWl.Systems.Threads

/-!
# Devices that come and go

The driver core calls `wl_pci_probe` for a device without a driver and `wl_remove` for one that
has been probed with success. A probe enables the device and maps its second region before it
calls `wl_attach`; the module counts the attached devices in `wl_found` and never counts down.

A run consists of probes and removals of any number of devices, each with its own failures. The
module says which unit numbers the devices have, and after which runs every device that has no
driver is disabled and unmapped again.
-/

namespace BroadcomWl.Linux.Devices

open BroadcomWl.Memory.Ledger BroadcomWl.Systems BroadcomWl.Linux.Attach

def enodev : ℤ := 19

def pciVendorIdBroadcom : UInt16 := 0x14e4

/-- The module parameters. -/
structure Params where
  instanceBase : Int32
  oneonly : Bool

/-- What identifies a `struct pci_dev`. -/
structure PciDev where
  vendor : UInt16
  device : UInt16
deriving DecidableEq, Repr

/-- `wl_info_t`, as far as it is used. -/
structure WlInfo where
  unit : Int32
  bar1Addr : Bool
deriving DecidableEq, Repr

/-- What the PCI core keeps for a device: how often it is enabled, how often its second region is
mapped, a word of its configuration, and the driver's data. -/
structure Slot where
  enableCnt : ℕ
  bar1Maps : ℕ
  master : Bool
  config40 : UInt32
  drvdata : Option WlInfo

/-- What a probe asks of the kernel: the error of `pci_enable_device`, whether `ioremap` of the
second region returned an address, and what `wl_attach` asks. -/
structure Answers where
  enableErr : ℤ
  bar1 : Bool
  outcome : Resource → Bool
  irq : ℕ

/-- The devices that `wl_pci_probe` takes. -/
def supported (pdev : PciDev) : Bool :=
  !(pdev.vendor != pciVendorIdBroadcom ||
    (pdev.device &&& 0xff00 != 0x4300 && pdev.device != 0x576 &&
      pdev.device &&& 0xff00 != 0x4700 && (pdev.device < 43000 || 43999 < pdev.device)))

/-- The call of `wl_attach`. -/
def environment (params : Params) (wlFound : Int32) (answers : Answers) : Environment where
  outcome := answers.outcome
  chipmatch := true
  wlFound := wlFound
  instanceBase := params.instanceBase
  oneonly := params.oneonly
  bustype := .pci
  irq := answers.irq

/-- `wl_attach` reaches the assignment of `wl->bar1_addr`, which follows the mapping of the
registers. -/
def storesBar1 (env : Environment) : Bool :=
  !refused env && env.outcome .wl && env.outcome .wlif && env.outcome .netDevice &&
    env.outcome .regs

/-- `wl_pci_probe`: what it returns, `wl_found`, and the device. -/
def wlPciProbe (params : Params) (pdev : PciDev) (answers : Answers) (wlFound : Int32)
    (slot : Slot) : ℤ × Int32 × Slot :=
  if !supported pdev then (-enodev, wlFound, slot)
  else if answers.enableErr ≠ 0 then (-enodev, wlFound, slot)
  else
    let slot := { slot with enableCnt := slot.enableCnt + 1, master := true }
    let slot :=
      if slot.config40 &&& 0x0000ff00 ≠ 0 then
        { slot with config40 := slot.config40 &&& 0xffff00ff }
      else slot
    let slot := if answers.bar1 then { slot with bar1Maps := slot.bar1Maps + 1 } else slot
    let env := environment params wlFound answers
    if (wlAttach env).1 then
      let wl := ⟨wlFound + params.instanceBase, answers.bar1⟩
      (0, wlFound + 1, { slot with drvdata := some wl })
    else
      -- `wl_free` unmaps the region if `wl_attach` has stored its address
      let slot :=
        if answers.bar1 && storesBar1 env then { slot with bar1Maps := slot.bar1Maps - 1 } else slot
      (-enodev, wlFound, slot)

/-- `wl_remove`; afterwards the driver core clears the driver's data in any case. -/
def wlRemove (chipmatch : Bool) (slot : Slot) : Slot :=
  match slot.drvdata with
  | none => slot
  | some wl =>
      if !chipmatch then { slot with drvdata := none }
      else
        let slot := if wl.bar1Addr then { slot with bar1Maps := slot.bar1Maps - 1 } else slot
        { slot with enableCnt := slot.enableCnt - 1, drvdata := none }

/-! ## Runs -/

variable {Device : Type} [DecidableEq Device]

structure State (Device : Type) where
  wlFound : Int32
  slots : Device → Slot

inductive Label (Device : Type) where
  | probe (pdev : Device) (answers : Answers)
  | remove (pdev : Device) (chipmatch : Bool)

/-- The probe of a device in a state. -/
def State.probe (params : Params) (ids : Device → PciDev) (state : State Device) (pdev : Device)
    (answers : Answers) : ℤ × State Device :=
  let (rc, wlFound, slot) :=
    wlPciProbe params (ids pdev) answers state.wlFound (state.slots pdev)
  (rc, ⟨wlFound, Function.update state.slots pdev slot⟩)

/-- No device has a driver, is enabled or mapped. -/
structure Initial (state : State Device) : Prop where
  wlFound : state.wlFound = 0
  drvdata : ∀ pdev, (state.slots pdev).drvdata = none
  enableCnt : ∀ pdev, (state.slots pdev).enableCnt = 0
  bar1Maps : ∀ pdev, (state.slots pdev).bar1Maps = 0

def pciBus (params : Params) (ids : Device → PciDev) : Machine (State Device) (Label Device) where
  initial := Initial
  step state label :=
    match label with
    | .probe pdev answers =>
        if (state.slots pdev).drvdata = none then some (state.probe params ids pdev answers).2
        else none
    | .remove pdev chipmatch =>
        if (state.slots pdev).drvdata ≠ none then
          some { state with
            slots := Function.update state.slots pdev (wlRemove chipmatch (state.slots pdev)) }
        else none

/-! ## One call -/

/-- What a probe does. -/
inductive Probed (params : Params) (pdev : PciDev) (answers : Answers) (wlFound : Int32)
    (slot : Slot) : ℤ × Int32 × Slot → Prop
  | refused (h : supported pdev = true → answers.enableErr ≠ 0) :
      Probed params pdev answers wlFound slot (-enodev, wlFound, slot)
  | attached (next : Slot) (hsupported : supported pdev = true) (herr : answers.enableErr = 0)
      (hattach : (wlAttach (environment params wlFound answers)).1 = true)
      (henable : next.enableCnt = slot.enableCnt + 1)
      (hmaps : next.bar1Maps = slot.bar1Maps + answers.bar1.toNat)
      (hdrvdata : next.drvdata = some ⟨wlFound + params.instanceBase, answers.bar1⟩) :
      Probed params pdev answers wlFound slot (0, wlFound + 1, next)
  | failed (next : Slot) (hsupported : supported pdev = true) (herr : answers.enableErr = 0)
      (hattach : (wlAttach (environment params wlFound answers)).1 = false)
      (henable : next.enableCnt = slot.enableCnt + 1)
      (hmaps : next.bar1Maps = slot.bar1Maps +
        (answers.bar1 && !storesBar1 (environment params wlFound answers)).toNat)
      (hdrvdata : next.drvdata = slot.drvdata) :
      Probed params pdev answers wlFound slot (-enodev, wlFound, next)

theorem wlPciProbe_probed (params : Params) (pdev : PciDev) (answers : Answers) (wlFound : Int32)
    (slot : Slot) :
    Probed params pdev answers wlFound slot (wlPciProbe params pdev answers wlFound slot) := by
  unfold wlPciProbe
  cases hsupported : supported pdev with
  | false => exact .refused fun h ↦ absurd (hsupported.symm.trans h) Bool.false_ne_true
  | true =>
    by_cases herr : answers.enableErr = 0
    · simp only [Bool.not_true, Bool.false_eq_true, if_false, herr, ne_eq, not_true_eq_false]
      cases hattach : (wlAttach (environment params wlFound answers)).1 with
      | true =>
        rw [if_pos rfl]
        refine .attached _ hsupported herr hattach ?_ ?_ rfl
        · cases answers.bar1 <;> simp only [Bool.false_eq_true, if_false, if_true] <;> split <;> rfl
        · cases answers.bar1 <;> simp only [Bool.false_eq_true, if_false, if_true] <;> split <;> rfl
      | false =>
        rw [if_neg Bool.false_ne_true]
        refine .failed _ hsupported herr hattach ?_ ?_ ?_
        all_goals
          cases answers.bar1 <;> cases storesBar1 (environment params wlFound answers) <;>
            simp only [Bool.false_eq_true, Bool.and_true, Bool.and_false, Bool.not_true,
              Bool.not_false, if_false, if_true] <;> split <;> rfl
    · simp only [Bool.not_true, Bool.false_eq_true, if_false, ne_eq, herr, not_false_eq_true,
        if_true]
      exact .refused fun _ ↦ herr

/-- A device that was attached has a number, and it is the first when only one is wanted. -/
theorem unit_of_attached {env : Environment} (h : (wlAttach env).1 = true) :
    0 ≤ (env.wlFound + env.instanceBase).toInt ∧ (env.oneonly = true → env.wlFound = 0) := by
  have hrefused : refused env = false := by
    by_contra hrefused
    unfold wlAttach at h
    rw [if_pos (Bool.of_not_eq_false hrefused)] at h
    exact absurd h Bool.false_ne_true
  unfold refused at hrefused
  obtain ⟨hunit, honly⟩ := Bool.or_eq_false_iff.mp hrefused
  refine ⟨?_, fun honeonly ↦ ?_⟩
  · exact Int32.le_iff_toInt_le.mp (Int32.not_lt.mp (of_decide_eq_false hunit))
  · rw [honeonly, Bool.true_and, decide_eq_false_iff_not, not_not] at honly
    exact Int32.add_eq_right.mp honly

/-- A driver holds so much of its device, and a device without one nothing. -/
def Balanced (count : Slot → ℕ) (held : WlInfo → ℕ) (slot : Slot) : Prop :=
  count slot = slot.drvdata.elim 0 held

theorem balanced_none_iff {count : Slot → ℕ} {held : WlInfo → ℕ} {slot : Slot}
    (h : slot.drvdata = none) : Balanced count held slot ↔ count slot = 0 := by
  unfold Balanced
  rw [h]
  rfl

theorem balanced_some_iff {count : Slot → ℕ} {held : WlInfo → ℕ} {slot : Slot} {wl : WlInfo}
    (h : slot.drvdata = some wl) : Balanced count held slot ↔ count slot = held wl := by
  unfold Balanced
  rw [h]
  rfl

theorem wlRemove_drvdata (chipmatch : Bool) (slot : Slot) :
    (wlRemove chipmatch slot).drvdata = none := by
  unfold wlRemove
  cases hdrvdata : slot.drvdata with
  | none => exact hdrvdata
  | some wl =>
    dsimp only
    split <;> rfl

section Enabled

variable {params : Params} {pdev : PciDev} {answers : Answers} {wlFound : Int32} {slot : Slot}

/-- Every probe that enables the device attaches it. -/
def Attaches (params : Params) (pdev : PciDev) (answers : Answers) (wlFound : Int32) : Prop :=
  supported pdev = true → answers.enableErr = 0 →
    (wlAttach (environment params wlFound answers)).1 = true

theorem enabled_probe_iff (hdrvdata : slot.drvdata = none)
    (h : Balanced Slot.enableCnt (fun _ ↦ 1) slot) :
    Balanced Slot.enableCnt (fun _ ↦ 1) (wlPciProbe params pdev answers wlFound slot).2.2 ↔
      Attaches params pdev answers wlFound := by
  have hzero := (balanced_none_iff hdrvdata).mp h
  generalize hresult : wlPciProbe params pdev answers wlFound slot = result
  cases hresult ▸ wlPciProbe_probed params pdev answers wlFound slot with
  | refused hrefused =>
    exact iff_of_true h fun hsupported herr ↦ absurd herr (hrefused hsupported)
  | attached next hsupported herr hattach henable hmaps hnext =>
    refine iff_of_true ((balanced_some_iff hnext).mpr ?_) fun _ _ ↦ hattach
    rw [henable, hzero]
  | failed next hsupported herr hattach henable hmaps hnext =>
    refine iff_of_false (fun hbalanced ↦ ?_) fun hattaches ↦ ?_
    · rw [balanced_none_iff (hnext.trans hdrvdata), henable] at hbalanced
      exact absurd hbalanced (Nat.succ_ne_zero _)
    · exact absurd (hattach.symm.trans (hattaches hsupported herr)) Bool.false_ne_true

theorem enabled_remove_iff {wl : WlInfo} {chipmatch : Bool} (hdrvdata : slot.drvdata = some wl)
    (h : Balanced Slot.enableCnt (fun _ ↦ 1) slot) :
    Balanced Slot.enableCnt (fun _ ↦ 1) (wlRemove chipmatch slot) ↔ chipmatch = true := by
  have hone := (balanced_some_iff hdrvdata).mp h
  rw [balanced_none_iff (wlRemove_drvdata chipmatch slot)]
  unfold wlRemove
  rw [hdrvdata]
  cases chipmatch <;> cases hbar1 : wl.bar1Addr <;> simp [hone, hbar1]

/-- Every probe that maps the region attaches the device, or fails when `wl_free` knows of it. -/
def Unmaps (params : Params) (pdev : PciDev) (answers : Answers) (wlFound : Int32) : Prop :=
  supported pdev = true → answers.enableErr = 0 → answers.bar1 = true →
    (wlAttach (environment params wlFound answers)).1 = true ∨
      storesBar1 (environment params wlFound answers) = true

theorem mapped_probe_iff (hdrvdata : slot.drvdata = none)
    (h : Balanced Slot.bar1Maps (fun wl ↦ wl.bar1Addr.toNat) slot) :
    Balanced Slot.bar1Maps (fun wl ↦ wl.bar1Addr.toNat)
        (wlPciProbe params pdev answers wlFound slot).2.2 ↔
      Unmaps params pdev answers wlFound := by
  have hzero := (balanced_none_iff hdrvdata).mp h
  generalize hresult : wlPciProbe params pdev answers wlFound slot = result
  cases hresult ▸ wlPciProbe_probed params pdev answers wlFound slot with
  | refused hrefused =>
    exact iff_of_true h fun hsupported herr ↦ absurd herr (hrefused hsupported)
  | attached next hsupported herr hattach henable hmaps hnext =>
    refine iff_of_true ((balanced_some_iff hnext).mpr ?_) fun _ _ _ ↦ .inl hattach
    rw [hmaps, hzero, Nat.zero_add]
  | failed next hsupported herr hattach henable hmaps hnext =>
    rw [balanced_none_iff (hnext.trans hdrvdata), hmaps, hzero, Nat.zero_add]
    unfold Unmaps
    cases hbar1 : answers.bar1 <;>
      cases hstores : storesBar1 (environment params wlFound answers) <;>
      simp [hsupported, herr, hattach]

theorem mapped_remove_iff {wl : WlInfo} {chipmatch : Bool} (hdrvdata : slot.drvdata = some wl)
    (h : Balanced Slot.bar1Maps (fun wl ↦ wl.bar1Addr.toNat) slot) :
    Balanced Slot.bar1Maps (fun wl ↦ wl.bar1Addr.toNat) (wlRemove chipmatch slot) ↔
      (wl.bar1Addr = true → chipmatch = true) := by
  have hmaps := (balanced_some_iff hdrvdata).mp h
  rw [balanced_none_iff (wlRemove_drvdata chipmatch slot)]
  unfold wlRemove
  rw [hdrvdata]
  cases chipmatch <;> cases hbar1 : wl.bar1Addr <;> simp [hmaps, hbar1]

end Enabled

/-! ## Every run -/

variable {params : Params} {ids : Device → PciDev} {state next : State Device}

/-- The device of a label, and what the label makes of it. -/
inductive Moved (params : Params) (ids : Device → PciDev) (state : State Device) :
    Label Device → State Device → Prop
  | probe (pdev : Device) (answers : Answers) (hfree : (state.slots pdev).drvdata = none) :
      Moved params ids state (.probe pdev answers) (state.probe params ids pdev answers).2
  | remove (pdev : Device) (chipmatch : Bool) (wl : WlInfo)
      (hbound : (state.slots pdev).drvdata = some wl) :
      Moved params ids state (.remove pdev chipmatch)
        { state with
          slots := Function.update state.slots pdev (wlRemove chipmatch (state.slots pdev)) }

theorem moved_of_step {label : Label Device}
    (h : (pciBus params ids).step state label = some next) : Moved params ids state label next := by
  cases label with
  | probe pdev answers =>
    obtain ⟨hfree, hnext⟩ := Option.ite_none_right_eq_some.mp h
    cases hnext
    exact .probe pdev answers hfree
  | remove pdev chipmatch =>
    obtain ⟨hbound, hnext⟩ := Option.ite_none_right_eq_some.mp h
    obtain ⟨wl, hwl⟩ := Option.ne_none_iff_exists'.mp hbound
    cases hnext
    exact .remove pdev chipmatch wl hwl

/-- A count is balanced for every device. -/
def AllBalanced (count : Slot → ℕ) (held : WlInfo → ℕ) (state : State Device) : Prop :=
  ∀ pdev, Balanced count held (state.slots pdev)

theorem allBalanced_update_iff {count : Slot → ℕ} {held : WlInfo → ℕ} {wlFound : Int32}
    {pdev : Device} {slot : Slot} (h : AllBalanced count held state) :
    AllBalanced count held ⟨wlFound, Function.update state.slots pdev slot⟩ ↔
      Balanced count held slot := by
  constructor
  · intro hall
    have hpdev := hall pdev
    rwa [show (State.mk wlFound (Function.update state.slots pdev slot)).slots pdev = slot from
      Function.update_self ..] at hpdev
  · intro hslot other
    change Balanced count held (Function.update state.slots pdev slot other)
    by_cases hsame : other = pdev
    · subst hsame
      rwa [Function.update_self]
    · rw [Function.update_of_ne hsame]
      exact h other

omit [DecidableEq Device] in
theorem Initial.allBalanced {count : Slot → ℕ} {held : WlInfo → ℕ} (h : Initial state)
    (hcount : ∀ pdev, count (state.slots pdev) = 0) : AllBalanced count held state :=
  fun pdev ↦ (balanced_none_iff (h.drvdata pdev)).mpr (hcount pdev)

/-- The step leaves a count balanced. -/
def KeepsBalance (params : Params) (ids : Device → PciDev) (count : Slot → ℕ) (held : WlInfo → ℕ)
    (state : State Device) (label : Label Device) : Prop :=
  ∀ next, (pciBus params ids).step state label = some next → AllBalanced count held next

/-- A condition on what probes and removals do to one device decides the steps that leave a count
balanced, and so the runs. -/
theorem along_keepsBalance_iff {count : Slot → ℕ} {held : WlInfo → ℕ}
    {probes : PciDev → Answers → Int32 → Prop} {removes : WlInfo → Bool → Prop}
    (hprobe : ∀ pdev answers wlFound slot, slot.drvdata = none → Balanced count held slot →
      (Balanced count held (wlPciProbe params pdev answers wlFound slot).2.2 ↔
        probes pdev answers wlFound))
    (hremove : ∀ chipmatch wl slot, slot.drvdata = some wl → Balanced count held slot →
      (Balanced count held (wlRemove chipmatch slot) ↔ removes wl chipmatch))
    {condition : State Device → Label Device → Prop}
    (hconditionProbe : ∀ state pdev answers, condition state (.probe pdev answers) ↔
      ((state.slots pdev).drvdata = none → probes (ids pdev) answers state.wlFound))
    (hconditionRemove : ∀ state pdev chipmatch, condition state (.remove pdev chipmatch) ↔
      ∀ wl, (state.slots pdev).drvdata = some wl → removes wl chipmatch)
    {start : State Device} (hstart : AllBalanced count held start) (labels : List (Label Device)) :
    (pciBus params ids).Along (KeepsBalance params ids count held) start labels ↔
      (pciBus params ids).Along condition start labels := by
  refine Machine.along_congr ?_ (fun _ _ next _ hkeeps hnext ↦ hkeeps next hnext) hstart
  intro state label hstate
  cases label with
  | probe pdev answers =>
    rw [hconditionProbe]
    constructor
    · intro hkeeps hfree
      have hnext := hkeeps _ (if_pos hfree)
      exact (hprobe _ _ _ _ hfree (hstate pdev)).mp ((allBalanced_update_iff hstate).mp hnext)
    · intro hprobes next hnext
      cases moved_of_step hnext with
      | probe _ _ hfree =>
        refine (allBalanced_update_iff hstate).mpr ?_
        exact (hprobe _ _ _ _ hfree (hstate pdev)).mpr (hprobes hfree)
  | remove pdev chipmatch =>
    rw [hconditionRemove]
    constructor
    · intro hkeeps wl hbound
      have hsome : (state.slots pdev).drvdata ≠ none := by simp [hbound]
      have hnext := hkeeps _ (if_pos hsome)
      exact (hremove _ _ _ hbound (hstate pdev)).mp ((allBalanced_update_iff hstate).mp hnext)
    · intro hremoves next hnext
      cases moved_of_step hnext with
      | remove _ _ wl hbound =>
        refine (allBalanced_update_iff hstate).mpr ?_
        exact (hremove _ _ _ hbound (hstate pdev)).mpr (hremoves wl hbound)

/-- Every probe of a supported device that could be enabled attaches it, and every removal finds the
chip. -/
def Disables (params : Params) (ids : Device → PciDev) (state : State Device) :
    Label Device → Prop
  | .probe pdev answers =>
      (state.slots pdev).drvdata = none → Attaches params (ids pdev) answers state.wlFound
  | .remove pdev chipmatch => ∀ wl, (state.slots pdev).drvdata = some wl → chipmatch = true

/-- In every run each device is enabled once while it has a driver, and not at all otherwise, if and
only if no probe fails after it has enabled the device, and every removal finds the chip. -/
theorem devices_disabled_iff {start : State Device} (h : Initial start)
    (labels : List (Label Device)) :
    (pciBus params ids).Along (KeepsBalance params ids Slot.enableCnt fun _ ↦ 1) start labels ↔
      (pciBus params ids).Along (Disables params ids) start labels :=
  along_keepsBalance_iff (fun _ _ _ _ ↦ enabled_probe_iff)
    (fun _ _ _ ↦ enabled_remove_iff) (fun _ _ _ ↦ Iff.rfl) (fun _ _ _ ↦ Iff.rfl)
    (h.allBalanced h.enableCnt) labels

/-- Every probe that fails with the region mapped fails after `wl_attach` has its address, and every
removal with the region mapped finds the chip. -/
def UnmapsRegion (params : Params) (ids : Device → PciDev) (state : State Device) :
    Label Device → Prop
  | .probe pdev answers =>
      (state.slots pdev).drvdata = none → Unmaps params (ids pdev) answers state.wlFound
  | .remove pdev chipmatch =>
      ∀ wl, (state.slots pdev).drvdata = some wl → wl.bar1Addr = true → chipmatch = true

/-- In every run the second region is mapped exactly for the drivers that have its address, if and
only if no probe fails between the mapping and the assignment of the address, and every removal of
such a driver finds the chip. -/
theorem regions_unmapped_iff {start : State Device} (h : Initial start)
    (labels : List (Label Device)) :
    (pciBus params ids).Along
        (KeepsBalance params ids Slot.bar1Maps fun wl ↦ wl.bar1Addr.toNat) start labels ↔
      (pciBus params ids).Along (UnmapsRegion params ids) start labels :=
  along_keepsBalance_iff (fun _ _ _ _ ↦ mapped_probe_iff)
    (fun _ _ _ ↦ mapped_remove_iff) (fun _ _ _ ↦ Iff.rfl) (fun _ _ _ ↦ Iff.rfl)
    (h.allBalanced h.bar1Maps) labels

/-- Two BCM4312 cards that were never probed. -/
def cards : Bool → PciDev := fun _ ↦ ⟨pciVendorIdBroadcom, 0x4315⟩

def unbound : State Bool where
  wlFound := 0
  slots _ := ⟨0, 0, false, 0, none⟩

theorem initial_unbound : Initial unbound := ⟨rfl, fun _ ↦ rfl, fun _ ↦ rfl, fun _ ↦ rfl⟩

/-- All goes well but for one acquisition of `wl_attach`. -/
def failingAt (failing : Option Resource) : Answers where
  enableErr := 0
  bar1 := true
  outcome resource := failing ≠ some resource
  irq := 17

/-- A card whose interrupt is refused stays enabled. -/
theorem devices_disabled_iff_irq :
    ¬(pciBus ⟨0, false⟩ cards).Along
        (KeepsBalance ⟨0, false⟩ cards Slot.enableCnt fun _ ↦ 1) unbound
        [.probe true (failingAt (some .irq))] := by
  rw [devices_disabled_iff initial_unbound]
  intro h
  exact absurd (h.1 rfl rfl rfl) (by decide)

/-- The region of the same card is unmapped. -/
theorem regions_unmapped_iff_irq :
    (pciBus ⟨0, false⟩ cards).Along
      (KeepsBalance ⟨0, false⟩ cards Slot.bar1Maps fun wl ↦ wl.bar1Addr.toNat) unbound
      [.probe true (failingAt (some .irq))] := by
  rw [regions_unmapped_iff initial_unbound]
  exact ⟨fun _ _ _ _ ↦ .inr rfl, fun _ _ ↦ trivial⟩

/-! ## Unit numbers -/

/-- Units are handed out in order, and each of them once: so many of them were. The count wraps
around only to stay there, because the unit is negative then. -/
structure Numbered (params : Params) (state : State Device) (handed : ℕ) : Prop where
  wlFound : state.wlFound = Int32.ofNat handed
  fits : handed = 0 ∨
    0 ≤ params.instanceBase.toInt ∧ params.instanceBase.toInt + handed ≤ 2147483648
  range : ∀ pdev wl, (state.slots pdev).drvdata = some wl →
    params.instanceBase.toInt ≤ wl.unit.toInt ∧ 0 ≤ wl.unit.toInt ∧
      wl.unit.toInt < params.instanceBase.toInt + handed
  distinct : ∀ first second wl wl', (state.slots first).drvdata = some wl →
    (state.slots second).drvdata = some wl' → wl.unit = wl'.unit → first = second

omit [DecidableEq Device] in
theorem Initial.numbered (h : Initial state) : Numbered params state 0 where
  wlFound := h.wlFound
  fits := .inl rfl
  range pdev wl hwl := by
    rw [h.drvdata] at hwl
    cases hwl
  distinct first second wl wl' hwl := by
    rw [h.drvdata] at hwl
    cases hwl

/-- A step that gives no device a new driver keeps the numbers. -/
theorem Numbered.forget {handed : ℕ} {pdev : Device} {slot : Slot}
    (h : Numbered params state handed) (hslot : slot.drvdata = none) :
    Numbered params { state with slots := Function.update state.slots pdev slot } handed := by
  have hold : ∀ other wl, (Function.update state.slots pdev slot other).drvdata = some wl →
      (state.slots other).drvdata = some wl := by
    intro other wl hwl
    by_cases hsame : other = pdev
    · rw [hsame, Function.update_self, hslot] at hwl
      cases hwl
    · rwa [Function.update_of_ne hsame] at hwl
  constructor
  · exact h.wlFound
  · exact h.fits
  · exact fun other wl hwl ↦ h.range other wl (hold other wl hwl)
  · exact fun first second wl wl' hwl hwl' ↦
      h.distinct first second wl wl' (hold first wl hwl) (hold second wl' hwl')

omit [DecidableEq Device] in
/-- A number that is not negative has not wrapped around. -/
theorem Numbered.toInt_unit {handed : ℕ} (h : Numbered params state handed)
    (hunit : 0 ≤ (state.wlFound + params.instanceBase).toInt) :
    (state.wlFound + params.instanceBase).toInt = params.instanceBase.toInt + handed ∧
      0 ≤ params.instanceBase.toInt ∧ params.instanceBase.toInt + handed < 2147483648 := by
  have hbase := params.instanceBase.toInt_lt
  rcases h.fits with hnone | ⟨hnonneg, hfits⟩
  · rw [h.wlFound, hnone] at hunit ⊢
    rw [show Int32.ofNat 0 + params.instanceBase = params.instanceBase from Int32.zero_add _]
      at hunit ⊢
    omega
  · rw [h.wlFound, Int32.toInt_add, Int32.toInt_ofNat'] at hunit ⊢
    simp only [Int32.size, Int.bmod_def] at hunit ⊢
    omega

/-- The next number is larger than all that were handed out. -/
theorem Numbered.attach {handed : ℕ} {pdev : Device} {slot : Slot} {bar1 : Bool}
    (h : Numbered params state handed)
    (hunit : 0 ≤ (state.wlFound + params.instanceBase).toInt)
    (hslot : slot.drvdata = some ⟨state.wlFound + params.instanceBase, bar1⟩) :
    Numbered params ⟨state.wlFound + 1, Function.update state.slots pdev slot⟩ (handed + 1) := by
  obtain ⟨hnumber, hnonneg, hfits⟩ := h.toInt_unit hunit
  have hcases : ∀ other wl, (Function.update state.slots pdev slot other).drvdata = some wl →
      other = pdev ∧ wl.unit = state.wlFound + params.instanceBase ∨
        other ≠ pdev ∧ (state.slots other).drvdata = some wl := by
    intro other wl hwl
    by_cases hsame : other = pdev
    · rw [hsame, Function.update_self, hslot, Option.some_inj] at hwl
      exact .inl ⟨hsame, hwl ▸ rfl⟩
    · rw [Function.update_of_ne hsame] at hwl
      exact .inr ⟨hsame, hwl⟩
  constructor
  · change state.wlFound + 1 = _
    rw [h.wlFound, Int32.ofNat_add]
    rfl
  · right
    omega
  · intro other wl hwl
    rcases hcases other wl hwl with ⟨-, hnew⟩ | ⟨-, hold⟩
    · rw [hnew]
      omega
    · have hrange := h.range other wl hold
      omega
  · intro first second wl wl' hwl hwl' heq
    rcases hcases first wl hwl with ⟨rfl, hnew⟩ | ⟨-, hold⟩ <;>
      rcases hcases second wl' hwl' with ⟨rfl, hnew'⟩ | ⟨-, hold'⟩
    · rfl
    · have hrange := h.range second wl' hold'
      rw [← heq, hnew] at hrange
      omega
    · have hrange := h.range first wl hold
      rw [heq, hnew'] at hrange
      omega
    · exact h.distinct first second wl wl' hold hold' heq

theorem Numbered.step {handed : ℕ} {label : Label Device} (h : Numbered params state handed)
    (hstep : (pciBus params ids).step state label = some next) :
    ∃ handed, Numbered params next handed := by
  cases moved_of_step hstep with
  | probe pdev answers hfree =>
    unfold State.probe
    generalize hresult :
      wlPciProbe params (ids pdev) answers state.wlFound (state.slots pdev) = result
    cases hresult ▸
      wlPciProbe_probed params (ids pdev) answers state.wlFound (state.slots pdev) with
    | refused hrefused => exact ⟨handed, h.forget hfree⟩
    | attached slot hsupported herr hattach henable hmaps hslot =>
      exact ⟨handed + 1, h.attach (unit_of_attached hattach).1 hslot⟩
    | failed slot hsupported herr hattach henable hmaps hslot =>
      exact ⟨handed, h.forget (hslot.trans hfree)⟩
  | remove pdev chipmatch wl hbound =>
    exact ⟨handed, h.forget (wlRemove_drvdata chipmatch _)⟩

theorem numbered_of_reachable (h : (pciBus params ids).Reachable state) :
    ∃ handed, Numbered params state handed := by
  let invariant := fun state : State Device ↦ ∃ handed, Numbered params state handed
  have hinitial : ∀ start : State Device, Initial start → invariant start :=
    fun _ hstart ↦ ⟨0, hstart.numbered⟩
  refine h.invariant hinitial ?_
  rintro state label next ⟨handed, hnumbered⟩ hstep
  exact hnumbered.step hstep

/-- In every run no two devices that have a driver have the same number, which is from
`instance_base` on and never negative. -/
theorem units_distinct (h : (pciBus params ids).Reachable state) {first second : Device}
    {wl wl' : WlInfo} (hfirst : (state.slots first).drvdata = some wl)
    (hsecond : (state.slots second).drvdata = some wl') :
    params.instanceBase ≤ wl.unit ∧ 0 ≤ wl.unit ∧ (wl.unit = wl'.unit → first = second) := by
  obtain ⟨handed, hnumbered⟩ := numbered_of_reachable h
  obtain ⟨hbase, hunit, -⟩ := hnumbered.range first wl hfirst
  exact ⟨Int32.le_iff_toInt_le.mpr hbase, Int32.le_iff_toInt_le.mpr hunit,
    hnumbered.distinct first second wl wl' hfirst hsecond⟩

/-- Both cards, probed one after the other. -/
def bothProbed : State Bool :=
  let (_, state) := State.probe ⟨0, false⟩ cards unbound false (failingAt none)
  (state.probe ⟨0, false⟩ cards true (failingAt none)).2

/-- Two cards get different units. -/
theorem units_distinct_cards :
    ∃ wl wl', (bothProbed.slots false).drvdata = some wl ∧
      (bothProbed.slots true).drvdata = some wl' ∧ 0 ≤ wl.unit ∧ wl.unit ≠ wl'.unit := by
  have hreachable : (pciBus ⟨0, false⟩ cards).Reachable bothProbed :=
    ⟨unbound, [.probe false (failingAt none), .probe true (failingAt none)], initial_unbound, rfl⟩
  obtain ⟨-, hunit, hdistinct⟩ := @units_distinct Bool _ ⟨0, false⟩ cards bothProbed hreachable
    false true ⟨0, true⟩ ⟨1, true⟩ rfl rfl
  exact ⟨_, _, rfl, rfl, hunit, fun hsame ↦ Bool.false_ne_true (hdistinct hsame)⟩

theorem probed_of_zero {pdev : Device} {answers : Answers}
    (h : (state.probe params ids pdev answers).1 = 0) :
    (wlAttach (environment params state.wlFound answers)).1 = true ∧
      (state.probe params ids pdev answers).2.wlFound = state.wlFound + 1 := by
  unfold State.probe at h ⊢
  generalize hresult :
    wlPciProbe params (ids pdev) answers state.wlFound (state.slots pdev) = result at h ⊢
  cases hresult ▸ wlPciProbe_probed params (ids pdev) answers state.wlFound (state.slots pdev) with
  | refused hrefused => exact absurd h (show -enodev ≠ 0 by decide)
  | attached slot hsupported herr hattach henable hmaps hslot => exact ⟨hattach, rfl⟩
  | failed slot hsupported herr hattach henable hmaps hslot =>
    exact absurd h (show -enodev ≠ 0 by decide)

/-- With `oneonly` set, only the first attached device is counted. -/
theorem wlFound_step (honly : params.oneonly = true) {label : Label Device}
    (hfound : state.wlFound ≠ 0) (hstep : (pciBus params ids).step state label = some next) :
    next.wlFound ≠ 0 := by
  cases moved_of_step hstep with
  | probe pdev answers hfree =>
    unfold State.probe
    generalize hresult :
      wlPciProbe params (ids pdev) answers state.wlFound (state.slots pdev) = result
    cases hresult ▸
      wlPciProbe_probed params (ids pdev) answers state.wlFound (state.slots pdev) with
    | refused hrefused => exact hfound
    | attached slot hsupported herr hattach henable hmaps hslot =>
      exact absurd ((unit_of_attached hattach).2 honly) hfound
    | failed slot hsupported herr hattach henable hmaps hslot => exact hfound
  | remove pdev chipmatch wl hbound => exact hfound

/-- With `oneonly` set, once a probe has returned 0 no probe of any device ever does so again, also
after the device was removed. -/
theorem oneonly_once (honly : params.oneonly = true) {start final : State Device}
    {first second : Device} {answers answers' : Answers}
    (hfirst : (start.probe params ids first answers).1 = 0) {after : List (Label Device)}
    (hrun : (pciBus params ids).run (start.probe params ids first answers).2 after = some final) :
    (final.probe params ids second answers').1 ≠ 0 := by
  intro hsecond
  obtain ⟨hattach, hcounted⟩ := probed_of_zero hfirst
  have hnone : start.wlFound = 0 := (unit_of_attached hattach).2 honly
  have hone : (start.probe params ids first answers).2.wlFound ≠ 0 := by
    rw [hcounted, hnone]
    decide
  have hfinal : final.wlFound ≠ 0 :=
    @Machine.run_preserves _ _ _ (fun state ↦ state.wlFound ≠ 0)
      (fun _ _ _ hfound hstep ↦ wlFound_step honly hfound hstep) _ _ _ hone hrun
  exact hfinal ((unit_of_attached (probed_of_zero hsecond).1).2 honly)

/-- The state after the only card was attached and removed. -/
def removed : State Bool :=
  let (_, state) := State.probe ⟨0, true⟩ cards unbound true (failingAt none)
  { state with slots := Function.update state.slots true (wlRemove true (state.slots true)) }

/-- The card that was removed is not taken again. -/
theorem oneonly_once_removed : (removed.probe ⟨0, true⟩ cards true (failingAt none)).1 ≠ 0 :=
  @oneonly_once Bool _ ⟨0, true⟩ cards rfl unbound removed true true (failingAt none)
    (failingAt none) rfl [.remove true true] rfl

end BroadcomWl.Linux.Devices
