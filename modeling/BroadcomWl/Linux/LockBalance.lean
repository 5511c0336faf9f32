import BroadcomWl.Systems.LockProgram
import Mathlib.Data.Int.Notation

/-!
# `WL_LOCK`

The driver has one lock, a semaphore when all work is passive and a spin lock otherwise. Every
entry point takes it around its calls into the firmware core; `wl_down` gives it back while it
waits for the timers and tasks that need it.

Each routine is a program around this lock. What the call itself does not decide (the results of
the firmware core, the allocator, the copies from and to user memory, and the driver fields that
other calls change) is asked of the environment. Counters, frees and queue wakeups decide nothing
and are left out. A routine that never uses the lock is a `Dialogue`.
-/

namespace BroadcomWl.Linux.LockBalance

open BroadcomWl.Systems
open LockProgram (acquire release)

def enodev : ℤ := 19
def enetdown : ℤ := 100
def enomem : ℤ := 12
def eio : ℤ := 5
def efault : ℤ := 14
def einval : ℤ := 22
def erange : ℤ := 34
def emsgsize : ℤ := 90
def eopnotsupp : ℤ := 95

def bcmeUnsupported : ℤ := -23
def bcmeBadaddr : ℤ := -21
def bcmeNoresource : ℤ := -22
def bcmeEperm : ℤ := -26

def wlcSetPromisc : ℤ := 10
def wlcSetInfra : ℤ := 20
def wlcSetRadio : ℤ := 38
def wlcGetMonitor : ℤ := 107
def wlcSetMonitor : ℤ := 108
def wlcSetAp : ℤ := 118
def wlcGetPhylist : ℤ := 180
def wlcGetVar : ℤ := 262

/-- The fields a branch reads; a pointer reads as 0 when it is `NULL`. -/
inductive Field where
  | pciDrvdata | wlcChipmatch | wlDev | wlPub | wlWlc | wlIfList | wlMonitorDev | wlCallbacks
  | pubUp | pubOl | pubWowlActive | bustype | resched | timerSet | timerPending | timerPeriodic
  | devOpen | scanRequest | pmEnabled

/-- What a routine asks of its environment. -/
inductive Question where
  | field (name : Field)
  | wlcUp
  | wlcDown
  | wlcDpc
  | wlcSendpkt
  | wlcIoctl (cmd : ℤ)
  | wlcSet (cmd arg : ℤ)
  | wlcIovarOp (name : String) (value : ℤ)
  | wlcIovarGetint (name : String)
  | wlcIovarSetint (name : String) (value : ℤ)
  | iovarValue
  | timerFn
  | capable
  | oslError (bcmerror : ℤ)
  | malloc
  | scheduleWork
  | copyFromUser
  | copyToUser
  | userWord
  | monitorLength
  | rounds
  | packets

abbrev Prog := LockProgram Question ℤ
abbrev Talk := Dialogue Question ℤ

def ask (question : Question) : Talk ℤ := .query question

def read (name : Field) : Talk ℤ := ask (.field name)

/-- `struct net_device`: its private link, its flags, its multicast list, and the interface type
of its `ieee80211_ptr`. -/
structure NetDevice where
  hasWl : Bool
  hasWlif : Bool
  iffPromisc : Bool
  iffAllmulti : Bool
  multicast : List (List UInt8)
  iftype : ℤ

/-! ## `wl_up` and `wl_down` -/

/-- `wl_up`. -/
def wlUp : Talk ℤ := do
  if (← read .pubUp) ≠ 0 then return 0
  ask .wlcUp

/-- The wait of `wl_down`: at most `rounds` times, while more callbacks are pending. -/
def waitForCallbacks (callbacks : UInt32) : ℕ → Talk Unit
  | 0 => return ()
  | rounds + 1 => do
      if UInt32.ofInt (← read .wlCallbacks) > callbacks then waitForCallbacks callbacks rounds

/-- `wl_down`: called with the lock, which it gives back while it waits. Both waits, the passive
one and `SPINWAIT`, are over after 10000 rounds. -/
def wlDown : Prog Unit := do
  let monitor ← read .wlMonitorDev
  let retVal ← (if monitor ≠ 0 then ask (.wlcIoctl wlcSetMonitor) else pure 0)
  let wlc ← read .wlWlc
  let retVal ← (if wlc ≠ 0 then ask .wlcDown else pure retVal)
  let pending ← read .wlCallbacks
  release
  waitForCallbacks (UInt32.ofInt (pending - retVal)) 10000
  acquire

/-! ## Requests -/

/-- `wlc_ioctl_internal`. -/
def wlcIoctlInternal (dev : Option NetDevice) (cmd : ℤ) : Prog ℤ :=
  match dev with
  | none => return -enetdown
  | some dev => do
      let wlDev ← read .wlDev
      if !dev.hasWlif || !dev.hasWl || wlDev = 0 then return -enetdown
      acquire
      let permitted ← ask .capable
      let bcmerror ← (if permitted = 0 then pure bcmeEperm else ask (.wlcIoctl cmd))
      release
      ask (.oslError bcmerror)

def ethtoolGdrvinfo : ℤ := 0x3
def ethtoolGrxcsum : ℤ := 0x14
def ethtoolSrxcsum : ℤ := 0x15
def ethtoolGtxcsum : ℤ := 0x16
def ethtoolStxcsum : ℤ := 0x17

def toeTxCsumOl : UInt32 := 1
def toeRxCsumOl : UInt32 := 2

/-- `wl_toe_get`. -/
def wlToeGet : Talk (ℤ × UInt32) := do
  let status ← ask (.wlcIovarGetint "toe_ol")
  let value ← ask .iovarValue
  if status ≠ 0 then return (-eopnotsupp, 0)
  return (0, UInt32.ofInt value)

/-- `wl_toe_set`. -/
def wlToeSet (toeOl : UInt32) : Talk ℤ := do
  if (← ask (.wlcIovarSetint "toe_ol" toeOl.toNat)) ≠ 0 then return -eopnotsupp
  if (← ask (.wlcIovarSetint "toe" (if toeOl ≠ 0 then 1 else 0))) ≠ 0 then return -eopnotsupp
  return 0

/-- `wl_ethtool`. -/
def wlEthtool : Talk ℤ := do
  if (← read .wlPub) = 0 || (← read .wlWlc) = 0 then return -enodev
  if (← ask .copyFromUser) ≠ 0 then return -efault
  let cmd ← ask .userWord
  if cmd = ethtoolGdrvinfo then
    if (← read .wlDev) = 0 then return -enetdown
    if (← ask .copyToUser) ≠ 0 then return -efault
    return 0
  else if cmd = ethtoolGrxcsum ∨ cmd = ethtoolGtxcsum then
    let (ret, _) ← wlToeGet
    if ret < 0 then return ret
    if (← ask .copyToUser) ≠ 0 then return -efault
    return 0
  else if cmd = ethtoolSrxcsum ∨ cmd = ethtoolStxcsum then
    if (← ask .copyFromUser) ≠ 0 then return -efault
    let data ← ask .userWord
    let (ret, toeCmpnt) ← wlToeGet
    if ret < 0 then return ret
    let csumDir := if cmd = ethtoolStxcsum then toeTxCsumOl else toeRxCsumOl
    let ret ← wlToeSet (if data ≠ 0 then toeCmpnt ||| csumDir else toeCmpnt &&& ~~~csumDir)
    if ret < 0 then return ret
    if cmd = ethtoolStxcsum && (← read .wlDev) = 0 then return -enetdown
    return 0
  else return -eopnotsupp

def siocethtool : ℤ := 0x8946
def siocdevprivate : ℤ := 0x89F0
def siociwfirst : ℤ := 0x8B00
def siociwlast : ℤ := 0x8BFF

/-- The part of `wl_ioctl_t` the routine reads: the command, and whether there is a buffer. -/
structure WlIoctl where
  cmd : ℤ
  hasBuf : Bool

/-- The wireless extensions' handler: a dialogue of `wlc_ioctl_internal` commands. -/
abbrev IwHandler := ℤ → Dialogue ℤ ℤ ℤ

/-- The buffer of `wl_ioctl`: 0, or the error with which the request ends, and whether a buffer
was allocated. -/
def userBuffer (ioc : WlIoctl) : Talk (ℤ × Bool) := do
  if (← ask .copyFromUser) ≠ 0 then return (bcmeBadaddr, false)
  if !ioc.hasBuf then return (0, false)
  if (← ask .malloc) = 0 then return (bcmeNoresource, false)
  if (← ask .copyFromUser) ≠ 0 then return (bcmeBadaddr, true)
  return (0, true)

/-- The call of `wlc_ioctl` in `wl_ioctl`. -/
def lockedIoctl (cmd : ℤ) : Prog ℤ := do
  acquire
  let bcmerror ← ask (.wlcIoctl cmd)
  release
  return bcmerror

/-- The label `done1` of `wl_ioctl`. -/
def copyBack (hasBuf : Bool) (bcmerror : ℤ) : Talk ℤ := do
  if !hasBuf then return bcmerror
  if (← ask .copyToUser) ≠ 0 then return bcmeBadaddr
  return bcmerror

/-- `wl_ioctl`. -/
def wlIoctl (wlIwIoctl : IwHandler) (dev : Option NetDevice) (cmd : ℤ) (ioc : WlIoctl) : Prog ℤ :=
  match dev with
  | none => return -enetdown
  | some net => do
      let wlDev ← read .wlDev
      if !net.hasWlif || !net.hasWl || wlDev = 0 then return -enetdown
      else if siociwfirst ≤ cmd ∧ cmd ≤ siociwlast then
        (wlIwIoctl cmd).serve (wlcIoctlInternal dev)
      else if cmd = siocethtool then wlEthtool
      else if cmd ≠ siocdevprivate then ask (.oslError bcmeUnsupported)
      else
        let (bcmerror, hasBuf) ← userBuffer ioc
        let bcmerror ← (if bcmerror ≠ 0 then pure bcmerror else lockedIoctl ioc.cmd)
        let bcmerror ← copyBack hasBuf bcmerror
        ask (.oslError bcmerror)

/-! ## Opening and closing -/

def nl80211IftypeAdhoc : ℤ := 1
def nl80211IftypeStation : ℤ := 2

/-- `wl_set_mode`: the monitor and WDS types are refused as every other one. -/
def wlSetMode (dev : NetDevice) : Prog ℤ := do
  if dev.iftype ≠ nl80211IftypeAdhoc ∧ dev.iftype ≠ nl80211IftypeStation then return -einval
  else
    let err ← wlcIoctlInternal dev wlcSetInfra
    if err ≠ 0 then return err else wlcIoctlInternal dev wlcSetAp

/-- `wl_cfg80211_up`: `wl_set_mode`, `wl_update_wiphybands` and, with power management,
`wl_update_wowl`. -/
def wlCfg80211Up (dev : NetDevice) : Prog ℤ := do
  let _ ← wlSetMode dev
  let err ← wlcIoctlInternal dev wlcGetPhylist
  if err ≠ 0 then return err
  else
    let pm ← read .pmEnabled
    let _ ← (if pm ≠ 0 then wlcIoctlInternal dev wlcGetVar else pure 0)
    return 0

/-- `wl_open`. -/
def wlOpen (dev : Option NetDevice) : Prog ℤ :=
  match dev with
  | none => return -enetdown
  | some dev => do
      acquire
      let error ← wlUp
      let promisc := .wlcSet wlcSetPromisc dev.iffPromisc.toNat
      let error ← (if error = 0 then ask promisc else pure error)
      release
      let failed ← wlCfg80211Up dev
      return if failed ≠ 0 then -1 else if error ≠ 0 then -enodev else 0

/-- `wl_close`. -/
def wlClose (dev : Option NetDevice) : Prog ℤ :=
  match dev with
  | none => return -enetdown
  | some _ => do
      let _ ← read .scanRequest
      acquire
      let ifList ← read .wlIfList
      let _ ← (if ifList = 0 then wlDown else pure ())
      release
      return 0

/-! ## Power management and removal -/

/-- The condition of `wl_suspend`: wake-on-wireless is offloaded and was activated. -/
def wowlActivate : Talk Bool := do
  if (← read .pubOl) = 0 then return false
  return (← ask (.wlcIovarSetint "wowl_activate" 1)) = 0

/-- `wl_suspend`. -/
def wlSuspend : Prog ℤ := do
  let wl ← read .pciDrvdata
  if wl = 0 then return -enodev
  else
    acquire
    let activated ← wowlActivate
    let _ ← (if activated then pure () else wlDown)
    release
    return 0

/-- What `wl_resume` does before it takes the lock. -/
def wowlDeactivate : Talk Unit := do
  if (← read .pubOl) ≠ 0 then
    let _ ← ask (.wlcIovarSetint "wowl_activate" 0)

/-- `wl_resume`. -/
def wlResume : Prog ℤ := do
  let wl ← read .pciDrvdata
  if wl = 0 then return -enodev
  else
    wowlDeactivate
    acquire
    let err ← wlUp
    release
    return err

/-- `wl_free`: unregistering the device closes it when it is open, and the wait for the callbacks
takes some number of rounds. -/
def wlFree (dev : NetDevice) : Prog Unit := do
  let wlDev ← read .wlDev
  let isOpen ← read .devOpen
  let _ ← (if wlDev ≠ 0 ∧ isOpen ≠ 0 then wlClose dev else pure 0)
  let rounds ← ask .rounds
  LockProgram.times (do let _ ← read .wlCallbacks) rounds.toNat

/-- `wl_remove`. -/
def wlRemove (dev : NetDevice) : Prog ℤ := do
  let wl ← read .pciDrvdata
  if wl = 0 then return 0
  else
    let chip ← read .wlcChipmatch
    if chip = 0 then return 0
    else
      acquire
      wlDown
      release
      wlFree dev
      return 0

/-! ## Address and multicast lists -/

/-- `wl_set_mac_address`. -/
def wlSetMacAddress (dev : Option NetDevice) : Prog ℤ :=
  match dev with
  | none => return -enetdown
  | some _ => do
      acquire
      let err ← ask (.wlcIovarOp "cur_etheraddr" 0)
      release
      if err ≠ 0 then ask (.oslError err) else return 0

def maxMultilist : ℕ := 32

/-- The loop over the device's multicast addresses: `allmulti` and `maclist->count`. -/
def maclist (allmulti : Bool) : ℕ → List (List UInt8) → Bool × ℕ
  | i, [] => (allmulti, i)
  | i, _ :: rest => if i ≥ maxMultilist then (true, 0) else maclist allmulti (i + 1) rest

/-- `_wl_set_multicast_list`. -/
def wlSetMulticastListNow (dev : Option NetDevice) : Prog ℤ :=
  match dev with
  | none => return 0
  | some dev => do
      let up ← read .pubUp
      let memory ← (if up ≠ 0 then ask .malloc else pure 0)
      if memory = 0 then return 0
      else
        let (allmulti, count) := maclist dev.iffAllmulti 0 dev.multicast
        acquire
        let _ ← ask (.wlcIovarOp "allmulti" allmulti.toNat)
        let _ ← ask (.wlcSet wlcSetPromisc dev.iffPromisc.toNat)
        let _ ← ask (.wlcIovarOp "mcast_list" count)
        release
        return 0

/-- `wl_set_multicast_list`: the work is put off when all work is passive. -/
def wlSetMulticastList (passive : Bool) (dev : NetDevice) : Prog ℤ :=
  if passive then ask .scheduleWork else wlSetMulticastListNow dev

/-- `wl_set_multicast_list_workitem`. -/
def wlSetMulticastListWorkitem (dev : NetDevice) : Prog ℤ := wlSetMulticastListNow dev

/-! ## Interrupts and timers -/

/-- What `wl_dpc` does with the lock: the branches of the routine, up to `done`. -/
def dpcBody (passive : Bool) : Talk Unit := do
  if (← read .pubUp) ≠ 0 then
    let _ ← read .resched
    let _ ← ask .wlcDpc
  if (← read .pubUp) = 0 then return ()
  if (← read .resched) ≠ 0 && passive then
    let _ ← ask .scheduleWork

/-- `wl_dpc`. -/
def wlDpc (passive : Bool) : Prog ℤ := do
  acquire
  dpcBody passive
  release
  return 0

/-- `wl_dpc_rxwork`. -/
def wlDpcRxwork (passive : Bool) : Prog ℤ := wlDpc passive

/-- What `_wl_timer` does with the lock. -/
def timerBody : Talk Unit := do
  if (← read .timerSet) ≠ 0 && (← read .timerPending) = 0 then
    let _ ← read .timerPeriodic
    let _ ← ask .timerFn

/-- `_wl_timer`. -/
def wlTimerNow : Prog ℤ := do
  acquire
  timerBody
  release
  return 0

/-- `wl_schedule_task`. -/
def wlScheduleTask : Talk ℤ := do
  if (← ask .malloc) = 0 then return -enomem
  if (← ask .scheduleWork) = 0 then return -enomem
  return 0

/-- `wl_timer`. -/
def wlTimer (passive : Bool) : Prog ℤ := if passive then wlScheduleTask else wlTimerNow

/-- `wl_timer_task`. -/
def wlTimerTask : Prog ℤ := wlTimerNow

/-! ## Transmission -/

/-- `wl_start_int`. -/
def wlStartInt : Prog ℤ := do
  acquire
  let _ ← ask .wlcSendpkt
  release
  return 0

/-- `wl_start`: in passive mode the packet is put on the transmit queue, under another lock. -/
def wlStart (passive : Bool) (dev : Option NetDevice) : Prog ℤ :=
  match dev with
  | none => return -enetdown
  | some _ => if passive then ask .scheduleWork else wlStartInt

/-- `wl_start_txqwork`: one `wl_start_int` for each packet it finds on the queue. -/
def wlStartTxqwork : Prog ℤ := do
  let packets ← ask .packets
  LockProgram.times (do let _ ← wlStartInt) packets.toNat
  return 0

/-! ## The monitor's file in `/proc` -/

/-- What `wl_proc_read` does after it has released the lock. -/
def reportMonitor (length : ℕ) (bcmerror : ℤ) : Talk ℤ := do
  if bcmerror ≠ 0 then return -eio
  let len ← ask .monitorLength
  if len < 0 ∨ len ≥ 8 then return -erange
  if (length : ℤ) < len then return -emsgsize
  if (← ask .copyToUser) ≠ 0 then return -efault
  return len

/-- `wl_proc_read`. -/
def wlProcRead (length offset : ℕ) : Prog ℤ := do
  if offset > 0 then return 0
  else
    acquire
    let bcmerror ← ask (.wlcIoctl wlcGetMonitor)
    release
    reportMonitor length bcmerror

/-- `wl_proc_write`. -/
def wlProcWrite (length : ℕ) : Prog ℤ := do
  if length = 0 ∨ length > 2 then return -eio
  else
    let fault ← ask .copyFromUser
    if fault ≠ 0 then return -efault
    else
      acquire
      let bcmerror ← ask (.wlcIoctl wlcSetMonitor)
      release
      return if bcmerror ≠ 0 then -eio else length

/-! ## The radio switch -/

def wlRadioSwDisable : ℕ := 1

/-- `WL_RADIO_SW_DISABLE << 16 | blocked`. -/
def radioval (blocked : Bool) : ℕ := wlRadioSwDisable <<< 16 ||| blocked.toNat

/-- `wl_set_radio_block`: the failing branch returns without `WL_UNLOCK`. -/
def wlSetRadioBlock (blocked : Bool) : Prog ℤ := do
  acquire
  let status ← ask (.wlcSet wlcSetRadio (radioval blocked))
  if status < 0 then return 1
  else
    release
    return 0

/-! ## Every routine and the lock -/

variable {allowed : Question → ℤ → Prop}

/-- A question asked only under a condition. -/
theorem ends_ask {condition : Prop} {_ : Decidable condition} (talk : Talk ℤ) (value : ℤ)
    {held : Bool} :
    (if condition then liftM talk else pure value : Prog ℤ).Ends allowed held held :=
  .ite (fun _ ↦ .dialogue _) fun _ ↦ .pure _

/-- `wl_down` gives its caller's lock back and takes it again. -/
theorem wlDown_ends : wlDown.Ends allowed true true := by
  refine LockProgram.Ends.bind (.dialogue _) fun monitor ↦ ?_
  refine LockProgram.Ends.bind (ends_ask _ _) fun retVal ↦ ?_
  refine LockProgram.Ends.bind (.dialogue _) fun wlc ↦ ?_
  refine LockProgram.Ends.bind (ends_ask _ _) fun retVal ↦ ?_
  refine LockProgram.Ends.bind (.dialogue _) fun pending ↦ ?_
  refine LockProgram.Ends.release.bind fun _ ↦ ?_
  exact LockProgram.Ends.bind (.dialogue _) fun _ ↦ .acquire

theorem wlcIoctlInternal_ends (dev : Option NetDevice) (cmd : ℤ) :
    (wlcIoctlInternal dev cmd).Ends allowed false false := by
  cases dev with
  | none => exact .pure _
  | some dev =>
    refine LockProgram.Ends.bind (.dialogue _) fun wlDev ↦ .ite (fun _ ↦ .pure _) fun _ ↦ ?_
    refine LockProgram.Ends.acquire.bind fun _ ↦ ?_
    refine LockProgram.Ends.bind (.dialogue _) fun permitted ↦ ?_
    refine LockProgram.Ends.bind (.ite (fun _ ↦ .pure _) fun _ ↦ .dialogue _) fun bcmerror ↦ ?_
    exact LockProgram.Ends.release.bind fun _ ↦ .dialogue _

theorem lockedIoctl_ends (cmd : ℤ) : (lockedIoctl cmd).Ends allowed false false := by
  refine LockProgram.Ends.acquire.bind fun _ ↦ ?_
  refine LockProgram.Ends.bind (.dialogue _) fun bcmerror ↦ ?_
  exact LockProgram.Ends.release.bind fun _ ↦ .pure _

theorem wlIoctl_ends (wlIwIoctl : IwHandler) (dev : Option NetDevice) (cmd : ℤ) (ioc : WlIoctl) :
    (wlIoctl wlIwIoctl dev cmd ioc).Ends allowed false false := by
  cases dev with
  | none => exact .pure _
  | some net =>
    refine LockProgram.Ends.bind (.dialogue _) fun wlDev ↦ .ite (fun _ ↦ .pure _) fun _ ↦ ?_
    refine .ite (fun _ ↦ .serve (fun request ↦ wlcIoctlInternal_ends _ request) _) fun _ ↦ ?_
    refine .ite (fun _ ↦ .dialogue _) fun _ ↦ .ite (fun _ ↦ .dialogue _) fun _ ↦ ?_
    refine LockProgram.Ends.bind (.dialogue _) fun buffer ↦ ?_
    refine LockProgram.Ends.bind (.ite (fun _ ↦ .pure _) fun _ ↦ lockedIoctl_ends _) fun _ ↦ ?_
    exact LockProgram.Ends.bind (.dialogue _) fun bcmerror ↦ .dialogue _

theorem wlSetMode_ends (dev : NetDevice) : (wlSetMode dev).Ends allowed false false := by
  refine .ite (fun _ ↦ .pure _) fun _ ↦ ?_
  refine LockProgram.Ends.bind (wlcIoctlInternal_ends _ _) fun err ↦ ?_
  exact .ite (fun _ ↦ .pure _) fun _ ↦ wlcIoctlInternal_ends _ _

/-- `wl_cfg80211_up` issues its requests after `wl_open` has released the lock. -/
theorem wlCfg80211Up_ends (dev : NetDevice) : (wlCfg80211Up dev).Ends allowed false false := by
  refine LockProgram.Ends.bind (wlSetMode_ends dev) fun _ ↦ ?_
  refine LockProgram.Ends.bind (wlcIoctlInternal_ends _ _) fun err ↦ ?_
  refine .ite (fun _ ↦ .pure _) fun _ ↦ ?_
  refine LockProgram.Ends.bind (.dialogue _) fun pm ↦ ?_
  exact LockProgram.Ends.bind (.ite (fun _ ↦ wlcIoctlInternal_ends _ _) fun _ ↦ .pure _) fun _ ↦
    .pure _

theorem wlOpen_ends (dev : Option NetDevice) : (wlOpen dev).Ends allowed false false := by
  cases dev with
  | none => exact .pure _
  | some dev =>
    refine LockProgram.Ends.acquire.bind fun _ ↦ ?_
    refine LockProgram.Ends.bind (.dialogue _) fun error ↦ ?_
    refine LockProgram.Ends.bind (ends_ask _ _) fun error ↦ ?_
    refine LockProgram.Ends.release.bind fun _ ↦ ?_
    exact LockProgram.Ends.bind (wlCfg80211Up_ends dev) fun _ ↦ .pure _

theorem wlClose_ends (dev : Option NetDevice) : (wlClose dev).Ends allowed false false := by
  cases dev with
  | none => exact .pure _
  | some dev =>
    refine LockProgram.Ends.bind (.dialogue _) fun _ ↦ ?_
    refine LockProgram.Ends.acquire.bind fun _ ↦ ?_
    refine LockProgram.Ends.bind (.dialogue _) fun ifList ↦ ?_
    refine LockProgram.Ends.bind (.ite (fun _ ↦ wlDown_ends) fun _ ↦ .pure _) fun _ ↦ ?_
    exact LockProgram.Ends.release.bind fun _ ↦ .pure _

theorem wlSuspend_ends : wlSuspend.Ends allowed false false := by
  refine LockProgram.Ends.bind (.dialogue _) fun wl ↦ .ite (fun _ ↦ .pure _) fun _ ↦ ?_
  refine LockProgram.Ends.acquire.bind fun _ ↦ ?_
  refine LockProgram.Ends.bind (.dialogue _) fun activated ↦ ?_
  refine LockProgram.Ends.bind (.ite (fun _ ↦ .pure _) fun _ ↦ wlDown_ends) fun _ ↦ ?_
  exact LockProgram.Ends.release.bind fun _ ↦ .pure _

theorem wlResume_ends : wlResume.Ends allowed false false := by
  refine LockProgram.Ends.bind (.dialogue _) fun wl ↦ .ite (fun _ ↦ .pure _) fun _ ↦ ?_
  refine LockProgram.Ends.bind (.dialogue _) fun _ ↦ ?_
  refine LockProgram.Ends.acquire.bind fun _ ↦ ?_
  refine LockProgram.Ends.bind (.dialogue _) fun err ↦ ?_
  exact LockProgram.Ends.release.bind fun _ ↦ .pure _

theorem wlFree_ends (dev : NetDevice) : (wlFree dev).Ends allowed false false := by
  refine LockProgram.Ends.bind (.dialogue _) fun wlDev ↦ ?_
  refine LockProgram.Ends.bind (.dialogue _) fun isOpen ↦ ?_
  refine LockProgram.Ends.bind (.ite (fun _ ↦ wlClose_ends _) fun _ ↦ .pure _) fun _ ↦ ?_
  refine LockProgram.Ends.bind (.dialogue _) fun rounds ↦ ?_
  exact .times (LockProgram.Ends.bind (.dialogue _) fun _ ↦ .pure _) _

theorem wlRemove_ends (dev : NetDevice) : (wlRemove dev).Ends allowed false false := by
  refine LockProgram.Ends.bind (.dialogue _) fun wl ↦ .ite (fun _ ↦ .pure _) fun _ ↦ ?_
  refine LockProgram.Ends.bind (.dialogue _) fun chip ↦ .ite (fun _ ↦ .pure _) fun _ ↦ ?_
  refine LockProgram.Ends.acquire.bind fun _ ↦ wlDown_ends.bind fun _ ↦ ?_
  refine LockProgram.Ends.release.bind fun _ ↦ ?_
  exact (wlFree_ends dev).bind fun _ ↦ .pure _

theorem wlSetMacAddress_ends (dev : Option NetDevice) :
    (wlSetMacAddress dev).Ends allowed false false := by
  cases dev with
  | none => exact .pure _
  | some dev =>
    refine LockProgram.Ends.acquire.bind fun _ ↦ ?_
    refine LockProgram.Ends.bind (.dialogue _) fun err ↦ ?_
    exact LockProgram.Ends.release.bind fun _ ↦ .ite (fun _ ↦ .dialogue _) fun _ ↦ .pure _

theorem wlSetMulticastListNow_ends (dev : Option NetDevice) :
    (wlSetMulticastListNow dev).Ends allowed false false := by
  cases dev with
  | none => exact .pure _
  | some dev =>
    refine LockProgram.Ends.bind (.dialogue _) fun up ↦ ?_
    refine LockProgram.Ends.bind (ends_ask _ _) fun memory ↦ .ite (fun _ ↦ .pure _) fun _ ↦ ?_
    refine LockProgram.Ends.acquire.bind fun _ ↦ ?_
    refine LockProgram.Ends.bind (.dialogue _) fun _ ↦ ?_
    refine LockProgram.Ends.bind (.dialogue _) fun _ ↦ ?_
    refine LockProgram.Ends.bind (.dialogue _) fun _ ↦ ?_
    exact LockProgram.Ends.release.bind fun _ ↦ .pure _

/-- A routine that takes the lock around one dialogue. -/
theorem ends_around (talk : Talk Unit) :
    (do acquire; talk; release; return 0 : Prog ℤ).Ends allowed false false :=
  LockProgram.Ends.acquire.bind fun _ ↦ LockProgram.Ends.bind (.dialogue talk) fun _ ↦
    LockProgram.Ends.release.bind fun _ ↦ .pure _

theorem wlStartInt_ends : wlStartInt.Ends allowed false false := by
  refine LockProgram.Ends.acquire.bind fun _ ↦ ?_
  refine LockProgram.Ends.bind (.dialogue _) fun _ ↦ ?_
  exact LockProgram.Ends.release.bind fun _ ↦ .pure _

theorem wlStartTxqwork_ends : wlStartTxqwork.Ends allowed false false := by
  refine LockProgram.Ends.bind (.dialogue _) fun packets ↦ ?_
  refine LockProgram.Ends.bind (.times ?_ _) fun _ ↦ .pure _
  exact wlStartInt_ends.bind fun _ ↦ .pure _

theorem wlProcRead_ends (length offset : ℕ) :
    (wlProcRead length offset).Ends allowed false false := by
  refine .ite (fun _ ↦ .pure _) fun _ ↦ LockProgram.Ends.acquire.bind fun _ ↦ ?_
  refine LockProgram.Ends.bind (.dialogue _) fun bcmerror ↦ ?_
  exact LockProgram.Ends.release.bind fun _ ↦ .dialogue _

theorem wlProcWrite_ends (length : ℕ) : (wlProcWrite length).Ends allowed false false := by
  refine .ite (fun _ ↦ .pure _) fun _ ↦ ?_
  refine LockProgram.Ends.bind (.dialogue _) fun fault ↦ .ite (fun _ ↦ .pure _) fun _ ↦ ?_
  refine LockProgram.Ends.acquire.bind fun _ ↦ LockProgram.Ends.bind (.dialogue _) fun bcmerror ↦ ?_
  exact LockProgram.Ends.release.bind fun _ ↦ .pure _

/-- The firmware does not refuse to switch the radio. -/
def radioSet : Question → ℤ → Prop
  | .wlcSet cmd _, answer => cmd = wlcSetRadio → 0 ≤ answer
  | _, _ => True

/-- Only the branch in which the firmware refuses ends with the lock taken. -/
theorem wlSetRadioBlock_ends (blocked : Bool) :
    (wlSetRadioBlock blocked).Ends radioSet false false := by
  refine LockProgram.Ends.acquire.bind fun _ ↦ .answered fun status hstatus ↦ ?_
  refine .ite (fun hneg ↦ ?_) fun _ ↦ LockProgram.Ends.release.bind fun _ ↦ .pure _
  exact absurd (hstatus rfl) (Int.not_le.mpr hneg)

/-! ## Calls -/

/-- The entry points of the kernel, and `wlc_ioctl_internal`. -/
inductive Call where
  | wlOpen (dev : Option NetDevice)
  | wlClose (dev : Option NetDevice)
  | wlIoctl (wlIwIoctl : IwHandler) (dev : Option NetDevice) (cmd : ℤ) (ioc : WlIoctl)
  | wlcIoctlInternal (dev : Option NetDevice) (cmd : ℤ)
  | wlSuspend
  | wlResume
  | wlRemove (dev : NetDevice)
  | wlSetMacAddress (dev : Option NetDevice)
  | wlSetMulticastList (dev : NetDevice)
  | wlSetMulticastListWorkitem (dev : NetDevice)
  | wlDpc
  | wlDpcRxwork
  | wlTimer
  | wlTimerTask
  | wlStart (dev : Option NetDevice)
  | wlStartTxqwork
  | wlProcRead (length offset : ℕ)
  | wlProcWrite (length : ℕ)
  | wlSetRadioBlock (blocked : Bool)

def Call.program (passive : Bool) : Call → Prog ℤ
  | .wlOpen dev => LockBalance.wlOpen dev
  | .wlClose dev => LockBalance.wlClose dev
  | .wlIoctl wlIwIoctl dev cmd ioc => LockBalance.wlIoctl wlIwIoctl dev cmd ioc
  | .wlcIoctlInternal dev cmd => LockBalance.wlcIoctlInternal dev cmd
  | .wlSuspend => LockBalance.wlSuspend
  | .wlResume => LockBalance.wlResume
  | .wlRemove dev => LockBalance.wlRemove dev
  | .wlSetMacAddress dev => LockBalance.wlSetMacAddress dev
  | .wlSetMulticastList dev => LockBalance.wlSetMulticastList passive dev
  | .wlSetMulticastListWorkitem dev => LockBalance.wlSetMulticastListWorkitem dev
  | .wlDpc => LockBalance.wlDpc passive
  | .wlDpcRxwork => LockBalance.wlDpcRxwork passive
  | .wlTimer => LockBalance.wlTimer passive
  | .wlTimerTask => LockBalance.wlTimerTask
  | .wlStart dev => LockBalance.wlStart passive dev
  | .wlStartTxqwork => LockBalance.wlStartTxqwork
  | .wlProcRead length offset => LockBalance.wlProcRead length offset
  | .wlProcWrite length => LockBalance.wlProcWrite length
  | .wlSetRadioBlock blocked => LockBalance.wlSetRadioBlock blocked

/-- Every call but `wl_set_radio_block` keeps the lock, whatever it is answered. -/
theorem program_ends {call : Call} (passive : Bool)
    (hcall : ∀ blocked, call ≠ .wlSetRadioBlock blocked) :
    (call.program passive).Ends allowed false false := by
  cases call with
  | wlOpen dev => exact wlOpen_ends dev
  | wlClose dev => exact wlClose_ends dev
  | wlIoctl wlIwIoctl dev cmd ioc => exact wlIoctl_ends wlIwIoctl dev cmd ioc
  | wlcIoctlInternal dev cmd => exact wlcIoctlInternal_ends dev cmd
  | wlSuspend => exact wlSuspend_ends
  | wlResume => exact wlResume_ends
  | wlRemove dev => exact wlRemove_ends dev
  | wlSetMacAddress dev => exact wlSetMacAddress_ends dev
  | wlSetMulticastList dev =>
    exact .ite (fun _ ↦ .dialogue _) fun _ ↦ wlSetMulticastListNow_ends dev
  | wlSetMulticastListWorkitem dev => exact wlSetMulticastListNow_ends dev
  | wlDpc => exact ends_around _
  | wlDpcRxwork => exact ends_around _
  | wlTimer => exact .ite (fun _ ↦ .dialogue _) fun _ ↦ ends_around _
  | wlTimerTask => exact ends_around _
  | wlStart dev =>
    cases dev with
    | none => exact .pure _
    | some dev => exact .ite (fun _ ↦ .dialogue _) fun _ ↦ wlStartInt_ends
  | wlStartTxqwork => exact wlStartTxqwork_ends
  | wlProcRead length offset => exact wlProcRead_ends length offset
  | wlProcWrite length => exact wlProcWrite_ends length
  | wlSetRadioBlock blocked => exact absurd rfl (hcall blocked)

theorem program_ends_radioSet (passive : Bool) (call : Call) :
    (call.program passive).Ends radioSet false false := by
  by_cases hcall : ∃ blocked, call = .wlSetRadioBlock blocked
  · obtain ⟨blocked, rfl⟩ := hcall
    exact wlSetRadioBlock_ends blocked
  · exact program_ends passive fun blocked heq ↦ hcall ⟨blocked, heq⟩

/-- Run alone with the lock free, the call returns, never takes the lock while it has it nor
releases it while it does not, and leaves it free. -/
def Balanced (passive : Bool) (answers : ℕ → Question → ℤ) (call : Call) : Prop :=
  ∃ result, (call.program passive).exec answers 0 false = some (result, false)

/-- If the call switches the radio, the firmware does not refuse. -/
def RadioAccepted (answers : ℕ → Question → ℤ) : Call → Prop
  | .wlSetRadioBlock blocked => 0 ≤ answers 0 (.wlcSet wlcSetRadio (radioval blocked))
  | _ => True

/-- The two ways `wl_set_radio_block` ends. -/
theorem wlSetRadioBlock_exec (answers : ℕ → Question → ℤ) (blocked : Bool) :
    (wlSetRadioBlock blocked).exec answers 0 false =
      if answers 0 (.wlcSet wlcSetRadio (radioval blocked)) < 0 then some (1, true)
      else some (0, false) := by
  change LockProgram.exec answers
    (if answers 0 (.wlcSet wlcSetRadio (radioval blocked)) < 0 then pure 1
      else release >>= fun _ ↦ pure 0) 1 true = _
  split <;> rfl

theorem balanced_iff (passive : Bool) (answers : ℕ → Question → ℤ) (call : Call) :
    Balanced passive answers call ↔ RadioAccepted answers call := by
  by_cases hcall : ∃ blocked, call = .wlSetRadioBlock blocked
  · obtain ⟨blocked, rfl⟩ := hcall
    unfold Balanced
    rw [show (Call.wlSetRadioBlock blocked).program passive = wlSetRadioBlock blocked from rfl,
      wlSetRadioBlock_exec]
    by_cases hneg : answers 0 (.wlcSet wlcSetRadio (radioval blocked)) < 0
    · simp [RadioAccepted, hneg]
    · simpa [RadioAccepted, hneg] using Int.not_lt.mp hneg
  · have hother : ∀ blocked, call ≠ .wlSetRadioBlock blocked :=
      fun blocked heq ↦ hcall ⟨blocked, heq⟩
    have hends : (call.program passive).Ends (fun _ _ ↦ True) false false :=
      program_ends passive hother
    refine iff_of_true (hends.exec (fun _ _ ↦ trivial) 0) ?_
    cases call <;> first | trivial | exact absurd rfl (hother _)

/-! ## Calls beside each other -/

/-- Any number of threads making calls; the answers of the environment are part of the run. -/
abbrev machine (passive : Bool) (Thread : Type) [DecidableEq Thread] :
    Machine (LockThreads Thread Question ℤ ℤ) (LockLabel Thread Call ℤ) :=
  LockThreads.machine (Call.program passive)

/-- The steps in which the firmware does not refuse to switch the radio. -/
def RadioStep {Thread : Type} : LockThreads Thread Question ℤ ℤ → LockLabel Thread Call ℤ → Prop :=
  LockThreads.Admits radioSet

/-- Nobody has released a lock it did not have, and whoever has the lock is not waiting for it
and comes to release it by its own steps. -/
def LockServed {Thread : Type} [DecidableEq Thread] (passive : Bool)
    (state : LockThreads Thread Question ℤ ℤ) : Prop :=
  state.faulted = false ∧ ∀ thread, state.holder = some thread →
    (∀ rest, state.program thread ≠ .lock rest) ∧
      ∀ reply : Question → ℤ, (∀ question, radioSet question (reply question)) →
        LockThreads.Frees (Call.program passive) reply thread state

/-- A call keeps the lock balanced exactly when it does not switch the radio against the
firmware's will; while no such call is made, no call waits for a lock nobody will release. -/
theorem lock_balanced_iff (passive : Bool) :
    (∀ call answers, Balanced passive answers call ↔ RadioAccepted answers call) ∧
      ∀ (Thread : Type) [DecidableEq Thread] (start final : LockThreads Thread Question ℤ ℤ)
        (labels : List (LockLabel Thread Call ℤ)), LockThreads.initial start →
        (machine passive Thread).Along RadioStep start labels →
        (machine passive Thread).run start labels = some final → LockServed passive final := by
  refine ⟨fun call answers ↦ balanced_iff passive answers call, ?_⟩
  intro Thread _ start final labels hstart halong hrun
  have horderly : LockThreads.Orderly radioSet final :=
    LockThreads.Orderly.run (program_ends_radioSet passive) hstart halong hrun
  refine ⟨horderly.faulted, fun thread hholder ↦ ⟨fun rest hwaits ↦ ?_, fun reply hreply ↦ ?_⟩⟩
  · exact horderly.waits_for_other hwaits hholder
  · exact horderly.holder_frees (Call.program passive) hholder hreply

/-- Two threads, both idle. -/
def idle : LockThreads Bool Question ℤ ℤ where
  program := fun _ ↦ .done 0
  holder := none
  faulted := false

theorem idle_initial : LockThreads.initial idle := ⟨fun _ ↦ ⟨0, rfl⟩, rfl, rfl⟩

/-- The first thread is switching the radio while the second waits to resume the device. -/
def switching : List (LockLabel Bool Call ℤ) :=
  [.begin true (.wlSetRadioBlock true), .proceed true 0, .begin false .wlDpc]

theorem lock_balanced_iff_switching :
    Balanced true (fun _ _ ↦ 0) (.wlSetRadioBlock true) ∧
      ∃ final, (machine true Bool).run idle switching = some final ∧
        final.holder = some true ∧ LockServed true final := by
  have halong : (machine true Bool).Along RadioStep idle switching := by
    refine Machine.Along.cons trivial rfl (Machine.Along.cons ?_ rfl ?_)
    · intro question rest hasks
      cases hasks
    · exact Machine.Along.cons trivial rfl trivial
  exact ⟨((lock_balanced_iff true).1 _ _).mpr (Int.le_refl 0), _, rfl, rfl,
    (lock_balanced_iff true).2 Bool idle _ switching idle_initial halong rfl⟩

/-- The firmware refuses to switch the radio; then the interrupt work wants the lock. -/
def refused : List (LockLabel Bool Call ℤ) :=
  [.begin true (.wlSetRadioBlock true), .proceed true 0, .proceed true (-1), .begin false .wlDpc]

/-- The call has returned with the lock taken, and the second thread waits for it. -/
theorem radio_block_keeps_lock :
    ¬Balanced true (fun _ _ ↦ -1) (.wlSetRadioBlock true) ∧
      ∃ final rest, (machine true Bool).run idle refused = some final ∧
        final.holder = some true ∧ final.program true = .done 1 ∧
        final.program false = .lock rest := by
  refine ⟨?_, _, _, rfl, rfl, rfl, rfl⟩
  rintro ⟨result, hresult⟩
  cases hresult

end BroadcomWl.Linux.LockBalance
