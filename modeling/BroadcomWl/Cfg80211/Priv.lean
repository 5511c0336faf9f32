import Mathlib.Data.Int.Order.Basic
import Mathlib.Logic.Function.Basic

/-!
# The state behind cfg80211

`struct wl_cfg80211_priv` as the event handlers see it: the mode, the pending scan, the
profile of the network, the information elements of the association, and the two status
bits. The elements are buffers made by `kmemdup`; the heap keeps their bytes and counts
how often each was freed. Calls into cfg80211 are recorded in order.

Everything the driver asks the firmware or the allocator while it handles one event is
given by an `Answers` value. `wl_update_bss_info` only contributes its result: what it
does to the list of known networks is not part of this module.
-/

namespace BroadcomWl.Cfg80211

abbrev EtherAddr := Vector UInt8 6

/-- `conf->mode`; `unset` is the value `(u32)-1` left by `wl_init_conf`. -/
inductive Mode where
  | bss
  | ibss
  | ap
  | unset
deriving DecidableEq, Repr

/-- `struct wlc_ssid`: the bytes that count. -/
abbrev Ssid := List UInt8

/-- `struct wl_cfg80211_security`. -/
structure Security where
  wpaVersions : UInt32
  authType : UInt32
  cipherPairwise : UInt32
  cipherGroup : UInt32
  wpaAuth : UInt32
deriving DecidableEq, Repr

/-- `struct wl_cfg80211_profile`. -/
structure Profile where
  ssid : Ssid
  bssid : EtherAddr
  sec : Security
  active : Bool
deriving DecidableEq

/-- `wl_init_prof`: all bytes zero. -/
def wlInitProf : Profile := ⟨[], Vector.replicate 6 0, ⟨0, 0, 0, 0, 0⟩, false⟩

/-! ## Buffers -/

/-- Buffers are named by their number; `frees` counts the calls of `kfree` on each. -/
structure Heap where
  next : ℕ
  bytes : ℕ → List UInt8
  frees : ℕ → ℕ

/-- `kmemdup` of `len` bytes; the conversion of a negative length to `size_t` makes it fail. -/
def Heap.kmemdup (heap : Heap) (source : ℕ → UInt8) (len : Int32) (success : Bool) :
    Option ℕ × Heap :=
  if success ∧ 0 ≤ len.toInt then
    (some heap.next,
      { heap with
        next := heap.next + 1
        bytes := Function.update heap.bytes heap.next
          ((List.range len.toInt.toNat).map source) })
  else (none, heap)

/-- `kfree`, which ignores a null pointer. -/
def Heap.kfree (heap : Heap) : Option ℕ → Heap
  | none => heap
  | some ie => { heap with frees := Function.update heap.frees ie (heap.frees ie + 1) }

/-- One half of `struct wl_cfg80211_connect_info`. -/
structure IePart where
  ie : Option ℕ
  ieLen : Int32
deriving DecidableEq

/-- `struct wl_cfg80211_connect_info`. -/
structure ConnectInfo where
  req : IePart
  resp : IePart
deriving DecidableEq

/-! ## Calls into cfg80211 -/

/-- The calls of cfg80211 that handlers make, with the arguments they pass. -/
inductive Upcall where
  | scanDone (request : ℕ) (aborted : Bool)
  | connectResult (bssid : EtherAddr) (conn : ConnectInfo) (success : Bool)
  | disconnected
  | roamed (bssid : EtherAddr) (conn : ConnectInfo)
  | ibssJoined (bssid : EtherAddr) (chan : ℕ) (band2GHz : Bool)
  | michaelMicFailure (addr : EtherAddr) (group : Bool)
deriving DecidableEq

/-- The fields of `struct wl_cfg80211_priv` that handlers read or write, the heap, and the calls
made so far. -/
structure Priv where
  mode : Mode
  scanRequest : Option ℕ
  bssid : EtherAddr
  profile : Profile
  connInfo : ConnectInfo
  connecting : Bool
  connected : Bool
  heap : Heap
  upcalls : List Upcall

def Priv.call (priv : Priv) (upcall : Upcall) : Priv :=
  { priv with upcalls := priv.upcalls ++ [upcall] }

/-- `wl_is_ibssmode`. -/
def wlIsIbssmode (priv : Priv) : Bool := priv.mode == .ibss

/-! ## Answers -/

/-- What is read for one half: its length in `assoc_info`, the result of its own read, the bytes
that `kmemdup` finds, and whether `kmemdup` succeeds. -/
structure IeAnswer where
  len : UInt32
  err : ℤ
  bytes : ℕ → UInt8
  copied : Bool

/-- What one event handling is told: the result of reading `assoc_info` and both halves, the
result of `wl_update_bss_info`, the result of reading `chanspec` with its control channel, and
the result of fetching scan results. -/
structure Answers where
  infoErr : ℤ
  req : IeAnswer
  resp : IeAnswer
  bssErr : ℤ
  chanspecErr : ℤ
  ctlchan : ℕ
  scanErr : ℤ

/-! ## Association information elements -/

/-- The part of `wl_get_assoc_ies` for one half. -/
def fetchPart (answer : IeAnswer) (part : IePart) (heap : Heap) : ℤ × IePart × Heap :=
  if answer.len ≠ 0 then
    if answer.err ≠ 0 then (answer.err, part, heap)
    else
      let ieLen := answer.len.toInt32
      let (ie, heap) := heap.kmemdup answer.bytes ieLen answer.copied
      (0, ⟨ie, ieLen⟩, heap)
  else (0, ⟨none, 0⟩, heap)

/-- `wl_get_assoc_ies`. -/
def wlGetAssocIes (answers : Answers) (priv : Priv) : ℤ × Priv :=
  if answers.infoErr ≠ 0 then (answers.infoErr, priv)
  else
    let (err, req, heap) := fetchPart answers.req priv.connInfo.req priv.heap
    let priv := { priv with connInfo := { priv.connInfo with req := req }, heap := heap }
    if err ≠ 0 then (err, priv)
    else
      let (err, resp, heap) := fetchPart answers.resp priv.connInfo.resp priv.heap
      (err, { priv with connInfo := { priv.connInfo with resp := resp }, heap := heap })

/-- `wl_link_down`. -/
def wlLinkDown (priv : Priv) : Priv :=
  { priv with
    connInfo := ⟨⟨none, 0⟩, ⟨none, 0⟩⟩
    heap := (priv.heap.kfree priv.connInfo.req.ie).kfree priv.connInfo.resp.ie }

/-- A pending scan is completed and forgotten. -/
def completeScan (aborted : Bool) (priv : Priv) : Priv :=
  match priv.scanRequest with
  | none => priv
  | some request => { priv.call (.scanDone request aborted) with scanRequest := none }

end BroadcomWl.Cfg80211
