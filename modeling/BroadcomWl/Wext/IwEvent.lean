import BroadcomWl.Cfg80211.Events
import BroadcomWl.Wext.IwHandlers
import Mathlib.Data.List.TakeWhile

/-!
# Wireless events

`wl_iw_event` turns a firmware event into events of the wireless extensions: the switch puts a
payload together in `extra` and sets its length, a common tail sends it, and a connection failure
is sent as a text behind that. `wl_iw_send_priv_event` sends a text of its caller.

The model keeps what is read from the data of the event, what is stored in `extra`, and every event
that is sent with the stores since `extra` was last zeroed. These stores are the bytes that were set
for the event. `struct iwreq_data` has the layout of a 64-bit machine, where the length does not
share bytes with the address.
-/

namespace BroadcomWl.Wext.Event

open BroadcomWl.Memory
open BroadcomWl.Cfg80211 (EtherAddr)
open BroadcomWl.Cfg80211.ScanResults (byteT uint16T uint32T)
open BroadcomWl.Cfg80211.Wlc (eventMsgLink eventMsgGroup)
open BroadcomWl.Wext.Iw (sockaddrT saDataAt)

def iwCustomMax : ℕ := 256

/-- `sizeof(extra)`. -/
def extraSize : ℕ := iwCustomMax + 1

def etherAddrLen : ℕ := 6

def arphrdEther : UInt16 := 1
def iwMicfailureGroup : ℕ := 0x20
def iwMicfailurePairwise : ℕ := 0x40
def iwPmkidCandPreauth : ℕ := 1

/-! ## Layout -/

def pointerT : Extent := ⟨8, 8⟩

/-- `flags`, `src_addr` and `tsc`. -/
def iwMichaelmicfailureT : Extent := .struct [uint32T, sockaddrT, byteT.array 8]

/-- `flags`, `index` and `bssid`. -/
def iwPmkidCandT : Extent := .struct [uint32T, uint32T, sockaddrT]

/-- `BSSID` and `preauth`. -/
def pmkidCandT : Extent := .struct [byteT.array 6, byteT]

def iwPmkidCandSize : ℕ := 24
def pmkidCandSize : ℕ := 7

/-- `preauth` in `pmkid_cand_t`. -/
def preauthAt : ℕ := 6

/-- `pmkid_cand` in `pmkid_cand_list_t`. -/
def pmkidCandAt : ℕ := 4

/-- `bssid.sa_data` in `struct iw_pmkid_cand`. -/
def bssidAt : ℕ := 10

/-- The sizes and offsets are those of the declarations, and `data.length` lies behind the address
in `addr.sa_data`. -/
theorem sizes_of_layout :
    [iwMichaelmicfailureT.size, iwPmkidCandT.size, pmkidCandT.size,
      Extent.offsetAfter [byteT.array 6] byteT, Extent.offsetAfter [uint32T] pmkidCandT,
      Extent.offsetAfter [uint32T, uint32T] sockaddrT + saDataAt] =
    [28, iwPmkidCandSize, pmkidCandSize, preauthAt, pmkidCandAt, bssidAt] ∧
      saDataAt + etherAddrLen ≤ Extent.offsetAfter [pointerT] uint16T := by decide

/-! ## Firmware events -/

/-- The types that are told apart here. `bcmevent.h`, which numbers them, is not part of the
repository. -/
inductive EventType where
  | setSsid
  | join
  | auth
  | deauthInd
  | assocInd
  | reassoc
  | reassocInd
  | disassoc
  | disassocInd
  | link
  | micError
  | ndisLink
  | txfail
  | pmkidCache
  | prune
  | scanComplete
  | actionFrame
  | actionFrameComplete
  | assocReqIe
  | assocRespIe
  | other
deriving DecidableEq, Repr

/-- `wl_event_msg_t` and the data behind it: `datalen` bytes, of which there are none when `data`
is `NULL`. -/
structure WlEvent where
  eventType : EventType
  flags : UInt16
  status : UInt32
  reason : UInt32
  addr : EtherAddr
  datalen : UInt32
  data : Option (ℕ → UInt8)
  datalen_of_null : data = none → datalen = 0

/-- What reading behind `data` gives. -/
def WlEvent.bytes (e : WlEvent) : ℕ → UInt8 := e.data.getD fun _ ↦ 0

/-! ## What is sent -/

inductive Cmd where
  | iwevtxdrop
  | iwevregistered
  | siocgiwap
  | siocgiwscan
  | iwevcustom
  | iwevmichaelmicfailure
  | iwevassocreqie
  | iwevassocrespie
  | iwevpmkidcand
deriving DecidableEq, Repr

/-- `union iwreq_data`: `addr` and `data.length`. -/
structure IwreqData where
  saFamily : UInt16
  saData : EtherAddr
  length : UInt16

/-- One `wireless_send_event`; `extra` is `NULL` or holds what the stores have left. -/
structure Sent where
  cmd : Cmd
  wrqu : IwreqData
  extra : Option (List Store)

structure State where
  wrqu : IwreqData
  extra : List Store
  reads : List Range
  writes : List Range
  sent : List Sent

/-- The contents of `extra`, which is zeroed before the stores. -/
def content (extra : List Store) : ℕ → UInt8 := fill extra fun _ ↦ 0

def strlen (extra : List Store) : ℕ :=
  ((slice (content extra) 0 extraSize).takeWhile (· ≠ 0)).length

namespace State

variable (state : State)

/-- `memset(extra, 0, sizeof(extra))`. -/
def memset : State :=
  { state with
    extra := []
    writes := state.writes ++ [⟨0, extraSize⟩] }

def store (store : Store) : State :=
  { state with
    extra := state.extra ++ [store]
    writes := state.writes ++ [store.span] }

def read (range : Range) : State := { state with reads := state.reads ++ [range] }

def setLength (length : ℕ) : State :=
  { state with wrqu := { state.wrqu with length := UInt16.ofNat length } }

/-- `bzero(wrqu.addr.sa_data, ETHER_ADDR_LEN)`. -/
def zeroAddr : State :=
  { state with wrqu := { state.wrqu with saData := Vector.replicate 6 0 } }

def send (cmd : Cmd) (extra : Option (List Store)) : State :=
  { state with sent := state.sent ++ [⟨cmd, state.wrqu, extra⟩] }

/-- `memcpy(&extra[offset], data, datalen)`. -/
def copyData (e : WlEvent) (offset : ℕ) : State :=
  (state.read ⟨0, e.datalen.toNat⟩).store ⟨offset, slice e.bytes 0 e.datalen.toNat⟩

end State

/-! ## `wl_iw_event` -/

/-- Up to the switch. -/
def start (e : WlEvent) : State where
  wrqu := ⟨arphrdEther, e.addr, 0⟩
  extra := []
  reads := []
  writes := [⟨0, extraSize⟩]
  sent := []

/-- The structure that `WLC_E_MIC_ERROR` lays over `extra`; the members that it leaves alone are
zero. -/
def michaelmicfailure (e : WlEvent) : List UInt8 :=
  let flags := if e.flags &&& eventMsgGroup ≠ 0 then iwMicfailureGroup else iwMicfailurePairwise
  le32 flags ++ le16 arphrdEther.toNat ++ e.addr.toList ++ List.replicate 8 0 ++
    List.replicate 8 0

/-- `WLC_E_ASSOC_REQ_IE` and `WLC_E_ASSOC_RESP_IE`. -/
def assocIe (e : WlEvent) (state : State) : State :=
  let state := state.setLength e.datalen.toNat
  if e.datalen.toNat < extraSize then state.copyData e 0 else state

/-- `ntoh32_ua`. -/
def ntoh32Ua (bytes : ℕ → UInt8) : ℕ :=
  (bytes 0).toNat * 2 ^ 24 + (bytes 1).toNat * 2 ^ 16 + (bytes 2).toNat * 2 ^ 8 + (bytes 3).toNat

/-- What the loop of `WLC_E_PMKID_CACHE` does to `extra` for the candidate at `pmkidcand`. -/
def storeCandidate (data : ℕ → UInt8) (pmkidcand : ℕ) (state : State) : State :=
  let state := state.store ⟨0, List.replicate iwPmkidCandSize 0⟩
  let state := state.read ⟨pmkidcand + preauthAt, 1⟩
  let state :=
    if data (pmkidcand + preauthAt) ≠ 0 then
      state.store ⟨0, le32 (load32 (content state.extra) 0 ||| iwPmkidCandPreauth)⟩
    else state
  let state := state.read ⟨pmkidcand, etherAddrLen⟩
  state.store ⟨bssidAt, slice data pmkidcand etherAddrLen⟩

/-- The body of the loop. -/
def pmkidCandidate (data : ℕ → UInt8) (pmkidcand : ℕ) (state : State) : State :=
  let state := storeCandidate data pmkidcand state
  state.send .iwevpmkidcand (some state.extra)

/-- The loop. The count is signed, but only compared with zero: a negative one runs down through
all 32 bits. -/
def pmkidLoop (data : ℕ → UInt8) : ℕ → ℕ → State → State
  | 0, _, state => state
  | count + 1, pmkidcand, state =>
      pmkidLoop data count (pmkidcand + pmkidCandSize) (pmkidCandidate data pmkidcand state)

section Switch

variable (code : EventType → UInt8)

/-- The switch; `cmd` stays zero where the result is `none`. -/
def eventCase (e : WlEvent) (state : State) : Option Cmd × State :=
  match e.eventType with
  | .txfail => (some .iwevtxdrop, state)
  | .join | .assocInd | .reassocInd => (some .iwevregistered, state)
  | .deauthInd | .disassocInd =>
      let state := (state.setLength (strlen state.extra)).zeroAddr
      (some .siocgiwap, state.store ⟨0, List.replicate etherAddrLen 0⟩)
  | .link | .ndisLink =>
      let state := state.setLength (strlen state.extra)
      if e.flags &&& eventMsgLink = 0 then
        (some .siocgiwap, state.zeroAddr.store ⟨0, List.replicate etherAddrLen 0⟩)
      else (some .siocgiwap, state)
  | .actionFrame =>
      -- the sum has 32 bits
      if (e.datalen + 1).toNat ≤ extraSize then
        let state := (state.setLength (e.datalen + 1).toNat).store ⟨0, [code .actionFrame]⟩
        (some .iwevcustom, state.copyData e 1)
      else (some .iwevcustom, state)
  | .actionFrameComplete =>
      let state := (state.setLength 5).store ⟨0, [code .actionFrameComplete]⟩
      (some .iwevcustom, state.store ⟨1, le32 e.status.toNat⟩)
  | .micError =>
      (some .iwevmichaelmicfailure,
        (state.setLength iwMichaelmicfailureT.size).store ⟨0, michaelmicfailure e⟩)
  | .assocReqIe => (some .iwevassocreqie, assocIe e state)
  | .assocRespIe => (some .iwevassocrespie, assocIe e state)
  | .pmkidCache =>
      match e.data with
      | none => (none, state)
      | some data =>
          let state := (state.read ⟨0, 4⟩).setLength iwPmkidCandSize
          (some .iwevpmkidcand, pmkidLoop data (ntoh32Ua data) pmkidCandAt state)
  | .scanComplete => (some .siocgiwscan, state)
  | _ => (none, state)

/-- The tail of the switch. -/
def sendCase (switched : Option Cmd × State) : State :=
  match switched with
  | (none, state) => state
  | (some .siocgiwscan, state) => state.send .siocgiwscan none
  | (some cmd, state) => state.send cmd (some state.extra)

end Switch

/-! ### Connection failures -/

def eStatusSuccess : UInt32 := 0
def eStatusFail : UInt32 := 1
def eStatusTimeout : UInt32 := 2
def eStatusNoNetworks : UInt32 := 3
def eStatusAbort : UInt32 := 4
def eStatusNoAck : UInt32 := 5

def ePruneEncrMismatch : UInt32 := 1
def eRsnMismatch : UInt32 := 8

def wlIwDontCare : UInt32 := 9999

/-- `conn_fail_event_map_t`. -/
structure ConnFailEventMap where
  inEvent : EventType
  inStatus : UInt32
  inReason : UInt32
  outName : String
  outCause : String

def eventMap : List ConnFailEventMap :=
  [⟨.setSsid, eStatusSuccess, wlIwDontCare, "Conn", "Success"⟩,
    ⟨.setSsid, eStatusNoNetworks, wlIwDontCare, "Conn", "NoNetworks"⟩,
    ⟨.setSsid, eStatusFail, wlIwDontCare, "Conn", "ConfigMismatch"⟩,
    ⟨.prune, wlIwDontCare, ePruneEncrMismatch, "Conn", "EncrypMismatch"⟩,
    ⟨.prune, wlIwDontCare, eRsnMismatch, "Conn", "RsnMismatch"⟩,
    ⟨.auth, eStatusTimeout, wlIwDontCare, "Conn", "AuthTimeout"⟩,
    ⟨.auth, eStatusFail, wlIwDontCare, "Conn", "AuthFail"⟩,
    ⟨.auth, eStatusNoAck, wlIwDontCare, "Conn", "AuthNoAck"⟩,
    ⟨.reassoc, eStatusFail, wlIwDontCare, "Conn", "ReassocFail"⟩,
    ⟨.reassoc, eStatusTimeout, wlIwDontCare, "Conn", "ReassocTimeout"⟩,
    ⟨.reassoc, eStatusAbort, wlIwDontCare, "Conn", "ReassocAbort"⟩,
    ⟨.deauthInd, wlIwDontCare, wlIwDontCare, "Conn", "Deauth"⟩,
    ⟨.disassocInd, wlIwDontCare, wlIwDontCare, "Conn", "DisassocInd"⟩,
    ⟨.disassoc, wlIwDontCare, wlIwDontCare, "Conn", "Disassoc"⟩]

def ConnFailEventMap.matches (row : ConnFailEventMap) (e : WlEvent) : Bool :=
  row.inEvent == e.eventType && (row.inStatus == e.status || row.inStatus == wlIwDontCare) &&
    (row.inReason == e.reason || row.inReason == wlIwDontCare)

/-- `%02d`. -/
def format02d (value : UInt32) : String :=
  let number := value.toInt32.toInt
  if 0 ≤ number ∧ number < 10 then "0" ++ toString number else toString number

/-- The characters of a text in ASCII. -/
def ascii (text : String) : List UInt8 := text.toList.map fun char ↦ UInt8.ofNat char.toNat

/-- The text of `wl_iw_conn_status_str`. -/
def wlIwConnStatusStr (e : WlEvent) : Option (List UInt8) :=
  (eventMap.find? (·.matches e)).map fun row ↦
    ascii (row.outName ++ " " ++ row.outCause ++ " " ++ format02d e.status ++ " " ++
      format02d e.reason)

/-- `snprintf` into the whole of `extra`. -/
def State.snprintf (text : List UInt8) (state : State) : State :=
  state.store ⟨0, text.take (extraSize - 1) ++ [0]⟩

/-- What follows the tail. -/
def sendConnFail (e : WlEvent) (state : State) : State :=
  let state := state.memset
  match wlIwConnStatusStr e with
  | none => state
  | some text =>
      let state := state.memset.snprintf text
      let state := state.setLength (strlen state.extra)
      state.send .iwevcustom (some state.extra)

/-- `wl_iw_event`. -/
def wlIwEvent (code : EventType → UInt8) (e : WlEvent) : State :=
  sendConnFail e (sendCase (eventCase code e (start e)))

/-! ## `wl_iw_send_priv_event` -/

/-- A string of C, without its final zero. -/
def CString := { bytes : List UInt8 // 0 ∉ bytes }

/-- The result and the state; `extra` is on the stack, and what it holds before is not read. -/
def wlIwSendPrivEvent (flag : CString) : ℤ × State :=
  let state : State := ⟨⟨0, Vector.replicate 6 0, 0⟩, [], [], [], []⟩
  if flag.val.length > extraSize then (-1, state)
  else
    let state := state.store ⟨0, flag.val ++ [0]⟩
    let state := state.setLength (strlen state.extra)
    (0, state.send .iwevcustom (some state.extra))

/-! ## Bounds -/

/-- How many bytes of `extra` the stores have set. -/
def bytesSet (extra : List Store) : ℕ :=
  (List.range extraSize).countP fun i ↦ decide (Covered extra i)

/-- Nothing is read outside the `size` bytes of data, nothing is stored outside `extra`, and every
event that is sent has its length among the bytes that were set. -/
structure State.Bounded (state : State) (size : ℕ) : Prop where
  reads : ∀ range ∈ state.reads, range.Inside size
  writes : ∀ range ∈ state.writes, range.Inside extraSize
  sent : ∀ sent ∈ state.sent, sent.wrqu.length.toNat ≤ bytesSet (sent.extra.getD [])

theorem le_bytesSet {extra : List Store} {n : ℕ} (h : ∀ i < n, Covered extra i)
    (hn : n ≤ extraSize) : n ≤ bytesSet extra := by
  have hall : (List.range n).countP (fun i ↦ decide (Covered extra i)) = n := by
    rw [List.countP_eq_length.mpr, List.length_range]
    exact fun i hi ↦ decide_eq_true (h i (List.mem_range.mp hi))
  calc
    n = (List.range n).countP fun i ↦ decide (Covered extra i) := hall.symm
    _ ≤ bytesSet extra := (List.range_sublist.mpr hn).countP_le

theorem bytesSet_nil : bytesSet [] = 0 :=
  List.countP_eq_zero.mpr fun i _ hcovered ↦ not_covered_nil i (of_decide_eq_true hcovered)

/-- A zero ends the string. -/
theorem strlen_le {extra : List Store} {i : ℕ} (h : content extra i = 0) : strlen extra ≤ i := by
  by_contra hlt
  have hi := Nat.not_le.mp hlt
  have hget := (List.takeWhile_prefix (fun byte ↦ decide (byte ≠ 0))).getElem hi
  have hmem := List.mem_takeWhile_imp (List.getElem_mem hi)
  rw [hget] at hmem
  refine of_decide_eq_true hmem ?_
  simpa [slice] using h

theorem forall_mem_concat {α : Type*} {p : α → Prop} {list : List α} {last : α} :
    (∀ entry ∈ list ++ [last], p entry) ↔ (∀ entry ∈ list, p entry) ∧ p last := by
  rw [List.forall_mem_append, List.forall_mem_singleton]

theorem store_inside {offset : ℕ} {bytes : List UInt8} (h : offset + bytes.length ≤ extraSize) :
    (Store.span ⟨offset, bytes⟩).Inside extraSize := Range.inside_iff.mpr (.inr h)

section Steps

variable {state : State} {size : ℕ}

theorem bounded_read {range : Range} :
    (state.read range).Bounded size ↔ state.Bounded size ∧ range.Inside size := by
  constructor
  · rintro ⟨hreads, hwrites, hsent⟩
    have hboth := forall_mem_concat.mp hreads
    exact ⟨⟨hboth.1, hwrites, hsent⟩, hboth.2⟩
  · rintro ⟨⟨hreads, hwrites, hsent⟩, hrange⟩
    exact ⟨forall_mem_concat.mpr ⟨hreads, hrange⟩, hwrites, hsent⟩

theorem bounded_store {store : Store} :
    (state.store store).Bounded size ↔ state.Bounded size ∧ store.span.Inside extraSize := by
  constructor
  · rintro ⟨hreads, hwrites, hsent⟩
    have hboth := forall_mem_concat.mp hwrites
    exact ⟨⟨hreads, hboth.1, hsent⟩, hboth.2⟩
  · rintro ⟨⟨hreads, hwrites, hsent⟩, hstore⟩
    exact ⟨hreads, forall_mem_concat.mpr ⟨hwrites, hstore⟩, hsent⟩

theorem bounded_send {cmd : Cmd} {extra : Option (List Store)} :
    (state.send cmd extra).Bounded size ↔
      state.Bounded size ∧ state.wrqu.length.toNat ≤ bytesSet (extra.getD []) := by
  constructor
  · rintro ⟨hreads, hwrites, hsent⟩
    have hboth := forall_mem_concat.mp hsent
    exact ⟨⟨hreads, hwrites, hboth.1⟩, hboth.2⟩
  · rintro ⟨⟨hreads, hwrites, hsent⟩, hlength⟩
    exact ⟨hreads, hwrites, forall_mem_concat.mpr ⟨hsent, hlength⟩⟩

theorem bounded_memset : state.memset.Bounded size ↔ state.Bounded size := by
  constructor
  · rintro ⟨hreads, hwrites, hsent⟩
    exact ⟨hreads, (forall_mem_concat.mp hwrites).1, hsent⟩
  · rintro ⟨hreads, hwrites, hsent⟩
    have hwhole : Range.Inside ⟨0, extraSize⟩ extraSize := Range.inside_iff.mpr (.inr le_rfl)
    exact ⟨hreads, forall_mem_concat.mpr ⟨hwrites, hwhole⟩, hsent⟩

theorem bounded_setLength {length : ℕ} :
    (state.setLength length).Bounded size ↔ state.Bounded size :=
  ⟨fun ⟨hreads, hwrites, hsent⟩ ↦ ⟨hreads, hwrites, hsent⟩,
    fun ⟨hreads, hwrites, hsent⟩ ↦ ⟨hreads, hwrites, hsent⟩⟩

theorem bounded_zeroAddr : state.zeroAddr.Bounded size ↔ state.Bounded size :=
  ⟨fun ⟨hreads, hwrites, hsent⟩ ↦ ⟨hreads, hwrites, hsent⟩,
    fun ⟨hreads, hwrites, hsent⟩ ↦ ⟨hreads, hwrites, hsent⟩⟩

end Steps

section Cases

variable {state : State} {size : ℕ}

theorem start_bounded (e : WlEvent) : (start e).Bounded size where
  reads := List.forall_mem_nil _
  writes := List.forall_mem_singleton.mpr (Range.inside_iff.mpr (.inr le_rfl))
  sent := List.forall_mem_nil _

theorem strlen_nil : strlen [] = 0 := Nat.le_zero.mp (strlen_le rfl)

/-- A string behind its copy: the final zero is stored too. -/
theorem strlen_le_bytesSet {text : List UInt8} (h : text.length < extraSize) :
    strlen [⟨0, text ++ [0]⟩] ≤ text.length ∧ text.length ≤ bytesSet [⟨0, text ++ [0]⟩] := by
  constructor
  · refine strlen_le ?_
    have hholds : Holds [⟨0, text ++ [0]⟩] 0 (text ++ [0]) := Holds.single 0 (text ++ [0])
    have hzero := Holds.byte (Holds.drop hholds) fun _ ↦ 0
    rwa [Nat.zero_add] at hzero
  · refine le_bytesSet (fun i hi ↦ covered_singleton.mpr ?_) h.le
    simp only [Range.Covers, Store.span, List.length_append, List.length_singleton]
    omega

theorem bounded_sendConnFail (e : WlEvent) :
    (sendConnFail e state).Bounded size ↔ state.Bounded size := by
  unfold sendConnFail
  cases wlIwConnStatusStr e with
  | none => exact bounded_memset
  | some text =>
    have hlength : (text.take (extraSize - 1)).length < extraSize := by
      rw [List.length_take]
      exact (min_le_left _ _).trans_lt (by decide)
    obtain ⟨hstrlen, hset⟩ := strlen_le_bytesSet hlength
    have hinside : (Store.span ⟨0, text.take (extraSize - 1) ++ [0]⟩).Inside extraSize := by
      refine store_inside ?_
      rw [List.length_append, List.length_singleton]
      omega
    dsimp only
    rw [bounded_send, bounded_setLength, State.snprintf, bounded_store, bounded_memset,
      bounded_memset]
    have hsent : (UInt16.ofNat (strlen [⟨0, text.take (extraSize - 1) ++ [0]⟩])).toNat ≤
        bytesSet [⟨0, text.take (extraSize - 1) ++ [0]⟩] := by
      rw [UInt16.toNat_ofNat']
      exact (Nat.mod_le _ _).trans (hstrlen.trans hset)
    exact ⟨fun h ↦ h.1.1, fun h ↦ ⟨⟨h, hinside⟩, hsent⟩⟩

theorem bounded_copyData {e : WlEvent} {offset : ℕ} :
    (state.copyData e offset).Bounded e.datalen.toNat ↔
      state.Bounded e.datalen.toNat ∧
        (e.datalen.toNat = 0 ∨ offset + e.datalen.toNat ≤ extraSize) := by
  have hread : Range.Inside ⟨0, e.datalen.toNat⟩ e.datalen.toNat :=
    Range.inside_iff.mpr (.inr (Nat.zero_add _).le)
  have hstore : (Store.span ⟨offset, slice e.bytes 0 e.datalen.toNat⟩).Inside extraSize ↔
      e.datalen.toNat = 0 ∨ offset + e.datalen.toNat ≤ extraSize := by
    rw [Store.span, length_slice]
    exact Range.inside_iff
  rw [State.copyData, bounded_store, bounded_read, hstore, and_iff_left hread]

/-- Every payload but that of `SIOCGIWSCAN` is in `extra`. -/
theorem bounded_sendCase {cmd : Cmd} (h : cmd ≠ .siocgiwscan) :
    (sendCase (some cmd, state)).Bounded size ↔
      state.Bounded size ∧ state.wrqu.length.toNat ≤ bytesSet state.extra := by
  cases cmd with
  | siocgiwscan => exact absurd rfl h
  | _ => exact bounded_send

/-- `WLC_E_ACTION_FRAME`: only the 32-bit sum can go wrong. -/
theorem bounded_actionFrame {code : EventType → UInt8} {e : WlEvent}
    (hkind : e.eventType = .actionFrame) :
    (sendCase (eventCase code e (start e))).Bounded e.datalen.toNat ↔
      e.datalen.toNat ≠ 2 ^ 32 - 1 := by
  have hsum : (e.datalen + 1).toNat = (e.datalen.toNat + 1) % 2 ^ 32 := UInt32.toNat_add _ _
  have hlt := e.datalen.toNat_lt
  have hsize : extraSize = 257 := rfl
  rw [eventCase, hkind]
  dsimp only
  split
  next hle =>
    rw [bounded_sendCase (by decide), bounded_copyData, bounded_store, bounded_setLength]
    constructor
    · rintro ⟨⟨-, hcopied⟩, -⟩ hwrap
      omega
    · intro hne
      have hfits : e.datalen.toNat + 1 ≤ extraSize := by omega
      have hcode : (Store.span ⟨0, [code .actionFrame]⟩).Inside extraSize :=
        store_inside (show 0 + 1 ≤ extraSize by decide)
      refine ⟨⟨⟨start_bounded e, hcode⟩, .inr (by omega)⟩, ?_⟩
      have hset : e.datalen.toNat + 1 ≤ bytesSet
          [⟨0, [code .actionFrame]⟩, ⟨1, slice e.bytes 0 e.datalen.toNat⟩] := by
        refine le_bytesSet (fun i hi ↦ ?_) hfits
        rw [covered_cons, covered_singleton]
        simp only [Range.Covers, Store.span, length_slice, List.length_singleton]
        omega
      have hlength : (UInt16.ofNat (e.datalen + 1).toNat).toNat ≤ e.datalen.toNat + 1 := by
        rw [UInt16.toNat_ofNat', hsum]
        exact (Nat.mod_le _ _).trans (Nat.mod_le _ _)
      exact hlength.trans hset
  next hgt =>
    rw [bounded_sendCase (by decide)]
    exact iff_of_true ⟨start_bounded e, Nat.zero_le _⟩ (by omega)

/-- `WLC_E_ASSOC_REQ_IE` and `WLC_E_ASSOC_RESP_IE`: the length is set whether the data is copied
or not. -/
theorem bounded_assocIe (e : WlEvent) :
    ((assocIe e (start e)).Bounded e.datalen.toNat ∧
      (assocIe e (start e)).wrqu.length.toNat ≤ bytesSet (assocIe e (start e)).extra) ↔
        e.datalen.toNat < extraSize ∨ e.datalen.toNat % 65536 = 0 := by
  unfold assocIe
  dsimp only
  split
  next hlt =>
    refine iff_of_true ⟨?_, ?_⟩ (.inl hlt)
    · rw [bounded_copyData, bounded_setLength]
      exact ⟨start_bounded e, .inr (by omega)⟩
    · have hset : e.datalen.toNat ≤ bytesSet [⟨0, slice e.bytes 0 e.datalen.toNat⟩] := by
        refine le_bytesSet (fun i hi ↦ covered_singleton.mpr ?_) hlt.le
        simp only [Range.Covers, Store.span, length_slice]
        omega
      refine le_trans ?_ hset
      change (UInt16.ofNat e.datalen.toNat).toNat ≤ _
      rw [UInt16.toNat_ofNat']
      exact Nat.mod_le _ _
  next hge =>
    rw [bounded_setLength]
    have hnone : bytesSet ((start e).setLength e.datalen.toNat).extra = 0 := bytesSet_nil
    have hlength : ((start e).setLength e.datalen.toNat).wrqu.length.toNat =
        e.datalen.toNat % 65536 := UInt16.toNat_ofNat'
    rw [hnone, hlength, Nat.le_zero]
    exact ⟨fun h ↦ .inr h.2, fun h ↦ ⟨start_bounded e, h.resolve_left hge⟩⟩

/-! ### The candidates -/

theorem storeCandidate_wrqu (data : ℕ → UInt8) (pmkidcand : ℕ) (state : State) :
    (storeCandidate data pmkidcand state).wrqu = state.wrqu := by
  unfold storeCandidate
  dsimp only
  split <;> rfl

/-- A candidate sets the whole of its structure. -/
theorem storeCandidate_set (data : ℕ → UInt8) (pmkidcand : ℕ) (state : State) :
    iwPmkidCandSize ≤ bytesSet (storeCandidate data pmkidcand state).extra := by
  refine le_bytesSet (fun i hi ↦ ?_) (by decide)
  refine ⟨⟨0, List.replicate iwPmkidCandSize 0⟩, ?_, Nat.zero_le i, ?_⟩
  · unfold storeCandidate
    dsimp only
    split <;> simp [State.store, State.read]
  · rwa [Store.span, List.length_replicate, Nat.zero_add]

/-- A candidate is read and stored inside when it lies in the data. -/
theorem bounded_storeCandidate {data : ℕ → UInt8} {pmkidcand : ℕ} :
    (storeCandidate data pmkidcand state).Bounded size ↔
      state.Bounded size ∧ pmkidcand + pmkidCandSize ≤ size := by
  have hpreauth : Range.Inside ⟨pmkidcand + preauthAt, 1⟩ size ↔
      pmkidcand + preauthAt + 1 ≤ size := Range.inside_iff_within (Nat.succ_ne_zero 0)
  have hbssid : Range.Inside ⟨pmkidcand, etherAddrLen⟩ size ↔
      pmkidcand + etherAddrLen ≤ size := Range.inside_iff_within (Nat.succ_ne_zero 5)
  have hzero : (Store.span ⟨0, List.replicate iwPmkidCandSize 0⟩).Inside extraSize := by decide
  have hflags : ∀ flags, (Store.span ⟨0, le32 flags⟩).Inside extraSize := fun _ ↦
    store_inside (show 0 + 4 ≤ extraSize by decide)
  have haddr : (Store.span ⟨bssidAt, slice data pmkidcand etherAddrLen⟩).Inside extraSize := by
    refine store_inside ?_
    rw [length_slice]
    decide
  have hsizes : pmkidCandSize = 7 ∧ preauthAt = 6 ∧ etherAddrLen = 6 := ⟨rfl, rfl, rfl⟩
  unfold storeCandidate
  dsimp only
  rw [bounded_store, bounded_read, and_iff_left haddr, hbssid]
  split
  · rw [bounded_store, and_iff_left (hflags _), bounded_read, bounded_store, and_iff_left hzero,
      hpreauth, and_assoc]
    exact and_congr_right fun _ ↦ by omega
  · rw [bounded_read, bounded_store, and_iff_left hzero, hpreauth, and_assoc]
    exact and_congr_right fun _ ↦ by omega

theorem bounded_pmkidCandidate {data : ℕ → UInt8} {pmkidcand : ℕ}
    (hlength : state.wrqu.length.toNat = iwPmkidCandSize) :
    (pmkidCandidate data pmkidcand state).Bounded size ↔
      state.Bounded size ∧ pmkidcand + pmkidCandSize ≤ size := by
  have hset := storeCandidate_set data pmkidcand state
  rw [pmkidCandidate, bounded_send, bounded_storeCandidate, storeCandidate_wrqu, hlength]
  exact and_iff_left hset

/-- The loop reads up to the end of its last candidate. -/
theorem bounded_pmkidLoop {data : ℕ → UInt8} (count pmkidcand : ℕ)
    (hlength : state.wrqu.length.toNat = iwPmkidCandSize) :
    (pmkidLoop data count pmkidcand state).Bounded size ↔
      state.Bounded size ∧ (count = 0 ∨ pmkidcand + pmkidCandSize * count ≤ size) := by
  induction count generalizing pmkidcand state with
  | zero => exact (and_iff_left (.inl rfl)).symm
  | succ count ih =>
    have hnext : (pmkidCandidate data pmkidcand state).wrqu.length.toNat = iwPmkidCandSize := by
      rw [← hlength, ← storeCandidate_wrqu data pmkidcand state]
      rfl
    rw [pmkidLoop, ih _ hnext, bounded_pmkidCandidate hlength, and_assoc]
    refine and_congr_right fun _ ↦ ?_
    rw [Nat.mul_succ]
    by_cases hcount : count = 0
    · rw [hcount]
      omega
    · omega

/-- What is sent behind the loop has its bytes only when there was a candidate. -/
theorem pmkidLoop_tail {data : ℕ → UInt8} (count pmkidcand : ℕ)
    (hlength : state.wrqu.length.toNat = iwPmkidCandSize) :
    (pmkidLoop data count pmkidcand state).wrqu.length.toNat = iwPmkidCandSize ∧
      (iwPmkidCandSize ≤ bytesSet (pmkidLoop data count pmkidcand state).extra ↔
        0 < count ∨ iwPmkidCandSize ≤ bytesSet state.extra) := by
  induction count generalizing pmkidcand state with
  | zero => exact ⟨hlength, by simp [pmkidLoop]⟩
  | succ count ih =>
    have hnext : (pmkidCandidate data pmkidcand state).wrqu.length.toNat = iwPmkidCandSize := by
      rw [← hlength, ← storeCandidate_wrqu data pmkidcand state]
      rfl
    have hset : iwPmkidCandSize ≤ bytesSet (pmkidCandidate data pmkidcand state).extra :=
      storeCandidate_set data pmkidcand state
    obtain ⟨htail, hbytes⟩ := ih (pmkidcand + pmkidCandSize) hnext
    exact ⟨htail, iff_of_true (hbytes.mpr (.inr hset)) (.inl (Nat.succ_pos count))⟩

/-- `WLC_E_PMKID_CACHE`: the list has a candidate and lies in the data. -/
theorem bounded_pmkidCache {code : EventType → UInt8} {e : WlEvent}
    (hkind : e.eventType = .pmkidCache) :
    (sendCase (eventCase code e (start e))).Bounded e.datalen.toNat ↔
      ∀ data, e.data = some data → 0 < ntoh32Ua data ∧
        pmkidCandAt + pmkidCandSize * ntoh32Ua data ≤ e.datalen.toNat := by
  rw [eventCase, hkind]
  dsimp only
  split
  next hnull => exact iff_of_true (start_bounded e) fun data hdata ↦ by simp [hnull] at hdata
  next data hdata =>
    have hlength : (((start e).read ⟨0, 4⟩).setLength iwPmkidCandSize).wrqu.length.toNat =
        iwPmkidCandSize := show (UInt16.ofNat iwPmkidCandSize).toNat = iwPmkidCandSize by decide
    have hempty : ¬iwPmkidCandSize ≤
        bytesSet (((start e).read ⟨0, 4⟩).setLength iwPmkidCandSize).extra := by
      change ¬iwPmkidCandSize ≤ bytesSet []
      rw [bytesSet_nil]
      decide
    obtain ⟨htail, hbytes⟩ := @pmkidLoop_tail _ data (ntoh32Ua data) pmkidCandAt hlength
    have hheader : Range.Inside ⟨0, 4⟩ e.datalen.toNat ↔ 0 + 4 ≤ e.datalen.toNat :=
      Range.inside_iff_within (by decide)
    rw [bounded_sendCase (by decide), htail, hbytes, or_iff_left hempty,
      bounded_pmkidLoop _ _ hlength, bounded_setLength, bounded_read, hheader]
    simp only [hdata, Option.some.injEq, forall_eq']
    have hsizes : pmkidCandAt = 4 ∧ pmkidCandSize = 7 := ⟨rfl, rfl⟩
    constructor
    · rintro ⟨⟨_, hlist⟩, hcount⟩
      exact ⟨hcount, by omega⟩
    · rintro ⟨hcount, hlist⟩
      exact ⟨⟨⟨start_bounded e, by omega⟩, .inr hlist⟩, hcount⟩

/-- The address events have no payload. -/
theorem bounded_addr {e : WlEvent} :
    (((start e).setLength (strlen (start e).extra)).send .siocgiwap
      (some (start e).extra)).Bounded size ∧
      ((((start e).setLength (strlen (start e).extra)).zeroAddr.store
        ⟨0, List.replicate etherAddrLen 0⟩).send .siocgiwap
          (some [⟨0, List.replicate etherAddrLen 0⟩])).Bounded size := by
  have hlength : ((start e).setLength (strlen (start e).extra)).wrqu.length.toNat = 0 := by
    change (UInt16.ofNat (strlen [])).toNat = 0
    rw [strlen_nil]
    rfl
  constructor
  · rw [bounded_send, bounded_setLength, hlength]
    exact ⟨start_bounded e, Nat.zero_le _⟩
  · rw [bounded_send, bounded_store, bounded_zeroAddr, bounded_setLength]
    exact ⟨⟨start_bounded e, by decide⟩, hlength.le.trans (Nat.zero_le _)⟩

/-- The structure of a MIC failure is set as a whole. -/
theorem bounded_micError (e : WlEvent) :
    (((start e).setLength iwMichaelmicfailureT.size).store ⟨0, michaelmicfailure e⟩).Bounded size ∧
      iwMichaelmicfailureT.size ≤ bytesSet [⟨0, michaelmicfailure e⟩] := by
  have hsize : (michaelmicfailure e).length = iwMichaelmicfailureT.size := by
    simp [michaelmicfailure, le32, le16]
    decide
  constructor
  · rw [bounded_store, bounded_setLength]
    exact ⟨start_bounded e, store_inside (by rw [hsize]; decide)⟩
  · refine le_bytesSet (fun i hi ↦ covered_singleton.mpr ⟨Nat.zero_le i, ?_⟩) (by decide)
    rwa [Store.span, hsize, Nat.zero_add]

theorem bounded_actionFrameComplete (code status : List UInt8) (hcode : code.length = 1)
    (hstatus : status.length = 4) (e : WlEvent) :
    ((((start e).setLength 5).store ⟨0, code⟩).store ⟨1, status⟩).Bounded size ∧
      5 ≤ bytesSet [⟨0, code⟩, ⟨1, status⟩] := by
  constructor
  · rw [bounded_store, bounded_store, bounded_setLength]
    exact ⟨⟨start_bounded e, store_inside (by rw [hcode]; decide)⟩,
      store_inside (by rw [hstatus]; decide)⟩
  · refine le_bytesSet (fun i hi ↦ ?_) (by decide)
    rw [covered_cons, covered_singleton]
    simp only [Range.Covers, Store.span, hcode, hstatus]
    omega

end Cases

/-- The data of the event leaves every access inside and every length covered. -/
def PayloadFits (e : WlEvent) : Prop :=
  match e.eventType with
  | .actionFrame => e.datalen.toNat ≠ 2 ^ 32 - 1
  | .assocReqIe | .assocRespIe => e.datalen.toNat < extraSize ∨ e.datalen.toNat % 65536 = 0
  | .pmkidCache => ∀ data, e.data = some data → 0 < ntoh32Ua data ∧
      pmkidCandAt + pmkidCandSize * ntoh32Ua data ≤ e.datalen.toNat
  | _ => True

theorem bounded_wlIwEvent (code : EventType → UInt8) (e : WlEvent) :
    (wlIwEvent code e).Bounded e.datalen.toNat ↔ PayloadFits e := by
  rw [wlIwEvent, bounded_sendConnFail]
  unfold PayloadFits
  have hzero : (start e).wrqu.length.toNat ≤ bytesSet (start e).extra := Nat.zero_le _
  have hplain := @start_bounded e.datalen.toNat e
  cases hkind : e.eventType with
  | actionFrame => exact bounded_actionFrame hkind
  | pmkidCache => exact bounded_pmkidCache hkind
  | assocReqIe =>
    rw [eventCase, hkind, bounded_sendCase (by decide)]
    exact bounded_assocIe e
  | assocRespIe =>
    rw [eventCase, hkind, bounded_sendCase (by decide)]
    exact bounded_assocIe e
  | micError =>
    refine iff_of_true ?_ trivial
    rw [eventCase, hkind, bounded_sendCase (by decide)]
    exact bounded_micError e
  | actionFrameComplete =>
    refine iff_of_true ?_ trivial
    rw [eventCase, hkind, bounded_sendCase (by decide)]
    exact bounded_actionFrameComplete [code .actionFrameComplete] _ rfl rfl e
  | deauthInd =>
    refine iff_of_true ?_ trivial
    rw [eventCase, hkind]
    exact bounded_addr.2
  | disassocInd =>
    refine iff_of_true ?_ trivial
    rw [eventCase, hkind]
    exact bounded_addr.2
  | link =>
    refine iff_of_true ?_ trivial
    rw [eventCase, hkind]
    dsimp only
    split
    · exact bounded_addr.2
    · exact bounded_addr.1
  | ndisLink =>
    refine iff_of_true ?_ trivial
    rw [eventCase, hkind]
    dsimp only
    split
    · exact bounded_addr.2
    · exact bounded_addr.1
  | txfail | join | assocInd | reassocInd | scanComplete =>
    refine iff_of_true ?_ trivial
    rw [eventCase, hkind]
    exact bounded_send.mpr ⟨hplain, hzero⟩
  | setSsid | auth | reassoc | disassoc | prune | other =>
    refine iff_of_true ?_ trivial
    rw [eventCase, hkind]
    exact hplain

/-- A string of 257 characters passes the check, but its zero has no room. -/
theorem bounded_wlIwSendPrivEvent (flag : CString) :
    (wlIwSendPrivEvent flag).2.Bounded 0 ↔ flag.val.length ≠ extraSize := by
  have hstart : (⟨⟨0, Vector.replicate 6 0, 0⟩, [], [], [], []⟩ : State).Bounded 0 :=
    ⟨List.forall_mem_nil _, List.forall_mem_nil _, List.forall_mem_nil _⟩
  unfold wlIwSendPrivEvent
  dsimp only
  split
  next hlong => exact iff_of_true hstart (Nat.ne_of_gt hlong)
  next hshort =>
    rw [bounded_send, bounded_setLength, bounded_store, and_iff_right hstart]
    constructor
    · rintro ⟨hinside, -⟩ hlength
      have hlast : 0 + extraSize < extraSize := hinside extraSize (by
        rw [Store.span, List.length_append, hlength]
        exact Nat.lt_succ_self _)
      omega
    · intro hne
      have hfits : flag.val.length < extraSize := by omega
      obtain ⟨hstrlen, hset⟩ := strlen_le_bytesSet hfits
      refine ⟨store_inside ?_, ?_⟩
      · rw [List.length_append, List.length_singleton]
        omega
      · refine le_trans ?_ (hstrlen.trans hset)
        change (UInt16.ofNat (strlen [⟨0, flag.val ++ [0]⟩])).toNat ≤ _
        rw [UInt16.toNat_ofNat']
        exact Nat.mod_le _ _

/-- Every access stays inside and every length has its bytes exactly when the data of the event
fits, and for a text of a caller, when it does not fill the whole of `extra`. -/
theorem event_payload_bounded_iff (code : EventType → UInt8) :
    (∀ e : WlEvent, (wlIwEvent code e).Bounded e.datalen.toNat ↔ PayloadFits e) ∧
      ∀ flag : CString,
        (wlIwSendPrivEvent flag).2.Bounded 0 ↔ flag.val.length ≠ extraSize :=
  ⟨bounded_wlIwEvent code, bounded_wlIwSendPrivEvent⟩

/-- An association request with 300 bytes of information elements. -/
def longAssocReq : WlEvent where
  eventType := .assocReqIe
  flags := 0
  status := 0
  reason := 0
  addr := Vector.replicate 6 0
  datalen := 300
  data := some fun _ ↦ 1
  datalen_of_null := nofun

/-- Its length is sent with no byte behind it. -/
theorem longAssocReq_not_bounded :
    ¬(wlIwEvent (fun _ ↦ 0) longAssocReq).Bounded longAssocReq.datalen.toNat := by
  intro h
  have hsent := h.sent ⟨.iwevassocreqie, ⟨arphrdEther, Vector.replicate 6 0, 300⟩, some []⟩
    (List.mem_singleton_self _)
  change (300 : UInt16).toNat ≤ bytesSet [] at hsent
  rw [bytesSet_nil] at hsent
  exact absurd hsent (by decide)

end BroadcomWl.Wext.Event
