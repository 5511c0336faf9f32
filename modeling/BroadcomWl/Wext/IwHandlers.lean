import BroadcomWl.Cfg80211.ScanResults
import BroadcomWl.Memory.Buffers
import BroadcomWl.Wext.EncodeExt

/-!
# What the handlers of the wireless extensions do to their buffers

`wl_iw_ioctl` gives a handler the request and `extra`, a buffer with a copy of the user's bytes or
`NULL`. A handler is modelled with the log of its loads and stores in `extra`, and of its stores
in a buffer that it allocates itself and in the fields of `wl_iw_t`; with its result and with the
length that it leaves in the request. What it keeps on its stack, and what it reads from the
firmware's answers, is not logged, and what it stores is left out.

Every call of the firmware has an answer of its own, an error and the bytes it leaves behind the
pointer it was given. The structures of the kernel have the layout of a 64-bit machine.
-/

namespace BroadcomWl.Wext.Iw

open BroadcomWl.Memory
open BroadcomWl.Cfg80211.ScanResults (byteT uint16T uint32T bssInfoHead bssInfoAt lengthAt
  capabilityAt ssidLenAt ieLengthAt)

def eagain : ℤ := 11
def enomem : ℤ := 12
def efault : ℤ := 14
def einval : ℤ := 22
def e2big : ℤ := 7
def eopnotsupp : ℤ := 95

def iwEssidMaxSize : ℕ := 32
def iwEncodingTokenMax : ℕ := 64
def iwMaxAp : ℕ := 64
def iwScanMaxData : ℕ := 4096
def iwMaxSpy : ℕ := 8
def iwMaxFrequencies : ℕ := 32
def iwMaxBitrates : ℕ := 32

/-! ## Layout -/

def int32T : Extent := uint32T

/-- `struct sockaddr`: the family and 14 bytes of data. -/
def sockaddrT : Extent := .struct [uint16T, byteT.array 14]

/-- `struct iw_quality`. -/
def iwQualityT : Extent := .struct [byteT, byteT, byteT, byteT]

/-- `struct iw_freq`: `m`, `e`, `i` and `flags`. -/
def iwFreqT : Extent := .struct [int32T, uint16T, byteT, byteT]

def sockaddrSize : ℕ := 16
def saDataAt : ℕ := 2
def iwQualitySize : ℕ := 4

/-- The members of `struct iw_range`. -/
def iwRangeMembers : List Extent :=
  [uint32T, uint32T, uint32T, uint16T, byteT, byteT, uint32T.array 6, int32T, iwQualityT,
    iwQualityT, byteT, int32T.array 32, int32T, int32T, int32T, int32T, int32T, int32T, int32T,
    int32T, uint16T, uint16T, uint16T, uint16T.array 8, byteT, byteT, byteT, uint16T, byteT,
    int32T.array 8, byteT, byteT, uint16T, uint16T, uint16T, int32T, int32T, int32T, int32T,
    uint16T, byteT, iwFreqT.array 32, uint32T]

def iwRangeSize : ℕ := 568
def numBitratesAt : ℕ := 52
def bitrateAt : ℕ := 56
def freqAt : ℕ := 308

/-- The member of `struct iw_range` at an index. -/
def rangeMember (index : ℕ) : Range :=
  let member := iwRangeMembers.getD index byteT
  ⟨Extent.offsetAfter (iwRangeMembers.take index) member, member.size⟩

/-- The members of `struct iw_scan_req`. -/
def iwScanReqMembers : List Extent :=
  [byteT, byteT, byteT, byteT, sockaddrT, byteT.array 32, uint32T, uint32T, iwFreqT.array 32]

def iwScanReqSize : ℕ := 316
def essidLenAt : ℕ := 1
def essidAt : ℕ := 20

/-- The members of `struct iw_encode_ext` before `key`. -/
def iwEncodeExtMembers : List Extent :=
  [uint32T, byteT.array 8, byteT.array 8, sockaddrT, uint16T, uint16T]

def rxSeqAt : ℕ := 12
def addrAt : ℕ := 20
def algAt : ℕ := 36
def keyLenAt : ℕ := 38
def keyAt : ℕ := 40

/-- The members of `struct iw_pmksa`. -/
def iwPmksaMembers : List Extent := [uint32T, sockaddrT, byteT.array 16]

def pmksaBssidAt : ℕ := 4
def pmksaPmkidAt : ℕ := 20

/-- `bi->rateset`, and the end of `wl_bss_info_t`. -/
def ratesetAt : ℕ := 52
def wlBssInfoSize : ℕ := 128

theorem layout :
    [sockaddrT.size, iwQualityT.size, (Extent.struct iwRangeMembers).size,
        (Extent.struct iwScanReqMembers).size,
        (Extent.struct (bssInfoHead ++ [uint16T, uint32T, uint16T])).size] =
      [sockaddrSize, iwQualitySize, iwRangeSize, iwScanReqSize, wlBssInfoSize] ∧
    [(rangeMember 10).offset, (rangeMember 11).offset, (rangeMember 41).offset] =
      [numBitratesAt, bitrateAt, freqAt] ∧
    Extent.offsetAfter (iwScanReqMembers.take 5) (byteT.array 32) = essidAt ∧
    [Extent.offsetAfter (iwEncodeExtMembers.take 2) (byteT.array 8),
        Extent.offsetAfter (iwEncodeExtMembers.take 3) sockaddrT,
        Extent.offsetAfter (iwEncodeExtMembers.take 4) uint16T,
        Extent.offsetAfter (iwEncodeExtMembers.take 5) uint16T,
        Extent.offsetAfter iwEncodeExtMembers byteT] =
      [rxSeqAt, addrAt, algAt, keyLenAt, keyAt] ∧
    [Extent.offsetAfter (iwPmksaMembers.take 1) sockaddrT,
        Extent.offsetAfter (iwPmksaMembers.take 2) (byteT.array 16)] =
      [pmksaBssidAt, pmksaPmkidAt] ∧
    Extent.offsetAfter (bssInfoHead.take 7) (.struct [uint32T, byteT.array 16]) = ratesetAt := by
  decide +kernel

/-! ## What surrounds a handler -/

/-- The calls of the firmware, each with the one place in the source that makes it. -/
inductive FirmwareCall where
  | validChannels
  | currRateset
  | nmode
  | phytype
  | phytypeAgain
  | disassoc
  | deauthenticate
  | channel
  | scanResults
  | setSsid
  | ssid
  | keyPrimary (index : ℕ)
  | setWsec
  | setKeyPrimary
  | setKey
  | setAuth
  | wsec
  | auth
  | encodeExt
  | wpaie
deriving DecidableEq

/-- The error of a call, and the bytes it leaves. -/
structure Answer where
  error : ℤ
  reply : ℕ → UInt8

/-- What the handlers rely on: whether `kmalloc` finds memory, the firmware, and functions that
come without source. `bcm_mkiovar` is known by what it loads of its data, for the length of a name,
of the data and of its buffer; `bcm_parse_tlvs` finds an element with a tag in so many bytes from a
position on; `streamFits` is the kernel's test whether an event that would end at some place may be
added to a stream with some end. `otherwise` is the result of the handlers that have nothing to do
with a buffer. -/
structure Platform where
  kmalloc : Bool
  firmware : FirmwareCall → Answer
  bcmMkiovar : ℕ → ℕ → ℕ → List Range
  bcmParseTlvs : (ℕ → UInt8) → ℕ → ℤ → ℕ → Option ℕ
  streamFits : ℕ → ℕ → Bool
  otherwise : ℤ

/-- What the functions without source are documented to do: the name, its zero and the data are put
into the buffer if they fit, and an event is added only if it ends inside the stream. -/
structure Platform.Documented (platform : Platform) : Prop where
  mkiovarFits : ∀ name datalen buflen, name + 1 + datalen ≤ buflen →
    platform.bcmMkiovar name datalen buflen = [⟨0, datalen⟩]
  mkiovarOverflows : ∀ name datalen buflen, buflen < name + 1 + datalen →
    platform.bcmMkiovar name datalen buflen = []
  streamEnds : ∀ stop ends, platform.streamFits stop ends = true → stop ≤ ends

/-- `wl_iw_t`, zeroed at first: the nickname is a string, and there are no more addresses than the
arrays have room for. -/
structure WlIw where
  nickname : List UInt8
  length_nickname : nickname.length = iwEssidMaxSize
  zero_mem_nickname : 0 ∈ nickname
  spyNum : ℕ
  spyNum_le : spyNum ≤ iwMaxSpy

/-- The buffers: `extra`, the list that a handler allocates for the scan results, and the arrays of
`wl_iw_t` with what lies before its first one. -/
inductive Buffer where
  | extra
  | list
  | nickname
  | beforeNickname
  | spyAddr
  | spyQual
deriving DecidableEq, Repr

/-- What a handler leaves. -/
structure Handled where
  ret : ℤ
  log : List (Op Buffer)
  dwrq : IwPoint
  iw : WlIw

section Handlers

variable (platform : Platform) (iw : WlIw) (dwrq : IwPoint) (extra : Option (ℕ → UInt8))

/-- The bytes of `extra`; there are none behind `NULL`. -/
def content : ℕ → UInt8 := extra.getD fun _ ↦ 0

/-! ## Range -/

/-- `min_nwid` and `max_nwid`. -/
def nwidStores : List Range := [rangeMember 1, rangeMember 2]

/-- `i`, `m` and `e` of `freq[i]`. -/
def freqStores (i : ℕ) : List Range :=
  [⟨freqAt + 8 * i + 6, 1⟩, ⟨freqAt + 8 * i, 4⟩, ⟨freqAt + 8 * i + 4, 2⟩]

/-- `qual`, `level` and `noise`. -/
def qualityStores (offset : ℕ) : List Range := [⟨offset, 1⟩, ⟨offset + 1, 1⟩, ⟨offset + 2, 1⟩]

/-- `num_channels`, `num_frequency`, `max_qual`, `sensitivity` and `avg_qual`. -/
def linkStores : List Range :=
  [rangeMember 39, rangeMember 40] ++ qualityStores (rangeMember 8).offset ++ [rangeMember 7] ++
    qualityStores (rangeMember 9).offset

/-- `num_bitrates`. -/
def numBitrates : Range := ⟨numBitratesAt, 1⟩

def bitrateStore (i : ℕ) : Range := ⟨bitrateAt + 4 * i, 4⟩

/-- From `throughput` to `max_r_time`. -/
def limitStores : List Range :=
  [rangeMember 0, rangeMember 12, rangeMember 13, rangeMember 14, rangeMember 15, rangeMember 25,
    rangeMember 24, ⟨222, 2⟩, ⟨224, 2⟩, ⟨226, 2⟩, ⟨228, 2⟩, rangeMember 16, rangeMember 17,
    rangeMember 18, rangeMember 19, rangeMember 20, rangeMember 22, rangeMember 28, ⟨248, 4⟩,
    ⟨252, 4⟩, rangeMember 27, rangeMember 30, rangeMember 31, rangeMember 32, rangeMember 33,
    rangeMember 34, rangeMember 35, rangeMember 36, rangeMember 37, rangeMember 38]

/-- `enc_capa` and the words of `event_capa`, which take their bits one by one. -/
def capabilityWords : List Range :=
  List.replicate 3 (rangeMember 42) ++
    [⟨16, 4⟩, ⟨20, 4⟩, ⟨16, 4⟩, ⟨16, 4⟩] ++ List.replicate 5 ⟨32, 4⟩

def wlcPhyTypeSsn : ℕ := 6
def wlcPhyTypeLcn : ℕ := 8
def wlcPhyTypeLcn40 : ℕ := 10

/-- The PHYs for which the rates of 802.11n are added. -/
def addsNrates : Prop :=
  load32 (platform.firmware .nmode).reply 0 = 1 ∧
    load32 (platform.firmware .phytype).reply 0 ∈ [wlcPhyTypeSsn, wlcPhyTypeLcn, wlcPhyTypeLcn40]

instance : Decidable (addsNrates platform) := inferInstanceAs (Decidable (_ ∧ _))

/-- `rateset.count`. -/
def ratesetCount : ℕ := load32 (platform.firmware .currRateset).reply 0

/-- `num_bitrates` has 8 bits, also after 8 more rates. -/
def nrateEnd : ℕ := (ratesetCount platform % 256 + 8) % 256

/-- The stores of the rates. -/
def rateLog : List (Op Buffer) :=
  (numBitrates :: (List.range (min (ratesetCount platform) iwMaxBitrates)).map bitrateStore).map
    (.store .extra)

/-- The loop that adds rates: it starts behind the ones that fit and compares with `num_bitrates`
before each. -/
def nrateLog : List (Op Buffer) :=
  let first := min (ratesetCount platform) iwMaxBitrates
  [.load .extra numBitrates, .store .extra numBitrates] ++
    (List.range (nrateEnd platform - first)).flatMap
      (fun k ↦ [.load .extra numBitrates, .store .extra (bitrateStore (first + k))]) ++
    [.load .extra numBitrates]

/-- `wl_iw_get_range`. -/
def wlIwGetRange : Handled :=
  if extra.isNone then ⟨-einval, [], dwrq, iw⟩
  else
    let dwrq := { dwrq with length := UInt16.ofNat iwRangeSize }
    let log := (⟨0, iwRangeSize⟩ :: nwidStores).map (.store .extra)
    let channels := platform.firmware .validChannels
    if channels.error ≠ 0 then ⟨channels.error, log, dwrq, iw⟩
    else
      let count := min (load32 channels.reply 0) iwMaxFrequencies
      let log := log ++ ((List.range count).flatMap freqStores ++ linkStores).map (.store .extra)
      let rateset := platform.firmware .currRateset
      if rateset.error ≠ 0 then ⟨rateset.error, log, dwrq, iw⟩
      else
        let log := log ++ rateLog platform
        let phytype := platform.firmware .phytype
        if phytype.error ≠ 0 then ⟨phytype.error, log, dwrq, iw⟩
        else
          let log := log ++ if addsNrates platform then nrateLog platform else []
          let phytype := platform.firmware .phytypeAgain
          if phytype.error ≠ 0 then ⟨phytype.error, log, dwrq, iw⟩
          else
            let log := log ++ limitStores.map (.store .extra) ++
              capabilityWords.flatMap (fun word ↦ [.load .extra word, .store .extra word]) ++
              [.store .extra (rangeMember 5)]
            ⟨0, log, dwrq, iw⟩

/-! ## Spy -/

/-- `wl_iw_set_spy`. -/
def wlIwSetSpy : Handled :=
  if extra.isNone then ⟨-einval, [], dwrq, iw⟩
  else
    let spyNum := min iwMaxSpy dwrq.length.toNat
    let log := (List.range spyNum).flatMap
      (fun i ↦ [.load .extra ⟨sockaddrSize * i + saDataAt, 6⟩, .store .spyAddr ⟨6 * i, 6⟩])
    ⟨0, log ++ [.store .spyQual ⟨0, iwMaxSpy * iwQualitySize⟩], dwrq,
      { iw with
        spyNum := spyNum
        spyNum_le := Nat.min_le_left .. }⟩

/-- `wl_iw_get_spy`: the qualities lie behind the addresses. -/
def wlIwGetSpy : Handled :=
  if extra.isNone then ⟨-einval, [], dwrq, iw⟩
  else
    let log := (List.range iw.spyNum).flatMap fun i ↦
      [.store .extra ⟨sockaddrSize * i + saDataAt, 6⟩, .store .extra ⟨sockaddrSize * i, 2⟩,
        .store .extra ⟨sockaddrSize * iw.spyNum + iwQualitySize * i, iwQualitySize⟩,
        .store .spyQual ⟨iwQualitySize * i + 3, 1⟩]
    ⟨0, log, { dwrq with length := UInt16.ofNat iw.spyNum }, iw⟩

/-! ## Scan results -/

def dot11CapEss : ℕ := 0x0001
def dot11CapIbss : ℕ := 0x0002

/-- The stores that prepare the list of results: `memset`, `buflen`, and, when the firmware has
filled it, `buflen`, `version` and `count`. -/
def listPrepared (buflen : ℕ) : List (Op Buffer) :=
  [.store .list ⟨0, buflen⟩, .store .list ⟨0, 4⟩]

def listFilled : List (Op Buffer) :=
  [.store .list ⟨0, 4⟩, .store .list ⟨4, 4⟩, .store .list ⟨8, 4⟩]

/-- `list->count`. -/
def listCount (memory : ℕ → UInt8) : ℕ := load32 memory 8

/-- The record that follows the one at `bi`. -/
def nextBss (memory : ℕ → UInt8) (bi : ℕ) : ℕ := bi + load32 memory (bi + lengthAt)

def capability (memory : ℕ → UInt8) (bi : ℕ) : ℕ := load16 memory (bi + capabilityAt)

/-- The stores for one access point: its address and the family. -/
def apStores (i : ℕ) : List (Op Buffer) :=
  [.store .extra ⟨sockaddrSize * i + saDataAt, 6⟩, .store .extra ⟨sockaddrSize * i, 2⟩]

/-- The loop of `wl_iw_get_aplist` over the remaining records, with what was stored already. -/
def apLoop (memory : ℕ → UInt8) : ℕ → ℕ → ℕ → ℕ × List (Op Buffer)
  | 0, _, length => (length, [])
  | count + 1, bi, length =>
      if length < iwMaxAp then
        if capability memory bi &&& dot11CapEss = 0 then
          apLoop memory count (nextBss memory bi) length
        else
          let (last, log) := apLoop memory count (nextBss memory bi) (length + 1)
          (last, apStores length ++ log)
      else (length, [])

/-- `wl_iw_get_aplist`: the length counts access points, and was used as the size of the list. -/
def wlIwGetAplist : Handled :=
  if extra.isNone then ⟨-einval, [], dwrq, iw⟩
  else if !platform.kmalloc then ⟨-enomem, [], dwrq, iw⟩
  else
    let log := listPrepared dwrq.length.toNat
    let results := platform.firmware .scanResults
    if results.error ≠ 0 then ⟨results.error, log, dwrq, iw⟩
    else
      let (length, loopLog) := apLoop results.reply (listCount results.reply) bssInfoAt 0
      let log := log ++ listFilled ++ loopLog
      if length = 0 then ⟨0, log, { dwrq with length := 0 }, iw⟩
      else
        ⟨0, log ++ [.store .extra ⟨sockaddrSize * length, iwQualitySize * length⟩],
          ⟨UInt16.ofNat length, 1⟩, iw⟩

def iwScanThisEssid : UInt16 := 0x0002

/-- `wl_iw_set_scan`. -/
def wlIwSetScan : Handled :=
  let log : List Range :=
    if dwrq.length.toNat = iwScanReqSize then
      if dwrq.flags &&& iwScanThisEssid ≠ 0 then
        [⟨essidLenAt, 1⟩, ⟨essidAt, min iwEssidMaxSize (content extra essidLenAt).toNat⟩]
      else []
    else []
  ⟨0, log.map (.load .extra), dwrq, iw⟩

/-! The events of a record. The kernel adds an event to the stream, with the header that every
event has, if there is room for it; a further value goes into the event that was begun, without a
header. -/

def iwEvLcpLen : ℕ := 8
def iwEvAddrLen : ℕ := 24
def iwEvUintLen : ℕ := 12
def iwEvFreqLen : ℕ := 16
def iwEvQualLen : ℕ := 12
def iwEvPointLen : ℕ := 16
def iwEvParamLen : ℕ := 16

/-- What is added to the stream: an event of some length, or the event of the rates with its
values. -/
inductive Piece where
  | event (len : ℕ)
  | rates (count : ℕ)
deriving DecidableEq, Repr

/-- An event with data. -/
def Piece.point (len : ℕ) : Piece := .event (iwEvPointLen + len)

def dot11MngRsnId : ℕ := 48
def dot11MngWpaId : ℕ := 221

def wpaOui : List UInt8 := [0x00, 0x50, 0xf2]

/-- `ie_is_wpa_ie` and `ie_is_wps_ie`: the length and the first four bytes. -/
def isVendorIe (memory : ℕ → UInt8) (atLeast : ℕ) (kind : UInt8) (ie : ℕ) : Bool :=
  decide (atLeast ≤ (memory (ie + 1)).toNat) &&
    (List.range 4).map (fun i ↦ memory (ie + 2 + i)) == wpaOui ++ [kind]

/-- The loop that looks for such an element, with so many bytes left from `ptr` on; every turn
leaves fewer. -/
def findVendorIe (memory : ℕ → UInt8) (atLeast : ℕ) (kind : UInt8) : ℕ → ℕ → ℤ → Option ℕ
  | 0, _, _ => none
  | fuel + 1, ptr, ptrLen =>
      match platform.bcmParseTlvs memory ptr ptrLen dot11MngWpaId with
      | none => none
      | some ie =>
          if isVendorIe memory atLeast kind ie then some ie
          else
            let next := ie + (memory (ie + 1)).toNat + 2
            findVendorIe memory atLeast kind fuel next (ptrLen - ((next : ℤ) - ptr))

/-- `wl_iw_handle_scanresults_ies`: the RSN element, a WPS and a WPA element. -/
def wlIwHandleScanresultsIes (memory : ℕ → UInt8) (bi : ℕ) : List Piece :=
  let ieLength := load32 memory (bi + ieLengthAt)
  if ieLength = 0 then []
  else
    let ptr := bi + wlBssInfoSize
    let ptrLen := (BitVec.ofNat 32 ieLength).toInt
    let rsn := platform.bcmParseTlvs memory ptr ptrLen dot11MngRsnId
    let wps := findVendorIe platform memory 4 0x04 ieLength ptr ptrLen
    let wpa := findVendorIe platform memory 6 0x01 ieLength ptr ptrLen
    [rsn, wps, wpa].filterMap (·.map fun ie ↦ .point ((memory (ie + 1)).toNat + 2))

/-- What `wl_iw_get_scan` adds for the record at `bi`. -/
def bssPieces (memory : ℕ → UInt8) (bi : ℕ) : List Piece :=
  let rates := load32 memory (bi + ratesetAt)
  [.event iwEvAddrLen, .point (memory (bi + ssidLenAt)).toNat] ++
    (if capability memory bi &&& (dot11CapEss ||| dot11CapIbss) ≠ 0 then [.event iwEvUintLen]
    else []) ++
    [.event iwEvFreqLen, .event iwEvQualLen] ++ wlIwHandleScanresultsIes platform memory bi ++
    [.point 0] ++ if rates ≠ 0 then [.rates (min rates iwMaxBitrates)] else []

/-- The pieces of so many records from `bi` on. -/
def scanPieces (memory : ℕ → UInt8) : ℕ → ℕ → List Piece
  | 0, _ => []
  | count + 1, bi => bssPieces platform memory bi ++ scanPieces memory count (nextBss memory bi)

/-- `IWE_STREAM_ADD_VALUE` for every rate: the value, and the header of the event anew. -/
def addValues (fits : ℕ → ℕ → Bool) (ends event : ℕ) : ℕ → ℕ → ℕ × List (Op Buffer)
  | 0, value => (value, [])
  | count + 1, value =>
      let valueLen := iwEvParamLen - iwEvLcpLen
      if fits (value + valueLen) ends then
        let (last, log) := addValues fits ends event count (value + valueLen)
        (last, .store .extra ⟨value, valueLen⟩ :: .store .extra ⟨event, iwEvLcpLen⟩ :: log)
      else addValues fits ends event count value

/-- Add a piece at `event`. The values of the rates start behind a header, whether or not there is
room for it. -/
def Piece.add (fits : ℕ → ℕ → Bool) (ends event : ℕ) : Piece → ℕ × List (Op Buffer)
  | .event len =>
      if fits (event + len) ends then (event + len, [.store .extra ⟨event, len⟩]) else (event, [])
  | .rates count => addValues fits ends event count (event + iwEvLcpLen)

/-- Add one piece after the other. -/
def addPieces (fits : ℕ → ℕ → Bool) (ends : ℕ) : List Piece → ℕ → ℕ × List (Op Buffer)
  | [], event => (event, [])
  | piece :: pieces, event =>
      let (next, log) := piece.add fits ends event
      let (last, rest) := addPieces fits ends pieces next
      (last, log ++ rest)

/-- `wl_iw_get_scan`. -/
def wlIwGetScan : Handled :=
  if extra.isNone then ⟨-einval, [], dwrq, iw⟩
  else
    let channel := platform.firmware .channel
    if channel.error ≠ 0 then ⟨channel.error, [], dwrq, iw⟩
    else if load32 channel.reply 8 ≠ 0 then ⟨-eagain, [], dwrq, iw⟩
    else if !platform.kmalloc then ⟨-enomem, [], dwrq, iw⟩
    else
      let log := listPrepared dwrq.length.toNat
      let results := platform.firmware .scanResults
      if results.error ≠ 0 then ⟨results.error, log, dwrq, iw⟩
      else
        let pieces := scanPieces platform results.reply
          (min (listCount results.reply) iwMaxAp) bssInfoAt
        let (event, eventLog) := addPieces platform.streamFits dwrq.length.toNat pieces 0
        ⟨0, log ++ listFilled ++ eventLog, ⟨UInt16.ofNat event, 0⟩, iw⟩

/-! ## ESSID and nickname -/

/-- `wl_iw_set_essid`. -/
def wlIwSetEssid : Handled :=
  if dwrq.length ≠ 0 ∧ extra.isSome then
    ⟨(platform.firmware .setSsid).error,
      [.load .extra ⟨0, min iwEssidMaxSize dwrq.length.toNat⟩], dwrq, iw⟩
  else ⟨(platform.firmware .disassoc).error, [], dwrq, iw⟩

/-- `wl_iw_get_essid`: the length of the SSID is what the firmware says. -/
def wlIwGetEssid : Handled :=
  if extra.isNone then ⟨-einval, [], dwrq, iw⟩
  else
    let ssid := platform.firmware .ssid
    if ssid.error ≠ 0 then ⟨ssid.error, [], dwrq, iw⟩
    else
      let ssidLen := load32 ssid.reply 0
      ⟨0, [.store .extra ⟨0, ssidLen⟩], ⟨UInt16.ofNat ssidLen, 1⟩, iw⟩

/-- A byte of `iw->nickname`, or one before it. -/
def nicknameStore (index : ℤ) : Op Buffer :=
  if index < 0 then .store .beforeNickname ⟨0, 1⟩ else .store .nickname ⟨index.toNat, 1⟩

/-- The first bytes of the nickname are replaced, the last of them by a zero. -/
def WlIw.setNickname (len : ℕ) (source : ℕ → UInt8) (hlen : len ≤ iwEssidMaxSize) : WlIw where
  nickname := (List.range iwEssidMaxSize).map fun i ↦
    if i + 1 = len then 0 else if i < len then source i else iw.nickname.getD i 0
  length_nickname := by rw [List.length_map, List.length_range]
  zero_mem_nickname := by
    rw [List.mem_map]
    cases len with
    | zero =>
      obtain ⟨i, hi, hzero⟩ := List.getElem_of_mem iw.zero_mem_nickname
      refine ⟨i, List.mem_range.mpr (iw.length_nickname ▸ hi), ?_⟩
      rw [if_neg (Nat.succ_ne_zero i), if_neg (Nat.not_lt_zero i), List.getD_eq_getElem?_getD,
        List.getElem?_eq_getElem hi, hzero]
      rfl
    | succ len => exact ⟨len, List.mem_range.mpr hlen, if_pos rfl⟩
  spyNum := iw.spyNum
  spyNum_le := iw.spyNum_le

/-- `wl_iw_set_nick`: the last byte is the one at `length - 1`. -/
def wlIwSetNick : Handled :=
  if extra.isNone then ⟨-einval, [], dwrq, iw⟩
  else if h : iwEssidMaxSize < dwrq.length.toNat then ⟨-e2big, [], dwrq, iw⟩
  else
    let range : Range := ⟨0, dwrq.length.toNat⟩
    ⟨0, [.load .extra range, .store .nickname range, nicknameStore (dwrq.length.toNat - 1)], dwrq,
      iw.setNickname dwrq.length.toNat (content extra) (Nat.not_lt.mp h)⟩

/-- `strlen` of the nickname. -/
def WlIw.nicknameLen : ℕ := iw.nickname.idxOf 0

/-- `wl_iw_get_nick`: `strlen` reads what `strcpy` has stored. -/
def wlIwGetNick : Handled :=
  if extra.isNone then ⟨-einval, [], dwrq, iw⟩
  else
    let range : Range := ⟨0, iw.nicknameLen + 1⟩
    ⟨0, [.store .extra range, .load .extra range],
      { dwrq with length := UInt16.ofNat (iw.nicknameLen + 1) }, iw⟩

/-! ## Keys -/

def dot11MaxDefaultKeys : ℕ := 4

def iwEncodeDisabled : UInt16 := 0x8000
def iwEncodeRestricted : UInt16 := 0x4000
def iwEncodeNokey : UInt16 := 0x0800

/-- `wsec` has one of `WEP_ENABLED`, `TKIP_ENABLED` and `AES_ENABLED`. -/
def wsecMask : ℕ := 0x7

def wep128KeySize : ℕ := 13
def tkipKeySize : ℕ := 32
def aesKeySize : ℕ := 16
def keyDataSize : ℕ := 32

/-- The loop over the remaining keys for the primary one. -/
def findPrimary : ℕ → ℕ → Except ℤ ℕ
  | 0, index => .ok index
  | remaining + 1, index =>
      let primary := platform.firmware (.keyPrimary index)
      if primary.error ≠ 0 then .error primary.error
      else if load32 primary.reply 0 ≠ 0 then .ok index
      else findPrimary remaining (index + 1)

/-- The index of the key that `wl_iw_set_encode` sets. -/
def encodeIndex : Except ℤ ℕ :=
  if dwrq.flags &&& iwEncodeIndex = 0 then
    (findPrimary platform dot11MaxDefaultKeys 0).map
      fun index ↦ if index = dot11MaxDefaultKeys then 0 else index
  else
    let index := (dwrq.flags &&& iwEncodeIndex).toNat - 1
    if dot11MaxDefaultKeys ≤ index then .error (-einval) else .ok index

/-- `wl_iw_set_encode`. -/
def wlIwSetEncode : Handled :=
  match encodeIndex platform dwrq with
  | .error error => ⟨error, [], dwrq, iw⟩
  | .ok _ =>
      let wsec := (platform.firmware .setWsec).error
      let auth := (platform.firmware .setAuth).error
      if wsec ≠ 0 then ⟨wsec, [], dwrq, iw⟩
      else if extra.isNone ∨ dwrq.length = 0 ∨ dwrq.flags &&& iwEncodeNokey ≠ 0 then
        let primary := (platform.firmware .setKeyPrimary).error
        ⟨if primary ≠ 0 then primary else auth, [], dwrq, iw⟩
      else if keyDataSize < dwrq.length.toNat then ⟨-einval, [], dwrq, iw⟩
      else
        let log := [.load .extra ⟨0, dwrq.length.toNat⟩]
        if dwrq.length.toNat ∈ [wep1KeySize, wep128KeySize, tkipKeySize, aesKeySize] then
          let key := (platform.firmware .setKey).error
          ⟨if key ≠ 0 then key else auth, log, dwrq, iw⟩
        else ⟨-einval, log, dwrq, iw⟩

/-- `wl_iw_get_encode`: the key is zeroed, and its length with it. -/
def wlIwGetEncode : Handled :=
  let index :=
    if dwrq.flags &&& iwEncodeIndex = 0 then findPrimary platform dot11MaxDefaultKeys 0
    else .ok ((dwrq.flags &&& iwEncodeIndex).toNat - 1)
  match index with
  | .error error => ⟨error, [], dwrq, iw⟩
  | .ok index =>
      let index := if dot11MaxDefaultKeys ≤ index then 0 else index
      let wsec := platform.firmware .wsec
      let auth := platform.firmware .auth
      if wsec.error ≠ 0 then ⟨wsec.error, [], dwrq, iw⟩
      else if auth.error ≠ 0 then ⟨auth.error, [], dwrq, iw⟩
      else
        let keyLen := 0
        let length := min iwEncodingTokenMax keyLen
        let flags := UInt16.ofNat (index + 1) |||
          (if load32 wsec.reply 0 &&& wsecMask = 0 then iwEncodeDisabled else 0) |||
          (if load32 auth.reply 0 ≠ 0 then iwEncodeRestricted else 0)
        ⟨0, if length ≠ 0 ∧ extra.isSome then [.store .extra ⟨0, length⟩] else [],
          ⟨UInt16.ofNat length, flags⟩, iw⟩

/-- `struct iw_encode_ext` in `extra`. -/
def encodeExtAt (bytes : ℕ → UInt8) : IwEncodeExt where
  extFlags := UInt32.ofNat (load32 bytes 0)
  txSeq := Vector.ofFn fun i ↦ bytes (4 + i)
  rxSeq := Vector.ofFn fun i ↦ bytes (rxSeqAt + i)
  saFamily := UInt16.ofNat (load16 bytes addrAt)
  saData := Vector.ofFn fun i ↦ bytes (addrAt + saDataAt + i)
  alg := UInt16.ofNat (load16 bytes algAt)
  keyLen := UInt16.ofNat (load16 bytes keyLenAt)
  key i := bytes (keyAt + i)

/-- What `wl_iw_set_encodeext` loads: the key's length and the address, and with a key that is not
too long the flags, the key, the sequence and the algorithm. -/
def encodeExtLoads (iwe : IwEncodeExt) : List Range :=
  [⟨keyLenAt, 2⟩, ⟨addrAt + saDataAt, 1⟩] ++
    (if !Cfg80211.Keys.etherIsmulti iwe.peer then [⟨addrAt + saDataAt, 6⟩] else []) ++
    if iwe.keyLen = 0 then [⟨0, 4⟩]
    else if keyDataSize < iwe.keyLen.toNat then [⟨keyLenAt, 2⟩]
    else
      [⟨keyLenAt, 2⟩, ⟨0, 4⟩, ⟨keyLenAt, 2⟩, ⟨keyAt, iwe.keyLen.toNat⟩, ⟨algAt, 2⟩, ⟨0, 4⟩] ++
        (if iwe.extFlags &&& iwEncodeExtRxSeqValid ≠ 0 then [⟨rxSeqAt, 6⟩] else []) ++
        [⟨algAt, 2⟩] ++ if iwe.alg = iwEncodeAlgWep then [⟨keyLenAt, 2⟩] else []

/-- `wl_iw_set_encodeext`, which does not look whether there is a buffer. -/
def wlIwSetEncodeextBuffers : Handled :=
  let iwe := encodeExtAt (content extra)
  ⟨(wlIwSetEncodeext dwrq iwe (platform.firmware .encodeExt).error).1,
    (encodeExtLoads iwe).map (.load .extra), dwrq, iw⟩

/-- `wl_iw_set_pmksa`: the command is compared with each of the three; a removal and an addition
copy the address and the PMKID. (A removal then compares the address, of the same bytes, with
those of the list.) -/
def wlIwSetPmksa : Handled :=
  let cmd := UInt32.ofNat (load32 (content extra) 0)
  let entry : List Range := [⟨pmksaBssidAt + saDataAt, 6⟩, ⟨pmksaPmkidAt, 16⟩]
  let log : List Range := [⟨0, 4⟩, ⟨0, 4⟩] ++ (if cmd = 2 then entry else []) ++ [⟨0, 4⟩] ++
    if cmd = 1 then entry else []
  ⟨0, log.map (.load .extra), dwrq, iw⟩

/-! ## Information elements and MLME -/

/-- The size of the buffer for a variable of the firmware. -/
def maxWliwIoctlLen : ℕ := 1024

/-- The length of the name `wpaie`. -/
def wpaieLen : ℕ := 5

/-- `wl_iw_set_wpaie`, with `dev_wlc_bufvar_set`. -/
def wlIwSetWpaie : Handled :=
  let log :=
    if platform.kmalloc then platform.bcmMkiovar wpaieLen dwrq.length.toNat maxWliwIoctlLen
    else []
  ⟨0, log.map (.load .extra), dwrq, iw⟩

/-- `wl_iw_get_wpaie`, with `dev_wlc_bufvar_get`. -/
def wlIwGetWpaie : Handled :=
  ⟨0, if platform.kmalloc ∧ (platform.firmware .wpaie).error = 0 then [.store .extra ⟨0, 64⟩]
    else [], { dwrq with length := 64 }, iw⟩

/-- `wl_iw_mlme`: the reason, the address and the command of a `struct iw_mlme`. -/
def wlIwMlme : Handled :=
  if extra.isNone then ⟨-einval, [], dwrq, iw⟩
  else
    let cmd := load16 (content extra) 0
    let log : List Range := [⟨2, 2⟩, ⟨4 + saDataAt, 6⟩, ⟨0, 2⟩] ++ if cmd ≠ 1 then [⟨0, 2⟩] else []
    let ret :=
      if cmd = 1 then (platform.firmware .disassoc).error
      else if cmd = 0 then (platform.firmware .deauthenticate).error
      else -einval
    ⟨ret, log.map (.load .extra), dwrq, iw⟩

/-- `wl_iw_get_encodeext`. -/
def wlIwGetEncodeext : Handled := ⟨0, [], dwrq, iw⟩

/-- The handlers that mention neither `extra` nor a length. -/
def withoutBuffer : Handled := ⟨platform.otherwise, [], dwrq, iw⟩

end Handlers

end BroadcomWl.Wext.Iw
