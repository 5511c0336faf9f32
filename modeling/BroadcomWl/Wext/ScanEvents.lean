import BroadcomWl.Formats.Groups
import BroadcomWl.Linux.MonitorFrame
import BroadcomWl.Memory.Stores
import BroadcomWl.Wext.IwRequests
import BroadcomWl.Wext.ScanIes

/-!
# What a reader makes of the scan results

`wl_iw_get_scan` turns every record of the firmware into a series of events, of which the first one
has the address of the access point. All of them are made in one `struct iw_event` on the stack,
whose union `u` keeps what an event before has left there. The kernel adds an event to the stream
if there is room for it, and does not say when there was none. Of the header it copies the members
only, but all of it, with the padding in front of the union, when it adds a value of the rates.

The stream is modelled with the bytes that every event takes from the union and from the record,
on a 64-bit machine. The contents of the stack are a parameter.
-/

namespace BroadcomWl.Wext.ScanEvents

open BroadcomWl.Memory BroadcomWl.Formats
open BroadcomWl.Cfg80211.ScanResults (bssidAt ssidLenAt ssidAt chanspecAt rssiAt bssInfoAt)
open BroadcomWl.Linux.MonitorFrame (ChanFactor)
open BroadcomWl.Wext.Iw (Platform Piece dot11CapEss dot11CapIbss dot11MngRsnId wlBssInfoSize
  findVendorIe capability nextBss ratesetAt iwMaxBitrates iwMaxAp listCount iwEvLcpLen iwEvAddrLen
  iwEvPointLen iwEvParamLen bssPieces scanPieces addValues addPieces)
open BroadcomWl.Wext.ScanIes (GenieEvent genieEvent genieLength)

/-! ## The union -/

def arphrdEther : ℕ := 1
def iwModeAdhoc : ℕ := 1
def iwModeInfra : ℕ := 2
def iwEncodeDisabled : ℕ := 0x8000
def iwEncodeEnabled : ℕ := 0x0000
def iwEncodeNokey : ℕ := 0x0800
def dot11CapPrivacy : ℕ := 0x0010

def wlIwRssiNoSignal : Int32 := -91
def wlIwRssiVeryLow : Int32 := -80
def wlIwRssiLow : Int32 := -70
def wlIwRssiGood : Int32 := -68
def wlIwRssiVeryGood : Int32 := -58

/-- `rssi_to_qual`. -/
def rssiToQual (rssi : Int32) : UInt8 :=
  if rssi ≤ wlIwRssiNoSignal then 0
  else if rssi ≤ wlIwRssiVeryLow then 1
  else if rssi ≤ wlIwRssiLow then 2
  else if rssi ≤ wlIwRssiGood then 3
  else if rssi ≤ wlIwRssiVeryGood then 4
  else 5

/-- What the headers outside the tree provide. -/
structure Channels where
  chspecChannel : ℕ → ℕ
  chMax2gChannel : ℕ
  wfChannel2mhz : ℕ → ChanFactor → ℤ

def phyNoiseAt : ℕ := 80

theorem phyNoiseAt_eq_memberAt :
    Cfg80211.ScanResults.memberAt 12 Cfg80211.ScanResults.byteT = phyNoiseAt := by decide

section Model

variable (channels : Channels) (platform : Platform) (memory : ℕ → UInt8) (bi : ℕ)

/-- `bi->RSSI` as an `int`. -/
def rssi : Int32 := .ofInt (BitVec.ofNat 16 (load16 memory (bi + rssiAt))).toInt

/-- `bi->phy_noise` as an `int`. -/
def phyNoise : Int32 := .ofInt (memory (bi + phyNoiseAt)).toBitVec.toInt

/-- `iwe.u.freq.m`. -/
def freqM : ℤ :=
  let channel := channels.chspecChannel (load16 memory (bi + chanspecAt))
  channels.wfChannel2mhz channel
    (if channel ≤ channels.chMax2gChannel then .twoPointFourG else .fiveG)

/-- The record is of an access point or of an IBSS. -/
def HasMode : Prop := capability memory bi &&& (dot11CapEss ||| dot11CapIbss) ≠ 0

instance : Decidable (HasMode memory bi) := inferInstanceAs (Decidable (_ ≠ _))

/-! The stores for each event, in order. -/

def apAddrStores : List Store := [⟨0, le16 arphrdEther⟩, ⟨2, slice memory (bi + bssidAt) 6⟩]

def essidStores : List Store := [⟨8, le16 (memory (bi + ssidLenAt)).toNat⟩, ⟨10, le16 1⟩]

def modeStores : List Store :=
  if HasMode memory bi then
    [⟨0, le32 (if capability memory bi &&& dot11CapEss ≠ 0 then iwModeInfra else iwModeAdhoc)⟩]
  else []

def freqStores : List Store :=
  [⟨0, le32 (BitVec.ofInt 32 (freqM channels memory bi)).toNat⟩, ⟨4, le16 6⟩]

def qualStores : List Store :=
  [⟨0, [rssiToQual (rssi memory bi)]⟩, ⟨1, [(0x100 + rssi memory bi).toUInt32.toUInt8]⟩,
    ⟨2, [(0x100 + phyNoise memory bi).toUInt32.toUInt8]⟩]

def encodeStores : List Store :=
  [⟨10, le16 (if capability memory bi &&& dot11CapPrivacy ≠ 0 then iwEncodeEnabled ||| iwEncodeNokey
      else iwEncodeDisabled)⟩, ⟨8, le16 0⟩]

/-- `disabled` and `fixed`. -/
def bitrateStores : List Store := [⟨5, [0]⟩, ⟨4, [0]⟩]

/-- `bitrate.value` for each rate; the loop goes on behind the 16 rates that a record has. -/
def bitrateValues : List ℕ :=
  (List.range (min (load32 memory (bi + ratesetAt)) iwMaxBitrates)).map fun j ↦
    (memory (bi + ratesetAt + 4 + j) &&& 0x7f).toNat * 500000

/-! ## The events -/

inductive Cmd where
  | giwessid
  | giwmode
  | giwfreq
  | ivqual
  | genie
  | giwencode
deriving DecidableEq, Repr

/-- An event with the bytes of the union it takes; a point takes `length` and `flags` and has data
behind. -/
inductive Event where
  | plain (cmd : Cmd) (u : List UInt8)
  | point (cmd : Cmd) (head data : List UInt8)
deriving DecidableEq, Repr

/-- What is added for a record: the bytes of `ap_addr`, the events that follow, and the padding in
the header of the rates with their values. -/
@[ext]
structure Record where
  apAddr : List UInt8
  length_apAddr : apAddr.length = 16
  events : List Event
  pad : List UInt8
  rates : List (List UInt8)
deriving DecidableEq, Repr

/-- The elements that `wl_iw_handle_scanresults_ies` finds. -/
def genies : List GenieEvent :=
  let ieLength := ScanIes.ieLength memory bi
  if ieLength = 0 then []
  else
    let ptr := bi + wlBssInfoSize
    let ptrLen := (BitVec.ofNat 32 ieLength).toInt
    let rsn := platform.bcmParseTlvs memory ptr ptrLen dot11MngRsnId
    let wps := findVendorIe platform memory 4 0x04 ieLength ptr ptrLen
    let wpa := findVendorIe platform memory 6 0x01 ieLength ptr ptrLen
    [rsn, wps, wpa].filterMap (·.map (genieEvent memory))

/-- It makes its events in a union of its own, in which it sets the length only. -/
def genieOf (ies : ℕ → UInt8) (genie : GenieEvent) : Event :=
  .point .genie (slice (fill [⟨8, le16 genie.length.toNat⟩] ies) 8 4) genie.data

/-- One turn of the loop in `wl_iw_get_scan`: what is added, and the union after it. -/
def bssRecord (pad ies iwe : ℕ → UInt8) : Record × (ℕ → UInt8) :=
  let apAddr := fill (apAddrStores memory bi) iwe
  let essid := fill (essidStores memory bi) apAddr
  let mode := fill (modeStores memory bi) essid
  let freq := fill (freqStores channels memory bi) mode
  let qual := fill (qualStores memory bi) freq
  let encode := fill (encodeStores memory bi) qual
  let values := bitrateValues memory bi
  (⟨slice apAddr 0 16, length_slice ..,
      [.point .giwessid (slice essid 8 4)
          (slice memory (bi + ssidAt) (memory (bi + ssidLenAt)).toNat)] ++
        (if HasMode memory bi then [.plain .giwmode (slice mode 0 4)] else []) ++
        [.plain .giwfreq (slice freq 0 8), .plain .ivqual (slice qual 0 4)] ++
        (genies platform memory bi).map (genieOf ies) ++ [.point .giwencode (slice encode 8 4) []],
      slice pad 0 4,
      values.map fun value ↦ slice (fill (bitrateStores ++ [⟨0, le32 value⟩]) encode) 0 8⟩,
    if values = [] then encode
    else fill (bitrateStores ++ values.map fun value ↦ ⟨0, le32 value⟩) encode)

/-- What is on the stack, before a value is stored: the union of `iwe` in `wl_iw_get_scan`, the
padding in front of it, and in each turn the union in `wl_iw_handle_scanresults_ies`. -/
structure Stack where
  iwe : ℕ → UInt8
  pad : ℕ → UInt8
  ies : ℕ → ℕ → UInt8

/-- The turns of the loop, the first of them the one with this number. -/
def scanRecords (pad : ℕ → UInt8) (ies : ℕ → ℕ → UInt8) : ℕ → ℕ → (ℕ → UInt8) → ℕ → List Record
  | 0, _, _, _ => []
  | count + 1, turn, iwe, bi =>
      let (record, iwe) := bssRecord channels platform memory bi pad (ies turn) iwe
      record :: scanRecords pad ies count (turn + 1) iwe (nextBss memory bi)

end Model

/-! ## The stream -/

section Stream

def valueLen : ℕ := iwEvParamLen - iwEvLcpLen

def Event.length : Event → ℕ
  | .plain _ u => iwEvLcpLen + u.length
  | .point _ _ data => iwEvPointLen + data.length

def siocgiwrate : ℕ := 0x8B21

/-- The header of so many values: `len`, `cmd` and the padding. -/
def ratesHeader (pad : List UInt8) (count : ℕ) : List UInt8 :=
  le16 (iwEvLcpLen + valueLen * count) ++ le16 siocgiwrate ++ pad

/-- What follows an address in the stream: one of the events above, or the header of the rates with
the values. -/
inductive Shown where
  | event (event : Event)
  | rates (header : List UInt8) (values : List (List UInt8))
deriving DecidableEq, Repr

/-- The rates in the stream; without a value there is no header. -/
def showRates (pad : List UInt8) (values : List (List UInt8)) : Option Shown :=
  if values = [] then none else some (.rates (ratesHeader pad values.length) values)

theorem showRates_of_ne_nil {values : List (List UInt8)} (pad : List UInt8) (h : values ≠ []) :
    showRates pad values = some (.rates (ratesHeader pad values.length) values) := if_neg h

variable (fits : ℕ → Bool)

/-- Add the events between the address and the rates of a record that starts at `start`. -/
def addEvents (record : Record) (start : ℕ) : ℕ × List Event :=
  appendFitting fits Event.length record.events
    (if fits (start + iwEvAddrLen) then start + iwEvAddrLen else start)

/-- Add the events of a record from `start` on. When no value fits behind the header of the rates,
the room of the header is left as it is. -/
def addRecord (record : Record) (start : ℕ) : ℕ × Segment (List UInt8) Shown :=
  let opened := fits (start + iwEvAddrLen)
  let (value, events) := addEvents fits record start
  let shown := events.map fun event ↦ some (.event event)
  if record.rates = [] then (value, ⟨record.apAddr, opened, shown⟩)
  else
    let (last, values) := appendFitting fits (fun _ ↦ valueLen) record.rates (value + iwEvLcpLen)
    (last, ⟨record.apAddr, opened, shown ++ [showRates record.pad values]⟩)

def addRecords : List Record → ℕ → ℕ × List (Segment (List UInt8) Shown)
  | [], start => (start, [])
  | record :: records, start =>
      let (stop, segment) := addRecord fits record start
      let (last, segments) := addRecords records stop
      (last, segment :: segments)

end Stream

/-! ## The lengths are those that the handler adds -/

section Lengths

variable {channels : Channels} {platform : Platform} {memory : ℕ → UInt8}

def Event.piece (event : Event) : Piece := .event event.length

def Record.pieces (record : Record) : List Piece :=
  .event (iwEvLcpLen + record.apAddr.length) :: record.events.map Event.piece ++
    if record.rates = [] then [] else [.rates record.rates.length]

theorem piece_genies (ies : ℕ → UInt8) (bi : ℕ) :
    ((genies platform memory bi).map (genieOf ies)).map Event.piece =
      Iw.wlIwHandleScanresultsIes platform memory bi := by
  unfold genies Iw.wlIwHandleScanresultsIes
  dsimp only
  change (List.map _ (List.map _ (if load32 memory (bi + _) = 0 then _ else _))) = _
  by_cases hempty : load32 memory (bi + Cfg80211.ScanResults.ieLengthAt) = 0
  · rw [if_pos hempty, if_pos hempty]
    rfl
  · have hpiece : (fun ie ↦ Piece.point ((memory (ie + 1)).toNat + 2)) =
        (Event.piece ∘ genieOf ies) ∘ genieEvent memory := by
      funext ie
      change _ = Piece.event (iwEvPointLen + (genieEvent memory ie).data.length)
      rw [← ScanIes.length_genieEvent, genieEvent, ScanIes.toNat_genieLength, Tlv.lenAt,
        Nat.add_comm 2]
      rfl
    rw [if_neg hempty, if_neg hempty, List.map_map, hpiece, List.map_filterMap]
    simp only [Option.map_map]
    rfl

theorem length_bitrateValues (bi : ℕ) :
    (bitrateValues memory bi).length = min (load32 memory (bi + ratesetAt)) iwMaxBitrates := by
  rw [bitrateValues, List.length_map, List.length_range]

theorem bitrateValues_eq_nil_iff (bi : ℕ) :
    bitrateValues memory bi = [] ↔ load32 memory (bi + ratesetAt) = 0 := by
  rw [← List.length_eq_zero_iff, length_bitrateValues, iwMaxBitrates]
  omega

theorem pieces_bssRecord (bi : ℕ) (pad ies iwe : ℕ → UInt8) :
    (bssRecord channels platform memory bi pad ies iwe).1.pieces =
      bssPieces platform memory bi := by
  unfold bssRecord bssPieces Record.pieces
  simp only [List.map_append, List.map_cons, List.map_nil, piece_genies, Event.piece, Event.length,
    length_slice, List.length_map, List.length_nil, List.map_eq_nil_iff, length_bitrateValues,
    bitrateValues_eq_nil_iff, ite_not]
  by_cases hmode : HasMode memory bi
  · rw [if_pos hmode, if_neg (show ¬_ from hmode), List.map_singleton, Event.piece, Event.length,
      length_slice]
    rfl
  · rw [if_neg hmode, if_pos (not_not.mp hmode)]
    rfl

theorem pieces_scanRecords (pad : ℕ → UInt8) (ies : ℕ → ℕ → UInt8) (count turn : ℕ)
    (iwe : ℕ → UInt8) (bi : ℕ) :
    (scanRecords channels platform memory pad ies count turn iwe bi).flatMap Record.pieces =
      scanPieces platform memory count bi := by
  induction count generalizing turn iwe bi with
  | zero => rfl
  | succ count ih =>
    rw [scanRecords, scanPieces, List.flatMap_cons, ih, pieces_bssRecord]

variable {streamFits : ℕ → ℕ → Bool} {ends : ℕ}

theorem addPieces_append (first second : List Piece) (start : ℕ) :
    (addPieces streamFits ends (first ++ second) start).1 =
      (addPieces streamFits ends second (addPieces streamFits ends first start).1).1 := by
  induction first generalizing start with
  | nil => rfl
  | cons piece first ih => exact ih _

theorem addValues_stop (event : ℕ) (values : List (List UInt8)) (value : ℕ) :
    (addValues streamFits ends event values.length value).1 =
      (appendFitting (streamFits · ends) (fun _ ↦ valueLen) values value).1 := by
  induction values generalizing value with
  | nil => rfl
  | cons first values ih =>
    rw [List.length_cons, addValues]
    by_cases hfits : streamFits (value + valueLen) ends = true
    · rw [appendFitting_cons_of_fits hfits]
      dsimp only
      rw [← valueLen, if_pos hfits]
      exact ih _
    · rw [appendFitting_cons_of_not_fits hfits]
      dsimp only
      rw [← valueLen, if_neg hfits]
      exact ih value

theorem addEvents_stop (events : List Event) (start : ℕ) :
    (addPieces streamFits ends (events.map Event.piece) start).1 =
      (appendFitting (streamFits · ends) Event.length events start).1 := by
  induction events generalizing start with
  | nil => rfl
  | cons event events ih =>
    rw [List.map_cons, addPieces, Event.piece, Piece.add]
    by_cases hfits : streamFits (start + event.length) ends = true
    · rw [appendFitting_cons_of_fits hfits, if_pos hfits]
      exact ih _
    · rw [appendFitting_cons_of_not_fits hfits, if_neg hfits]
      exact ih start

theorem addRecord_stop (record : Record) (start : ℕ) :
    (addRecord (streamFits · ends) record start).1 =
      (addPieces streamFits ends record.pieces start).1 := by
  have hopening : (addPieces streamFits ends [.event iwEvAddrLen] start).1 =
      if streamFits (start + iwEvAddrLen) ends then start + iwEvAddrLen else start := by
    rw [addPieces, Piece.add]
    by_cases hfits : streamFits (start + iwEvAddrLen) ends = true
    · rw [if_pos hfits, if_pos hfits]
      rfl
    · rw [if_neg hfits, if_neg hfits]
      rfl
  have hpieces : record.pieces = [.event iwEvAddrLen] ++ record.events.map Event.piece ++
      if record.rates = [] then [] else [.rates record.rates.length] := by
    rw [Record.pieces, record.length_apAddr]
    rfl
  rw [hpieces, addPieces_append, addPieces_append, hopening, addEvents_stop]
  unfold addRecord
  dsimp only
  by_cases hrates : record.rates = []
  · rw [if_pos hrates, if_pos hrates]
    rfl
  · rw [if_neg hrates, if_neg hrates]
    exact (addValues_stop _ _ _).symm

theorem addRecords_stop (records : List Record) (start : ℕ) :
    (addRecords (streamFits · ends) records start).1 =
      (addPieces streamFits ends (records.flatMap Record.pieces) start).1 := by
  induction records generalizing start with
  | nil => rfl
  | cons record records ih =>
    rw [List.flatMap_cons, addPieces_append, ← addRecord_stop, ← ih]
    rfl

end Lengths

/-! ## The reply -/

section Reply

variable (channels : Channels) (platform : Platform)

/-- What was added for the records that the firmware left, with the unions that were on the
stack. -/
def replyRecords (stack : Stack) : List Record :=
  let memory := (platform.firmware .scanResults).reply
  scanRecords channels platform memory stack.pad stack.ies (min (listCount memory) iwMaxAp) 0
    stack.iwe bssInfoAt

/-- The reply in a buffer of so many bytes. -/
def reply (stack : Stack) (length : ℕ) : ℕ × List (Segment (List UInt8) Shown) :=
  addRecords (platform.streamFits · length) (replyRecords channels platform stack) 0

/-- A request that gets as far as the events leaves their length. -/
theorem wlIwGetScan_length {iw : Iw.WlIw} {dwrq : IwPoint} {bytes : ℕ → UInt8}
    (hchannel : (platform.firmware .channel).error = 0)
    (hdone : load32 (platform.firmware .channel).reply 8 = 0) (hkmalloc : platform.kmalloc = true)
    (hresults : (platform.firmware .scanResults).error = 0) (stack : Stack) :
    (Iw.wlIwGetScan platform iw dwrq (some bytes)).dwrq =
      ⟨UInt16.ofNat (reply channels platform stack dwrq.length.toNat).1, 0⟩ := by
  unfold Iw.wlIwGetScan reply replyRecords
  rw [if_neg (show ¬(some bytes).isNone = true from Bool.false_ne_true)]
  dsimp only
  rw [if_neg (not_not.mpr hchannel), if_neg (not_not.mpr hdone), hkmalloc,
    if_neg (show ¬(!true) = true by decide), if_neg (not_not.mpr hresults), addRecords_stop,
    pieces_scanRecords]

/-! A network without a name and with one rate, and a kernel that keeps a byte free. -/

def oneNetwork (i : ℕ) : UInt8 :=
  if i = 8 ∨ i = bssInfoAt + ratesetAt then 1
  else if i = bssInfoAt + ratesetAt + 4 then 0x82
  else 0

def oneNetworkPlatform : Platform :=
  { Iw.silentPlatform with
    firmware := fun call ↦ ⟨0, if call = .scanResults then oneNetwork else fun _ ↦ 0⟩ }

def plainChannels : Channels where
  chspecChannel := fun chanspec ↦ chanspec % 256
  chMax2gChannel := 14
  wfChannel2mhz := fun channel factor ↦
    match factor with
    | .twoPointFourG => 2407 + 5 * channel
    | .fiveG => 5000 + 5 * channel

def zeroStack : Stack := ⟨fun _ ↦ 0, fun _ ↦ 0, fun _ _ ↦ 0⟩

theorem antitone_streamFits (length : ℕ) : Antitone (oneNetworkPlatform.streamFits · length) := by
  intro stop stop' hle hfit
  exact decide_eq_true (Nat.lt_of_le_of_lt hle (of_decide_eq_true hfit))

end Reply

/-! ## What is readable -/

section Readable

variable {fits : ℕ → Bool}

/-- Every event takes the room of the shortest one, which is there. -/
structure Usual (events : List Event) : Prop where
  least : ∀ event ∈ events, 12 ≤ event.length
  shortest : ∃ event ∈ events, event.length = 12

theorem Event.point_le_length {event : Event} {cmd : Cmd} {head data : List UInt8}
    (h : event = .point cmd head data) : 12 ≤ event.length := by
  rw [h, Event.length, iwEvPointLen]
  omega

def Event.IsGenie : Event → Prop
  | .point .genie _ _ => True
  | _ => False

/-- The events up to the one of the quality, and those behind it. -/
theorem exists_quality (channels : Channels) (platform : Platform) (memory : ℕ → UInt8) (bi : ℕ)
    (pad ies iwe : ℕ → UInt8) :
    ∃ before after, (bssRecord channels platform memory bi pad ies iwe).1.events = before ++ after ∧
      Usual before ∧ (∀ event ∈ before, ¬event.IsGenie) ∧ ∀ event ∈ after, 12 ≤ event.length := by
  unfold bssRecord
  refine ⟨_, _, List.append_assoc .., ⟨?_, ?_⟩, ?_, ?_⟩
  · intro event hevent
    simp only [List.mem_append, List.mem_cons, List.not_mem_nil, or_false] at hevent
    obtain (hessid | hmode) | hfreq | hqual := hevent
    · exact Event.point_le_length hessid
    · obtain ⟨-, hmode⟩ := List.mem_ite_nil_right.mp hmode
      rw [List.mem_singleton.mp hmode, Event.length, length_slice, iwEvLcpLen]
    · rw [hfreq, Event.length, length_slice, iwEvLcpLen]
      decide
    · rw [hqual, Event.length, length_slice, iwEvLcpLen]
  · refine ⟨_, List.mem_append_right _ (List.mem_cons_of_mem _ List.mem_cons_self), ?_⟩
    rw [Event.length, length_slice, iwEvLcpLen]
  · intro event hevent
    simp only [List.mem_append, List.mem_cons, List.not_mem_nil, or_false] at hevent
    obtain (rfl | hmode) | rfl | rfl := hevent
    · exact not_false
    · obtain ⟨-, hmode⟩ := List.mem_ite_nil_right.mp hmode
      rw [List.mem_singleton.mp hmode]
      exact not_false
    · exact not_false
    · exact not_false
  · intro event hevent
    simp only [List.mem_append, List.mem_cons, List.not_mem_nil, or_false, List.mem_map] at hevent
    obtain ⟨genie, -, rfl⟩ | hencode := hevent
    · exact Event.point_le_length rfl
    · exact Event.point_le_length hencode

theorem usual_bssRecord (channels : Channels) (platform : Platform) (memory : ℕ → UInt8) (bi : ℕ)
    (pad ies iwe : ℕ → UInt8) :
    Usual (bssRecord channels platform memory bi pad ies iwe).1.events := by
  obtain ⟨before, after, hevents, husual, -, hafter⟩ :=
    exists_quality channels platform memory bi pad ies iwe
  rw [hevents]
  refine ⟨fun event hevent ↦ ?_, ?_⟩
  · exact (List.mem_append.mp hevent).elim (husual.least event) (hafter event)
  · obtain ⟨event, hevent, hlength⟩ := husual.shortest
    exact ⟨event, List.mem_append_left _ hevent, hlength⟩

/-- There is room for the first value of the rates. Without rates there is room for the address, or
not even for the shortest event. -/
def Intact (fits : ℕ → Bool) (record : Record) (start : ℕ) : Prop :=
  if record.rates = [] then
    fits (start + iwEvAddrLen) = true ∨ ¬fits (start + 12) = true
  else fits ((addEvents fits record start).1 + iwEvParamLen) = true

instance (fits : ℕ → Bool) (record : Record) (start : ℕ) :
    Decidable (Intact fits record start) := by
  unfold Intact
  infer_instance

/-- The records, each with the place where it starts. -/
def placed (fits : ℕ → Bool) : List Record → ℕ → List (Record × ℕ)
  | [], _ => []
  | record :: records, start =>
      (record, start) :: placed fits records (addRecord fits record start).1

theorem fits_mono (hfits : Antitone fits) {stop stop' : ℕ} (hle : stop ≤ stop')
    (h : fits stop' = true) : fits stop = true :=
  Bool.eq_true_of_true_le (h ▸ hfits hle)

/-- Events are added exactly if there is room for the shortest. -/
theorem Usual.eq_nil_iff {events : List Event} (h : Usual events) (hfits : Antitone fits)
    (start : ℕ) :
    (appendFitting fits Event.length events start).2 = [] ↔ ¬fits (start + 12) = true := by
  rw [appendFitting_eq_nil_iff]
  constructor
  · intro hnone
    obtain ⟨event, hevent, hlength⟩ := h.shortest
    rw [← hlength]
    exact hnone event hevent
  · intro hshort event hevent hfit
    exact hshort (fits_mono hfits (Nat.add_le_add_left (h.least event hevent) start) hfit)

/-- Room for something as long behind the events means that there was room for the address. -/
theorem Usual.fits_addr {events : List Event} (h : Usual events) (hfits : Antitone fits)
    {start len : ℕ} (hlen : 12 ≤ len)
    (hbehind : fits ((appendFitting fits Event.length events start).1 + len) = true) :
    fits (start + iwEvAddrLen) = true := by
  rw [appendFitting_fst] at hbehind
  cases hadded : (appendFitting fits Event.length events start).2 with
  | nil =>
    rw [hadded] at hbehind
    have hshort := (h.eq_nil_iff hfits start).mp hadded
    exact absurd (fits_mono hfits (Nat.add_le_add_left hlen start) hbehind) hshort
  | cons event rest =>
    have hmem : event ∈ events := (appendFitting_sublist _ _).subset (hadded ▸ List.mem_cons_self)
    have hleast := h.least event hmem
    rw [hadded, List.map_cons, List.sum_cons] at hbehind
    refine fits_mono hfits ?_ hbehind
    rw [iwEvAddrLen]
    omega

theorem addRecord_of_no_rates {record : Record} (hrates : record.rates = []) (start : ℕ) :
    addRecord fits record start =
      ((addEvents fits record start).1, ⟨record.apAddr, fits (start + iwEvAddrLen),
        (addEvents fits record start).2.map fun event ↦ some (.event event)⟩) := if_pos hrates

theorem addRecord_of_rates {record : Record} (hrates : record.rates ≠ []) (start : ℕ) :
    addRecord fits record start =
      let values := appendFitting fits (fun _ ↦ valueLen) record.rates
        ((addEvents fits record start).1 + iwEvLcpLen)
      (values.1, ⟨record.apAddr, fits (start + iwEvAddrLen),
        ((addEvents fits record start).2.map fun event ↦ some (.event event)) ++
          [showRates record.pad values.2]⟩) := if_neg hrates

theorem addRecord_opened (record : Record) (start : ℕ) :
    (addRecord fits record start).2.opened = fits (start + iwEvAddrLen) := by
  by_cases hrates : record.rates = []
  · rw [addRecord_of_no_rates hrates]
  · rw [addRecord_of_rates hrates]

theorem addRecord_key (record : Record) (start : ℕ) :
    (addRecord fits record start).2.key = record.apAddr := by
  by_cases hrates : record.rates = []
  · rw [addRecord_of_no_rates hrates]
  · rw [addRecord_of_rates hrates]

theorem none_not_mem_shown (events : List Event) :
    none ∉ events.map fun event ↦ some (Shown.event event) := by
  simp only [List.mem_map, reduceCtorEq, and_false, exists_false, not_false_eq_true]

/-- No value of the rates is added exactly if there is no room for the first one. -/
theorem values_eq_nil_iff {record : Record} (hrates : record.rates ≠ []) (start : ℕ) :
    (appendFitting fits (fun _ ↦ valueLen) record.rates
        ((addEvents fits record start).1 + iwEvLcpLen)).2 = [] ↔
      ¬fits ((addEvents fits record start).1 + iwEvParamLen) = true := by
  rw [appendFitting_eq_nil_iff]
  exact ⟨fun h ↦ h _ (List.head_mem hrates), fun h _ _ ↦ h⟩

theorem sound_addRecord_iff (hfits : Antitone fits) {record : Record}
    (husual : Usual record.events) (start : ℕ) :
    (addRecord fits record start).2.Sound ↔ Intact fits record start := by
  unfold Intact
  by_cases hrates : record.rates = []
  · rw [if_pos hrates, addRecord_of_no_rates hrates]
    by_cases hopened : fits (start + iwEvAddrLen) = true
    · exact iff_of_true ⟨none_not_mem_shown _, fun _ ↦ hopened⟩ (.inl hopened)
    · rw [or_iff_right hopened, ← husual.eq_nil_iff hfits]
      rw [addEvents, if_neg hopened]
      constructor
      · intro hsound
        by_contra hadded
        exact hopened (hsound.opened (mt List.map_eq_nil_iff.mp hadded))
      · intro hnone
        rw [hnone]
        exact ⟨List.not_mem_nil, fun hbody ↦ absurd rfl hbody⟩
  · rw [if_neg hrates, addRecord_of_rates hrates]
    have hvalues := @values_eq_nil_iff fits record hrates start
    constructor
    · intro hsound
      by_contra hvalue
      refine hsound.junk ?_
      dsimp only
      rw [hvalues.mpr hvalue]
      exact List.mem_append_right _ (List.mem_singleton_self _)
    · intro hvalue
      dsimp only
      rw [showRates_of_ne_nil _ (mt hvalues.mp (not_not.mpr hvalue))]
      have haddr : fits (start + iwEvAddrLen) = true := by
        by_contra hclosed
        rw [addEvents, if_neg hclosed] at hvalue
        exact hclosed (husual.fits_addr hfits (by decide) hvalue)
      refine ⟨fun hnone ↦ ?_, fun _ ↦ haddr⟩
      rcases List.mem_append.mp hnone with hnone | hnone
      · exact none_not_mem_shown _ hnone
      · exact Option.some_ne_none _ (List.mem_singleton.mp hnone).symm

theorem sound_addRecords_iff (hfits : Antitone fits) {records : List Record}
    (husual : ∀ record ∈ records, Usual record.events) (start : ℕ) :
    (∀ segment ∈ (addRecords fits records start).2, segment.Sound) ↔
      ∀ place ∈ placed fits records start, Intact fits place.1 place.2 := by
  induction records generalizing start with
  | nil => exact iff_of_true (List.forall_mem_nil _) (List.forall_mem_nil _)
  | cons record records ih =>
    rw [List.forall_mem_cons] at husual
    rw [placed, List.forall_mem_cons, ← sound_addRecord_iff hfits husual.1, ← ih husual.2]
    exact List.forall_mem_cons

theorem usual_scanRecords (channels : Channels) (platform : Platform) (memory pad : ℕ → UInt8)
    (ies : ℕ → ℕ → UInt8) (count turn : ℕ) (iwe : ℕ → UInt8) (bi : ℕ) :
    ∀ record ∈ scanRecords channels platform memory pad ies count turn iwe bi,
      Usual record.events := by
  induction count generalizing turn iwe bi with
  | zero => exact List.forall_mem_nil _
  | succ count ih => exact List.forall_mem_cons.mpr ⟨usual_bssRecord .., ih _ _ _⟩

/-- A reader gets back, each under its own address, the events that were added, exactly if there
was room for a value of the rates behind each record that has some, and for the address, or for no
event at all, of each record that has none. -/
theorem scan_readable_iff (channels : Channels) (platform : Platform) (stack : Stack) (length : ℕ)
    (hfits : Antitone (platform.streamFits · length)) :
    readGroups ((reply channels platform stack length).2.flatMap Segment.items) =
        some (((reply channels platform stack length).2.filter Segment.nonempty).map
          Segment.group) ↔
      ∀ place ∈ placed (platform.streamFits · length) (replyRecords channels platform stack) 0,
        Intact (platform.streamFits · length) place.1 place.2 :=
  (readGroups_segments_iff _).trans
    (sound_addRecords_iff hfits (usual_scanRecords _ _ _ _ _ _ _ _ _) 0)

/-- In a buffer of 100 bytes the header of the rates is left without a value. -/
theorem scan_readable_iff_rates :
    readGroups ((reply plainChannels oneNetworkPlatform zeroStack 100).2.flatMap Segment.items) ≠
      some (((reply plainChannels oneNetworkPlatform zeroStack 100).2.filter Segment.nonempty).map
        Segment.group) :=
  mt (scan_readable_iff plainChannels oneNetworkPlatform zeroStack 100
    (antitone_streamFits 100)).mp (by decide +kernel)

end Readable

/-! ## What is complete -/

section Complete

variable {fits : ℕ → Bool}

/-- The room for all that a record adds. -/
def Record.size (record : Record) : ℕ :=
  iwEvAddrLen + (record.events.map Event.length).sum +
    if record.rates = [] then 0 else iwEvLcpLen + valueLen * record.rates.length

/-- What a reader should find for a record. -/
def Record.group (record : Record) : List UInt8 × List Shown :=
  (record.apAddr, record.events.map .event ++
    if record.rates = [] then []
    else [.rates (ratesHeader record.pad record.rates.length) record.rates])

/-- The room of an item. -/
def itemSize : Item (List UInt8) Shown → ℕ
  | .opening _ => iwEvAddrLen
  | .inner (.event event) => event.length
  | .inner (.rates _ values) => iwEvLcpLen + valueLen * values.length
  | .junk => iwEvLcpLen

def streamSize (items : List (Item (List UInt8) Shown)) : ℕ := (items.map itemSize).sum

theorem streamSize_append (first second : List (Item (List UInt8) Shown)) :
    streamSize (first ++ second) = streamSize first + streamSize second := by
  rw [streamSize, List.map_append, List.sum_append]
  rfl

theorem streamSize_events (events : List Event) :
    streamSize ((events.map fun event ↦ some (Shown.event event)).map Segment.item) =
      (events.map Event.length).sum := by
  rw [streamSize, List.map_map, List.map_map]
  rfl

theorem streamSize_rates (pad : List UInt8) (values : List (List UInt8)) :
    streamSize ([showRates pad values].map Segment.item) =
      iwEvLcpLen + valueLen * values.length := by
  cases values with
  | nil => rfl
  | cons value values =>
    rw [showRates_of_ne_nil pad (List.cons_ne_nil value values)]
    rfl

/-- The position behind a record is as far as its items reach. -/
theorem addRecord_fst (record : Record) (start : ℕ) :
    (addRecord fits record start).1 =
      start + streamSize (addRecord fits record start).2.items := by
  have hevents : (addEvents fits record start).1 = start +
      streamSize (if fits (start + iwEvAddrLen) then [.opening record.apAddr] else []) +
        ((addEvents fits record start).2.map Event.length).sum := by
    rw [addEvents, appendFitting_fst]
    by_cases hopened : fits (start + iwEvAddrLen) = true
    · rw [if_pos hopened, if_pos hopened]
      rfl
    · rw [if_neg hopened, if_neg hopened]
      rfl
  by_cases hrates : record.rates = []
  · rw [addRecord_of_no_rates hrates, Segment.items, streamSize_append, streamSize_events,
      ← Nat.add_assoc]
    exact hevents
  · have hvalues := @appendFitting_fst _ fits (fun _ : List UInt8 ↦ valueLen) record.rates
      ((addEvents fits record start).1 + iwEvLcpLen)
    rw [List.map_const', List.sum_replicate_nat] at hvalues
    rw [addRecord_of_rates hrates, Segment.items]
    dsimp only
    rw [List.map_append, streamSize_append, streamSize_append, streamSize_events, streamSize_rates,
      hvalues, Nat.mul_comm]
    omega

theorem streamSize_writeGroup (record : Record) :
    streamSize (writeGroup record.group) = record.size := by
  have hevents : streamSize ((record.events.map Shown.event).map .inner) =
      (record.events.map Event.length).sum := by
    rw [streamSize, List.map_map, List.map_map]
    rfl
  rw [writeGroup, Record.group, Record.size, List.map_append]
  change iwEvAddrLen + streamSize (_ ++ _) = _
  rw [streamSize_append, hevents, ← Nat.add_assoc]
  congr 1
  by_cases hrates : record.rates = []
  · rw [if_pos hrates, if_pos hrates]
    rfl
  · rw [if_neg hrates, if_neg hrates]
    rfl

theorem add_size_of_no_rates {record : Record} (hrates : record.rates = []) (start : ℕ) :
    start + record.size = start + iwEvAddrLen + (record.events.map Event.length).sum := by
  rw [Record.size, if_pos hrates]
  omega

theorem add_size_of_rates {record : Record} (hrates : record.rates ≠ []) (start : ℕ) :
    start + record.size = start + iwEvAddrLen + (record.events.map Event.length).sum + iwEvLcpLen +
      (record.rates.map fun _ ↦ valueLen).sum := by
  rw [Record.size, if_neg hrates, List.map_const', List.sum_replicate_nat, Nat.mul_comm]
  omega

theorem addEvents_of_fits (hfits : Antitone fits) {record : Record} {start : ℕ}
    (h : fits (start + iwEvAddrLen + (record.events.map Event.length).sum) = true) :
    fits (start + iwEvAddrLen) = true ∧ addEvents fits record start =
      (start + iwEvAddrLen + (record.events.map Event.length).sum, record.events) := by
  have hopened := fits_mono hfits (Nat.le_add_right _ _) h
  rw [addEvents, if_pos hopened]
  exact ⟨hopened, appendFitting_of_fits hfits h⟩

/-- A record that fits is added as a whole. -/
theorem addRecord_of_fits (hfits : Antitone fits) {record : Record} {start : ℕ}
    (h : fits (start + record.size) = true) :
    addRecord fits record start =
      (start + record.size, ⟨record.apAddr, true, record.group.2.map some⟩) := by
  by_cases hrates : record.rates = []
  · rw [add_size_of_no_rates hrates] at h ⊢
    obtain ⟨hopened, hevents⟩ := addEvents_of_fits hfits h
    rw [addRecord_of_no_rates hrates, hevents, hopened, Record.group, if_pos hrates,
      List.append_nil, List.map_map]
    rfl
  · rw [add_size_of_rates hrates] at h ⊢
    obtain ⟨hopened, hevents⟩ := addEvents_of_fits hfits (fits_mono hfits
      (Nat.le_add_right_of_le (Nat.le_add_right _ iwEvLcpLen)) h)
    rw [addRecord_of_rates hrates, hevents, hopened, appendFitting_of_fits hfits h, Record.group,
      if_neg hrates]
    dsimp only
    rw [showRates_of_ne_nil _ hrates, List.map_append, List.map_map]
    rfl

theorem Event.length_pos (event : Event) : 0 < event.length := by
  cases event with
  | plain cmd u => exact Nat.lt_of_lt_of_le (by decide) (Nat.le_add_right iwEvLcpLen _)
  | point cmd head data => exact Nat.lt_of_lt_of_le (by decide) (Nat.le_add_right iwEvPointLen _)

theorem addEvents_fst_lt {record : Record} {start : ℕ}
    (h : ¬fits (start + iwEvAddrLen + (record.events.map Event.length).sum) = true) :
    (addEvents fits record start).1 <
      start + iwEvAddrLen + (record.events.map Event.length).sum := by
  rw [addEvents]
  by_cases hopened : fits (start + iwEvAddrLen) = true
  · rw [if_pos hopened]
    refine appendFitting_fst_lt Event.length_pos (fun hnil ↦ h ?_) h
    rw [hnil]
    exact hopened
  · rw [if_neg hopened]
    have hle := @appendFitting_fst_le _ fits Event.length record.events start
    rw [iwEvAddrLen]
    omega

/-- A record that does not fit ends before its size. -/
theorem addRecord_fst_lt (hfits : Antitone fits) {record : Record} {start : ℕ}
    (h : ¬fits (start + record.size) = true) :
    (addRecord fits record start).1 < start + record.size := by
  by_cases hrates : record.rates = []
  · rw [add_size_of_no_rates hrates] at h ⊢
    rw [addRecord_of_no_rates hrates]
    exact addEvents_fst_lt h
  · rw [add_size_of_rates hrates] at h ⊢
    rw [addRecord_of_rates hrates]
    by_cases hevents : fits (start + iwEvAddrLen + (record.events.map Event.length).sum) = true
    · rw [(addEvents_of_fits hfits hevents).2]
      exact appendFitting_fst_lt (fun _ ↦ by decide) hrates h
    · have hlt := addEvents_fst_lt hevents
      have hle := @appendFitting_fst_le _ fits (fun _ : List UInt8 ↦ valueLen) record.rates
        ((addEvents fits record start).1 + iwEvLcpLen)
      dsimp only
      omega

theorem addRecord_fst_le (hfits : Antitone fits) (record : Record) (start : ℕ) :
    (addRecord fits record start).1 ≤ start + record.size := by
  by_cases h : fits (start + record.size) = true
  · rw [addRecord_of_fits hfits h]
  · exact Nat.le_of_lt (addRecord_fst_lt hfits h)

/-! ### All records -/

theorem addRecords_cons (record : Record) (records : List Record) (start : ℕ) :
    addRecords fits (record :: records) start =
      ((addRecords fits records (addRecord fits record start).1).1,
        (addRecord fits record start).2 ::
          (addRecords fits records (addRecord fits record start).1).2) := rfl

theorem addRecords_fst (records : List Record) (start : ℕ) :
    (addRecords fits records start).1 =
      start + streamSize ((addRecords fits records start).2.flatMap Segment.items) := by
  induction records generalizing start with
  | nil => rfl
  | cons record records ih =>
    rw [addRecords_cons, List.flatMap_cons, streamSize_append, ← Nat.add_assoc, ← addRecord_fst]
    exact ih _

theorem addRecords_fst_le (hfits : Antitone fits) (records : List Record) (start : ℕ) :
    (addRecords fits records start).1 ≤ start + (records.map Record.size).sum := by
  induction records generalizing start with
  | nil => exact Nat.le_refl _
  | cons record records ih =>
    have hrecord := addRecord_fst_le hfits record start
    have hrecords := ih (addRecord fits record start).1
    rw [addRecords_cons, List.map_cons, List.sum_cons]
    omega

/-- Records that do not fit end before their size. -/
theorem addRecords_fst_lt (hfits : Antitone fits) {records : List Record} (hne : records ≠ [])
    {start : ℕ} (h : ¬fits (start + (records.map Record.size).sum) = true) :
    (addRecords fits records start).1 < start + (records.map Record.size).sum := by
  induction records generalizing start with
  | nil => exact absurd rfl hne
  | cons record records ih =>
    rw [List.map_cons, List.sum_cons, ← Nat.add_assoc] at h ⊢
    rw [addRecords_cons]
    by_cases hrecord : fits (start + record.size) = true
    · rw [addRecord_of_fits hfits hrecord]
      refine ih (fun hnil ↦ h ?_) h
      rw [hnil]
      exact hrecord
    · have hlt := addRecord_fst_lt hfits hrecord
      have hle := addRecords_fst_le hfits records (addRecord fits record start).1
      omega

/-- Records that fit are written one after the other. -/
theorem addRecords_of_fits (hfits : Antitone fits) {records : List Record} {start : ℕ}
    (h : fits (start + (records.map Record.size).sum) = true) :
    (addRecords fits records start).2.flatMap Segment.items =
      writeGroups (records.map Record.group) := by
  induction records generalizing start with
  | nil => rfl
  | cons record records ih =>
    rw [List.map_cons, List.sum_cons, ← Nat.add_assoc] at h
    have hrecord := addRecord_of_fits hfits (fits_mono hfits (Nat.le_add_right _ _) h)
    have hitems : Segment.items ⟨record.apAddr, true, record.group.2.map some⟩ =
        writeGroup record.group := by
      rw [Segment.items, List.map_map]
      rfl
    rw [addRecords_cons, List.flatMap_cons, hrecord, ih h, hitems]
    rfl

theorem streamSize_writeGroups (records : List Record) :
    streamSize (writeGroups (records.map Record.group)) = (records.map Record.size).sum := by
  induction records with
  | nil => rfl
  | cons record records ih =>
    rw [List.map_cons, writeGroups, List.flatMap_cons, ← writeGroups, streamSize_append, ih,
      streamSize_writeGroup, List.map_cons, List.sum_cons]

/-- A reader gets back all that the records of the firmware say, the first `IW_MAX_AP` of them,
exactly if all of it fits. The request is answered with success in any case. -/
theorem scan_complete_iff (channels : Channels) (platform : Platform) (stack : Stack) (length : ℕ)
    (hfits : Antitone (platform.streamFits · length)) :
    readGroups ((reply channels platform stack length).2.flatMap Segment.items) =
        some ((replyRecords channels platform stack).map Record.group) ↔
      replyRecords channels platform stack = [] ∨
        platform.streamFits ((replyRecords channels platform stack).map Record.size).sum length =
          true := by
  rw [readGroups_eq_some_iff, reply]
  constructor
  · intro hwritten
    by_contra hroom
    obtain ⟨hne, hroom⟩ := not_or.mp hroom
    rw [← Nat.zero_add (List.sum _)] at hroom
    have hlt := addRecords_fst_lt hfits hne hroom
    rw [addRecords_fst, hwritten, streamSize_writeGroups] at hlt
    exact Nat.lt_irrefl _ hlt
  · rintro (hnil | hroom)
    · rw [hnil]
      rfl
    · rw [← Nat.zero_add (List.sum _)] at hroom
      exact addRecords_of_fits hfits hroom

theorem scan_complete_iff_one :
    readGroups ((reply plainChannels oneNetworkPlatform zeroStack 101).2.flatMap Segment.items) =
      some ((replyRecords plainChannels oneNetworkPlatform zeroStack).map Record.group) :=
  (scan_complete_iff plainChannels oneNetworkPlatform zeroStack 101
    (antitone_streamFits 101)).mpr (.inr (by decide +kernel))

end Complete

/-! ## What the stack leaves in the reply -/

section Stack

/-- The event without what nothing in the source has stored: the flags of an information element. -/
def Event.masked : Event → Event
  | .point .genie head data => .point .genie (head.take 2 ++ [0, 0]) data
  | event => event

/-- Without the last bytes of `ap_addr` and the padding in the header of the rates either. -/
def maskAddr (apAddr : List UInt8) : List UInt8 := apAddr.take 8 ++ List.replicate 8 0

def Record.masked (record : Record) : Record where
  apAddr := maskAddr record.apAddr
  length_apAddr := by
    rw [maskAddr, List.length_append, List.length_take, record.length_apAddr, List.length_replicate]
    rfl
  events := record.events.map Event.masked
  pad := List.replicate 4 0
  rates := record.rates

def maskItem : Item (List UInt8) Shown → Item (List UInt8) Shown
  | .opening apAddr => .opening (maskAddr apAddr)
  | .inner (.event event) => .inner (.event event.masked)
  | .inner (.rates header values) => .inner (.rates (header.take 4 ++ List.replicate 4 0) values)
  | .junk => .junk

theorem Event.length_masked (event : Event) : event.masked.length = event.length := by
  unfold Event.masked
  split
  · rfl
  · rfl

variable {fits : ℕ → Bool}

theorem addEvents_masked (record : Record) (start : ℕ) :
    addEvents fits record.masked start =
      ((addEvents fits record start).1, (addEvents fits record start).2.map Event.masked) := by
  have hlength : Event.length ∘ Event.masked = Event.length := funext Event.length_masked
  rw [addEvents, Record.masked, appendFitting_map, hlength]
  rfl

theorem map_maskItem_events (events : List Event) :
    ((events.map fun event ↦ some (Shown.event event)).map Segment.item).map maskItem =
      ((events.map Event.masked).map fun event ↦ some (Shown.event event)).map Segment.item := by
  simp only [List.map_map]
  rfl

theorem map_maskItem_rates (pad : List UInt8) (values : List (List UInt8)) :
    ([showRates pad values].map Segment.item).map maskItem =
      [showRates (List.replicate 4 0) values].map Segment.item := by
  cases values with
  | nil => rfl
  | cons value values =>
    have hne := List.cons_ne_nil value values
    rw [showRates_of_ne_nil _ hne, showRates_of_ne_nil _ hne]
    rfl

/-- What is masked before it is added is masked in the stream. -/
theorem addRecord_masked (record : Record) (start : ℕ) :
    (addRecord fits record.masked start).1 = (addRecord fits record start).1 ∧
      (addRecord fits record.masked start).2.items =
        (addRecord fits record start).2.items.map maskItem := by
  have hopening :
      (if fits (start + iwEvAddrLen) then [Item.opening record.apAddr] else []).map maskItem =
        if fits (start + iwEvAddrLen) then [.opening (maskAddr record.apAddr)] else [] := by
    rw [apply_ite (List.map maskItem)]
    rfl
  by_cases hrates : record.rates = []
  · have hmasked : record.masked.rates = [] := hrates
    rw [addRecord_of_no_rates hrates, addRecord_of_no_rates hmasked, addEvents_masked]
    refine ⟨rfl, ?_⟩
    rw [Segment.items, Segment.items, List.map_append, map_maskItem_events, hopening]
    rfl
  · have hmasked : record.masked.rates ≠ [] := hrates
    rw [addRecord_of_rates hrates, addRecord_of_rates hmasked, addEvents_masked]
    refine ⟨rfl, ?_⟩
    rw [Segment.items, Segment.items, List.map_append, List.map_append, List.map_append,
      List.map_append, map_maskItem_events, map_maskItem_rates, hopening]
    rfl

theorem addRecords_masked (records : List Record) (start : ℕ) :
    (addRecords fits (records.map Record.masked) start).2.flatMap Segment.items =
      ((addRecords fits records start).2.flatMap Segment.items).map maskItem := by
  induction records generalizing start with
  | nil => rfl
  | cons record records ih =>
    obtain ⟨hstop, hitems⟩ := @addRecord_masked fits record start
    rw [List.map_cons, addRecords_cons, addRecords_cons, List.flatMap_cons, List.flatMap_cons,
      List.map_append, hstop, hitems, ih]

/-! ### The bytes that were stored -/

/-- Stores of the same bytes keep what two unions have in common. -/
theorem fill_congr {stores : List Store} {iwe iwe' : ℕ → UInt8} {i : ℕ} (h : iwe i = iwe' i) :
    fill stores iwe i = fill stores iwe' i := by
  rw [fill_apply, fill_apply, h]

variable {channels : Channels} {platform : Platform} {memory : ℕ → UInt8}

theorem apAddrStores_covered (bi : ℕ) {i : ℕ} (hi : i < 8) :
    Covered (apAddrStores memory bi) i := by
  rw [covered_iff_spans]
  have hspans : (apAddrStores memory bi).map Store.span = [⟨0, 2⟩, ⟨2, 6⟩] := by
    simp [apAddrStores, Store.span, le16]
  rw [hspans]
  unfold Range.Covers
  simp only [List.mem_cons, List.not_mem_nil, or_false, exists_eq_or_imp, exists_eq_left]
  omega

theorem apAddrStores_eight (bi : ℕ) : ¬Covered (apAddrStores memory bi) (0 + 8) := by
  rw [covered_iff_spans]
  have hspans : (apAddrStores memory bi).map Store.span = [⟨0, 2⟩, ⟨2, 6⟩] := by
    simp [apAddrStores, Store.span, le16]
  rw [hspans]
  decide

theorem essidStores_covered (bi : ℕ) {i : ℕ} (hfrom : 8 ≤ i) (hto : i < 12) :
    Covered (essidStores memory bi) i := by
  rw [covered_iff_spans]
  have hspans : (essidStores memory bi).map Store.span = [⟨8, 2⟩, ⟨10, 2⟩] := by
    simp [essidStores, Store.span, le16]
  rw [hspans]
  unfold Range.Covers
  simp only [List.mem_cons, List.not_mem_nil, or_false, exists_eq_or_imp, exists_eq_left]
  omega

theorem masked_genieOf (ies ies' : ℕ → UInt8) (genie : GenieEvent) :
    (genieOf ies genie).masked = (genieOf ies' genie).masked := by
  have hlength : slice (fill [⟨8, le16 genie.length.toNat⟩] ies) 8 2 =
      slice (fill [⟨8, le16 genie.length.toNat⟩] ies') 8 2 := by
    refine slice_congr fun i hi ↦ (fill_independent_iff _ _).mpr (covered_singleton.mpr ?_) _ _
    exact ⟨Nat.le_add_right 8 i, Nat.add_lt_add_left hi 8⟩
  have hmasked (iwe : ℕ → UInt8) : (genieOf iwe genie).masked = .point .genie
      (slice (fill [⟨8, le16 genie.length.toNat⟩] iwe) 8 2 ++ [0, 0]) genie.data := by
    rw [genieOf, slice_add _ 8 2 2, Event.masked, List.take_left' (length_slice ..)]
  rw [hmasked, hmasked, hlength]

/-- Two unions agree on the bytes that the events behind the address take. -/
def Agree (iwe iwe' : ℕ → UInt8) : Prop := ∀ i < 12, iwe i = iwe' i

theorem Agree.fill {iwe iwe' : ℕ → UInt8} (h : Agree iwe iwe') (stores : List Store) :
    Agree (fill stores iwe) (fill stores iwe') := fun i hi ↦ fill_congr (h i hi)

theorem Agree.slice {iwe iwe' : ℕ → UInt8} (h : Agree iwe iwe') {offset len : ℕ}
    (hlen : offset + len ≤ 12) : slice iwe offset len = slice iwe' offset len :=
  slice_congr fun i hi ↦ h (offset + i) (Nat.lt_of_lt_of_le (Nat.add_lt_add_left hi offset) hlen)

/-- What is added for a record depends on the stack only where it is masked. -/
theorem masked_bssRecord (bi : ℕ) (pad pad' ies ies' iwe iwe' : ℕ → UInt8) :
    (bssRecord channels platform memory bi pad ies iwe).1.masked =
      (bssRecord channels platform memory bi pad' ies' iwe').1.masked := by
  have haddr : ∀ i < 8,
      fill (apAddrStores memory bi) iwe i = fill (apAddrStores memory bi) iwe' i :=
    fun i hi ↦ (fill_independent_iff _ i).mpr (apAddrStores_covered bi hi) iwe iwe'
  have hessid : Agree (fill (essidStores memory bi) (fill (apAddrStores memory bi) iwe))
      (fill (essidStores memory bi) (fill (apAddrStores memory bi) iwe')) := by
    intro i hi
    rcases Nat.lt_or_ge i 8 with hlow | hhigh
    · exact fill_congr (haddr i hlow)
    · exact (fill_independent_iff _ i).mpr (essidStores_covered bi hhigh hi) _ _
  have hmode := hessid.fill (modeStores memory bi)
  have hfreq := hmode.fill (freqStores channels memory bi)
  have hqual := hfreq.fill (qualStores memory bi)
  have hencode := hqual.fill (encodeStores memory bi)
  refine Record.ext ?_ ?_ rfl ?_
  · change maskAddr (slice _ 0 16) = maskAddr (slice _ 0 16)
    rw [maskAddr, maskAddr, slice_add _ 0 8 8, slice_add _ 0 8 8,
      List.take_left' (length_slice ..), List.take_left' (length_slice ..)]
    exact congrArg (· ++ _) (slice_congr fun i hi ↦ haddr _ (by omega))
  · unfold bssRecord Record.masked
    dsimp only
    rw [hessid.slice (by decide), hmode.slice (by decide), hfreq.slice (by decide),
      hqual.slice (by decide), hencode.slice (by decide)]
    have hgenies : ((genies platform memory bi).map (genieOf ies)).map Event.masked =
        ((genies platform memory bi).map (genieOf ies')).map Event.masked := by
      rw [List.map_map, List.map_map]
      exact List.map_congr_left fun genie _ ↦ masked_genieOf ies ies' genie
    rw [List.map_append, List.map_append, hgenies, ← List.map_append, ← List.map_append]
  · exact List.map_congr_left fun value _ ↦ (hencode.fill _).slice (by decide)

theorem masked_scanRecords (pad pad' : ℕ → UInt8) (ies ies' : ℕ → ℕ → UInt8) (count turn : ℕ)
    (iwe iwe' : ℕ → UInt8) (bi : ℕ) :
    (scanRecords channels platform memory pad ies count turn iwe bi).map Record.masked =
      (scanRecords channels platform memory pad' ies' count turn iwe' bi).map Record.masked := by
  induction count generalizing turn iwe iwe' bi with
  | zero => rfl
  | succ count ih =>
    rw [scanRecords, scanRecords, List.map_cons, List.map_cons,
      masked_bssRecord bi pad pad' (ies turn) (ies' turn) iwe iwe', ih]

/-! ### Without room for an address -/

/-- Only points are masked. -/
theorem masked_eq_or (event : Event) : event.masked = event ∨ 12 ≤ event.length := by
  cases event with
  | plain cmd u => exact .inl rfl
  | point cmd head data => exact .inr (Event.point_le_length rfl)

theorem Event.masked_of_not_genie {event : Event} (h : ¬event.IsGenie) :
    event.masked = event := by
  unfold Event.masked
  split
  · exact absurd trivial h
  · rfl

/-- Events that are added without the address are added without anything that is masked. -/
theorem addEvents_masked_of_closed (hfits : Antitone fits) (hclosed : ¬fits iwEvAddrLen = true)
    {record : Record} {before after : List Event} (hsplit : record.events = before ++ after)
    (husual : Usual before) (hbefore : ∀ event ∈ before, ¬event.IsGenie) (start : ℕ) :
    ∀ event ∈ (addEvents fits record start).2, event.masked = event := by
  have haddr : ¬fits (start + iwEvAddrLen) = true :=
    fun h ↦ hclosed (fits_mono hfits (Nat.le_add_left _ _) h)
  intro event hevent
  rw [addEvents, if_neg haddr, hsplit, appendFitting_append] at hevent
  rcases List.mem_append.mp hevent with hevent | hevent
  · exact Event.masked_of_not_genie (hbefore event ((appendFitting_sublist _ _).subset hevent))
  · refine (masked_eq_or event).resolve_right fun hlength ↦ haddr ?_
    exact husual.fits_addr hfits hlength (fits_of_mem_appendFitting hfits hevent)

theorem addRecord_items_masked (hfits : Antitone fits) (hclosed : ¬fits iwEvAddrLen = true)
    (bi : ℕ) (pad ies iwe : ℕ → UInt8) (start : ℕ) :
    let record := (bssRecord channels platform memory bi pad ies iwe).1
    (addRecord fits record start).2.items.map maskItem = (addRecord fits record start).2.items := by
  intro record
  obtain ⟨before, after, hsplit, husual, hbefore, -⟩ :=
    exists_quality channels platform memory bi pad ies iwe
  have haddr : ¬fits (start + iwEvAddrLen) = true :=
    fun h ↦ hclosed (fits_mono hfits (Nat.le_add_left _ _) h)
  have hunmasked : (addEvents fits record start).2.map Event.masked =
      (addEvents fits record start).2 := by
    refine (List.map_congr_left fun event hevent ↦ ?_).trans (List.map_id _)
    exact addEvents_masked_of_closed hfits hclosed hsplit husual hbefore start event hevent
  by_cases hrates : record.rates = []
  · rw [addRecord_of_no_rates hrates, Segment.items, if_neg haddr, List.nil_append,
      map_maskItem_events, hunmasked]
  · have hnone : (appendFitting fits (fun _ ↦ valueLen) record.rates
        ((addEvents fits record start).1 + iwEvLcpLen)).2 = [] := by
      refine (values_eq_nil_iff hrates start).mpr fun hvalue ↦ haddr ?_
      rw [addEvents, if_neg haddr] at hvalue
      exact (usual_bssRecord channels platform memory bi pad ies iwe).fits_addr hfits (by decide)
        hvalue
    rw [addRecord_of_rates hrates, Segment.items, if_neg haddr, List.nil_append]
    dsimp only
    rw [List.map_append, List.map_append, map_maskItem_events, map_maskItem_rates, hunmasked, hnone]
    rfl

theorem scanRecords_items_masked (hfits : Antitone fits) (hclosed : ¬fits iwEvAddrLen = true)
    (pad : ℕ → UInt8) (ies : ℕ → ℕ → UInt8) (count turn : ℕ) (iwe : ℕ → UInt8) (bi start : ℕ) :
    let items := (addRecords fits (scanRecords channels platform memory pad ies count turn iwe bi)
      start).2.flatMap Segment.items
    items.map maskItem = items := by
  induction count generalizing turn iwe bi start with
  | zero => rfl
  | succ count ih =>
    dsimp only at ih ⊢
    rw [scanRecords, addRecords_cons, List.flatMap_cons, List.map_append, ih,
      addRecord_items_masked hfits hclosed]

/-- With room for an address, the reply starts with the one of the first record. -/
theorem head_reply (channels : Channels) {length : ℕ} (stack : Stack)
    (hcount : listCount (platform.firmware .scanResults).reply ≠ 0)
    (hopened : platform.streamFits iwEvAddrLen length = true) :
    ((reply channels platform stack length).2.flatMap Segment.items).head? =
      some (.opening (slice (fill (apAddrStores (platform.firmware .scanResults).reply bssInfoAt)
        stack.iwe) 0 16)) := by
  obtain ⟨count, hsucc⟩ : ∃ count,
      min (listCount (platform.firmware .scanResults).reply) iwMaxAp = count + 1 :=
    Nat.exists_eq_succ_of_ne_zero (by rw [iwMaxAp]; omega)
  have haddr : platform.streamFits (0 + iwEvAddrLen) length = true := by
    rw [Nat.zero_add]
    exact hopened
  unfold reply replyRecords
  dsimp only
  rw [hsucc, scanRecords, addRecords_cons, List.flatMap_cons, Segment.items,
    @addRecord_opened (platform.streamFits · length), if_pos haddr, addRecord_key]
  rfl

/-- The bytes of the stack that reach the user are the last ones of the addresses, the flags of the
information elements and the padding in the headers of the rates. None do only if there is no
record, or no room for an address. -/
theorem scan_leaks_iff (channels : Channels) (platform : Platform) (length : ℕ)
    (hfits : Antitone (platform.streamFits · length)) :
    (∀ stack stack',
      ((reply channels platform stack length).2.flatMap Segment.items).map maskItem =
        ((reply channels platform stack' length).2.flatMap Segment.items).map maskItem) ∧
    ((∀ stack stack',
      (reply channels platform stack length).2.flatMap Segment.items =
        (reply channels platform stack' length).2.flatMap Segment.items) ↔
      listCount (platform.firmware .scanResults).reply = 0 ∨
        ¬platform.streamFits iwEvAddrLen length = true) := by
  have hmasked (stack stack' : Stack) :
      ((reply channels platform stack length).2.flatMap Segment.items).map maskItem =
        ((reply channels platform stack' length).2.flatMap Segment.items).map maskItem := by
    unfold reply
    rw [← addRecords_masked, ← addRecords_masked, replyRecords, replyRecords, masked_scanRecords]
  refine ⟨hmasked, fun hsame ↦ ?_, fun hnone stack stack' ↦ ?_⟩
  · by_contra hleak
    obtain ⟨hcount, hopened⟩ := not_or.mp hleak
    -- the first event has a byte of the union that nothing has stored
    have hfirst (stack : Stack) := head_reply channels stack hcount (not_not.mp hopened)
    have hopening := (hfirst zeroStack).symm.trans
      ((congrArg List.head? (hsame _ _)).trans (hfirst { zeroStack with iwe := fun _ ↦ 1 }))
    have hslices := Item.opening.inj (Option.some.inj hopening)
    have hbyte := congrArg (fun bytes : List UInt8 ↦ bytes[8]?) hslices
    dsimp only at hbyte
    rw [getElem?_slice, getElem?_slice, if_pos (by decide),
      fill_of_not_covered (apAddrStores_eight bssInfoAt),
      fill_of_not_covered (apAddrStores_eight bssInfoAt)] at hbyte
    exact absurd hbyte (by decide)
  · rcases hnone with hcount | hclosed
    · unfold reply replyRecords
      dsimp only
      rw [hcount]
      rfl
    · have hitems := hmasked stack stack'
      unfold reply replyRecords at hitems ⊢
      rwa [scanRecords_items_masked hfits hclosed, scanRecords_items_masked hfits hclosed] at hitems

theorem scan_leaks_iff_one :
    ¬∀ stack stack',
      (reply plainChannels oneNetworkPlatform stack 100).2.flatMap Segment.items =
        (reply plainChannels oneNetworkPlatform stack' 100).2.flatMap Segment.items :=
  mt (scan_leaks_iff plainChannels oneNetworkPlatform 100 (antitone_streamFits 100)).2.mp
    (by decide +kernel)

end Stack

end BroadcomWl.Wext.ScanEvents
