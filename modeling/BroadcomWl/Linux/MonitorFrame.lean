import BroadcomWl.Memory.Stores
import Mathlib.Algebra.Ring.Nat

/-!
# Frames for the monitor interface

`wl_monitor` copies a received frame into a fresh socket buffer behind one of six headers: the
prism header of monitor type 1, two radiotap forms of type 2, and three of type 3. The buffer is
described by its length and the stores that fill it, in the terms of the header structures; what
`dev_alloc_skb` left in it shows wherever nothing is stored.

The structures are packed, so a member starts where the ones before it end. The macros and
constants of headers that are not part of the tree have their standard values; what depends on
the channel specification is a parameter.
-/

namespace BroadcomWl.Linux.MonitorFrame

open BroadcomWl.Memory

/-! ## Receive status and packet -/

/-- `wl_rxsts_t`. -/
structure WlRxsts where
  pkterror : UInt32
  phytype : UInt32
  chanspec : UInt16
  datarate : UInt16
  mcs : UInt8
  htflags : UInt8
  antenna : UInt32
  pktlength : UInt32
  mactime : UInt32
  sq : UInt32
  signal : Int32
  noise : Int32
  preamble : UInt32
  encoding : UInt32
  nfrmtype : UInt32
  nss : UInt8
  coding : UInt8
  aid : UInt16
  gid : UInt8
  bw : UInt8
  vhtflags : UInt16
  bwNonht : UInt8
  ampduCounter : UInt32

def wlRxsCrcError : UInt32 := 1
def wlRxsPhyN : UInt32 := 4
def wlRxsEncodingHt : UInt32 := 3
def wlRxsEncodingVht : UInt32 := 4
def wlRxsPreambleShort : UInt32 := 1
def wlRxsPreambleHtGf : UInt32 := 4

def wlRxsHtfBwMask : UInt8 := 0x07
def wlRxsHtf40 : UInt8 := 0x01
def wlRxsHtf20L : UInt8 := 0x02
def wlRxsHtf20U : UInt8 := 0x04
def wlRxsHtfSgi : UInt8 := 0x08
def wlRxsHtfStbcMask : UInt8 := 0x30
def wlRxsHtfLdpc : UInt8 := 0x40

def wlRxsVhtfDynBwNonht : UInt16 := 0x40

def wlRxsNfrmAmpduFirst : UInt32 := 0x001
def wlRxsNfrmAmpduSub : UInt32 := 0x002
def wlRxsNfrmAmpduNone : UInt32 := 0x100

/-- The packet: the bytes from the end of the PHY header on, how many of them belong to the frame,
and the data of the packets chained to it. -/
structure Packet where
  frame : ℕ → UInt8
  frameLen : ℕ
  next : List (List UInt8)

/-- `mac_header->fc`. -/
def Packet.fc (p : Packet) : UInt16 := UInt16.ofNat (load16 p.frame 0)

/-- The bytes of the frame. -/
def Packet.bytes (p : Packet) : List UInt8 := (List.range p.frameLen).map p.frame

def fcWep : UInt16 := 0x4000
def fcMorefrag : UInt16 := 0x0400
def fcKindMask : UInt16 := 0x00fc
def fcRts : UInt16 := 0x00b4
def fcCts : UInt16 := 0x00c4

/-- The factors of `wf_channel2mhz`. -/
inductive ChanFactor where
  | twoPointFourG
  | fiveG
deriving DecidableEq

/-- What the headers outside the tree provide. -/
structure Wifi where
  chspecIs2g : UInt16 → Bool
  wfChspecCtlchan : UInt16 → ℕ
  wfChannel2mhz : ℕ → ChanFactor → ℤ
  ampduMpduOnly : UInt16

/-! ## Fields that the radiotap forms share -/

def radiotapFShortpre : UInt8 := 0x02
def radiotapFWep : UInt8 := 0x04
def radiotapFFrag : UInt8 := 0x08
def radiotapFFcs : UInt8 := 0x10
def radiotapFBadfcs : UInt8 := 0x40

/-- The flags byte. -/
def rtapFlags (rxsts : WlRxsts) (fc : UInt16) : UInt8 :=
  radiotapFFcs |||
    (if rxsts.preamble = wlRxsPreambleShort then radiotapFShortpre else 0) |||
    (if fc &&& fcWep ≠ 0 then radiotapFWep else 0) |||
    (if fc &&& fcMorefrag ≠ 0 then radiotapFFrag else 0) |||
    (if rxsts.pkterror &&& wlRxsCrcError ≠ 0 then radiotapFBadfcs else 0)

def chan2ghz : ℕ := 0x0080
def chan5ghz : ℕ := 0x0100
def chanOfdm : ℕ := 0x0040
def chanDyn : ℕ := 0x0400

def channelFlags (wifi : Wifi) (rxsts : WlRxsts) : ℕ :=
  if wifi.chspecIs2g rxsts.chanspec then chan2ghz ||| chanDyn else chan5ghz ||| chanOfdm

def channelFrequency (wifi : Wifi) (rxsts : WlRxsts) : ℤ :=
  wifi.wfChannel2mhz (wifi.wfChspecCtlchan rxsts.chanspec)
    (if wifi.chspecIs2g rxsts.chanspec then .twoPointFourG else .fiveG)

/-- An integer as an unsigned 16-bit value. -/
def toU16 (value : ℤ) : ℕ := (value % 65536).toNat

/-- `struct ieee80211_radiotap_header`. -/
def radiotapHeader (itLen itPresent : ℕ) : List Store :=
  [⟨0, [0]⟩, ⟨1, [0]⟩, ⟨2, le16 itLen⟩, ⟨4, le32 itPresent⟩]

/-- `tsft_l`, `tsft_h` and, 8 bytes on, `flags`. -/
def tsftAndFlags (base : ℕ) (rxsts : WlRxsts) (fc : UInt16) : List Store :=
  [⟨base, le32 rxsts.mactime.toNat⟩, ⟨base + 4, le32 0⟩, ⟨base + 8, [rtapFlags rxsts fc]⟩]

/-- `channel_freq`, `channel_flags`, `signal`, `noise` and `antenna`. -/
def channelToAntenna (base : ℕ) (wifi : Wifi) (rxsts : WlRxsts) : List Store :=
  [⟨base, le16 (toU16 (channelFrequency wifi rxsts))⟩, ⟨base + 2, le16 (channelFlags wifi rxsts)⟩,
    ⟨base + 4, [UInt8.ofInt rxsts.signal.toInt]⟩, ⟨base + 5, [UInt8.ofInt rxsts.noise.toInt]⟩,
    ⟨base + 6, [rxsts.antenna.toUInt8]⟩]

def brcmOui : List UInt8 := [0x00, 0x10, 0x18]

/-- `vend_oui`, `vend_sns` and `vend_skip_len`. -/
def vendor (base : ℕ) (sns : UInt8) (skipLen : ℕ) : List Store :=
  [⟨base, brcmOui⟩, ⟨base + 3, [sns]⟩, ⟨base + 4, le16 skipLen⟩]

/-- The bit of a field in `it_present`. -/
def tsftBit : ℕ := 0
def flagsBit : ℕ := 1
def rateBit : ℕ := 2
def channelBit : ℕ := 3
def dbmAntsignalBit : ℕ := 5
def dbmAntnoiseBit : ℕ := 6
def antennaBit : ℕ := 11
def mcsBit : ℕ := 19
def ampduBit : ℕ := 20
def vhtBit : ℕ := 21
def vendorNamespaceBit : ℕ := 30
def extBit : ℕ := 31

/-- A word with the given bits. -/
def present (bits : List ℕ) : ℕ := (bits.map fun bit ↦ 2 ^ bit).sum

/-! ## The legacy form: `struct wl_radiotap_legacy` -/

def legacyMembers : List ℕ :=
  [1, 1, 2, 4, 4, 4, 4, 4, 1, 1, 2, 2, 1, 1, 1, 1, 3, 1, 2, 1, 1, 1]

def legacySize : ℕ := 43

/-- `WL_RADIOTAP_PRESENT_LEGACY`. -/
def presentLegacy : ℕ :=
  present [tsftBit, rateBit, channelBit, dbmAntsignalBit, dbmAntnoiseBit, flagsBit, antennaBit,
    vendorNamespaceBit, extBit]

/-- `WL_RADIOTAP_LEGACY_SKIP_LEN`, the size of `nonht_vht`. -/
def legacySkipLen : ℕ := 3

/-- What both monitor types store; `vend_sns` and `nonht_vht` differ. -/
def legacyStores (wifi : Wifi) (rxsts : WlRxsts) (fc : UInt16) (sns flags bw : UInt8) :
    List Store :=
  radiotapHeader legacySize presentLegacy ++ tsftAndFlags 16 rxsts fc ++
    [⟨25, [rxsts.datarate.toUInt8]⟩] ++ channelToAntenna 26 wifi rxsts ++
    vendor 34 sns legacySkipLen ++ [⟨40, [2]⟩, ⟨41, [flags]⟩, ⟨42, [bw]⟩]

/-- The form of monitor type 2: neither `it_present_ext` nor the pads are written. -/
def legacy2Stores (wifi : Wifi) (rxsts : WlRxsts) (fc : UInt16) : List Store :=
  legacyStores wifi rxsts fc 0 0 0

def legacySns : UInt8 := 0x02
def nonhtVhtDynBw : UInt8 := 0x01
def nonhtVhtBw : UInt8 := 0x02

/-- The form of monitor type 3 writes `it_present_ext`, `WL_RADIOTAP_LEGACY_VHT`, and fills
`nonht_vht` for RTS and CTS frames. -/
def legacy3Stores (wifi : Wifi) (rxsts : WlRxsts) (fc : UInt16) : List Store :=
  let rts : Bool := fc &&& fcKindMask = fcRts
  let rtsCts : Bool := rts || fc &&& fcKindMask = fcCts
  let dynBw : Bool := rxsts.vhtflags &&& wlRxsVhtfDynBwNonht ≠ 0
  ⟨8, le32 1⟩ ::
    legacyStores wifi rxsts fc (if rtsCts then legacySns else 0)
      ((if rtsCts then nonhtVhtBw else 0) ||| (if rts && dynBw then nonhtVhtDynBw else 0))
      (if rtsCts then rxsts.bwNonht else 0)

/-! ## The HT form of monitor type 2: `struct wl_radiotap_ht_brcm_2` -/

def htBrcm2Members : List ℕ :=
  [1, 1, 2, 4, 4, 4, 4, 4, 1, 1, 2, 2, 1, 1, 1, 1, 3, 1, 2, 1, 1]

def htBrcm2Size : ℕ := 42

/-- `WL_RADIOTAP_PRESENT_HT_BRCM2`. -/
def presentHtBrcm2 : ℕ :=
  present [tsftBit, flagsBit, channelBit, dbmAntsignalBit, dbmAntnoiseBit, antennaBit,
    vendorNamespaceBit, extBit]

/-- `WL_RADIOTAP_HT_BRCM2_SKIP_LEN`, the size of `mcs` and `htflags`. -/
def htBrcm2SkipLen : ℕ := 2

def htmod40 : UInt8 := 0x01
def htmodSgi : UInt8 := 0x02
def htmodGf : UInt8 := 0x04
def htmodLdpc : UInt8 := 0x08
def htmodStbcMask : UInt8 := 0x30
def htmodStbcShift : ℕ := 4

/-- `htflags`; the last operand is shifted as an `int` and stored in 8 bits. -/
def brcm2Htflags (rxsts : WlRxsts) : UInt8 :=
  (if rxsts.htflags &&& wlRxsHtf40 ≠ 0 then htmod40 else 0) |||
    (if rxsts.htflags &&& wlRxsHtfSgi ≠ 0 then htmodSgi else 0) |||
    (if rxsts.preamble &&& wlRxsPreambleHtGf ≠ 0 then htmodGf else 0) |||
    (if rxsts.htflags &&& wlRxsHtfLdpc ≠ 0 then htmodLdpc else 0) |||
    UInt8.ofNat ((rxsts.htflags &&& wlRxsHtfStbcMask).toNat <<< htmodStbcShift)

def htBrcm2Stores (wifi : Wifi) (rxsts : WlRxsts) (fc : UInt16) : List Store :=
  radiotapHeader htBrcm2Size presentHtBrcm2 ++ [⟨8, le32 1⟩, ⟨12, le32 0⟩] ++
    tsftAndFlags 16 rxsts fc ++ [⟨25, [0]⟩] ++ channelToAntenna 26 wifi rxsts ++ [⟨33, [0]⟩] ++
    vendor 34 1 htBrcm2SkipLen ++ [⟨40, [rxsts.mcs]⟩, ⟨41, [brcm2Htflags rxsts]⟩]

/-! ## The HT form of monitor type 3: `struct wl_radiotap_ht` -/

def htMembers : List ℕ := [1, 1, 2, 4, 4, 4, 1, 1, 2, 2, 1, 1, 1, 1, 1, 1]

def htSize : ℕ := 28

/-- `WL_RADIOTAP_PRESENT_HT`. -/
def presentHt : ℕ :=
  present [tsftBit, flagsBit, channelBit, dbmAntsignalBit, dbmAntnoiseBit, antennaBit, mcsBit]

def mcsHaveBw : UInt8 := 0x01
def mcsHaveMcs : UInt8 := 0x02
def mcsHaveGi : UInt8 := 0x04
def mcsHaveFmt : UInt8 := 0x08
def mcsHaveFec : UInt8 := 0x10

def mcsKnown : UInt8 := mcsHaveBw ||| mcsHaveMcs ||| mcsHaveGi ||| mcsHaveFec ||| mcsHaveFmt

def mcsBw20 : UInt8 := 0x00
def mcsBw40 : UInt8 := 0x01
def mcsBw20L : UInt8 := 0x02
def mcsBw20U : UInt8 := 0x03
def mcsBwMask : UInt8 := 0x03
def mcsSgi : UInt8 := 0x04
def mcsFmtGf : UInt8 := 0x08
def mcsFecLdpc : UInt8 := 0x10

/-- The `switch` on the bandwidth bits. -/
def mcsBw (rxsts : WlRxsts) : UInt8 :=
  let bw := rxsts.htflags &&& wlRxsHtfBwMask
  if bw = wlRxsHtf20L then mcsBw20L
  else if bw = wlRxsHtf20U then mcsBw20U
  else if bw = wlRxsHtf40 then mcsBw40
  else mcsBw20

/-- `mcs_flags`. -/
def mcsFlags (rxsts : WlRxsts) : UInt8 :=
  mcsBw rxsts |||
    (if rxsts.htflags &&& wlRxsHtfSgi ≠ 0 then mcsSgi else 0) |||
    (if rxsts.preamble &&& wlRxsPreambleHtGf ≠ 0 then mcsFmtGf else 0) |||
    (if rxsts.htflags &&& wlRxsHtfLdpc ≠ 0 then mcsFecLdpc else 0)

def htStores (wifi : Wifi) (rxsts : WlRxsts) (fc : UInt16) : List Store :=
  radiotapHeader htSize presentHt ++ tsftAndFlags 8 rxsts fc ++ [⟨17, [0]⟩] ++
    channelToAntenna 18 wifi rxsts ++
    [⟨25, [mcsKnown]⟩, ⟨26, [mcsFlags rxsts]⟩, ⟨27, [rxsts.mcs]⟩]

/-! ## The VHT form of monitor type 3: `struct wl_radiotap_vht` -/

def vhtMembers : List ℕ :=
  [1, 1, 2, 4, 4, 4, 1, 1, 2, 2, 1, 1, 1, 1, 2, 4, 2, 1, 1, 2, 1, 1, 4, 1, 1, 2]

def vhtSize : ℕ := 48

/-- `WL_RADIOTAP_PRESENT_VHT`. -/
def presentVht : ℕ :=
  present [tsftBit, flagsBit, channelBit, dbmAntsignalBit, dbmAntnoiseBit, antennaBit, ampduBit,
    vhtBit]

/-- `vht_known`: STBC, TXOP_PS, GI, SGI_NSYM_DA, LDPC_EXTRA, BF, BW, GID and PAID. -/
def vhtKnown : ℕ := 0x1ff

def radiotapVhtNss : UInt8 := 0x0f

def ampduIsLast : UInt16 := 0x0008

/-- `ampdu_flags`. -/
def ampduFlags (wifi : Wifi) (rxsts : WlRxsts) : UInt16 :=
  (if rxsts.nfrmtype &&& wlRxsNfrmAmpduFirst = 0 ∧ rxsts.nfrmtype &&& wlRxsNfrmAmpduSub = 0 then
    ampduIsLast else 0) |||
    (if rxsts.nfrmtype &&& wlRxsNfrmAmpduNone ≠ 0 then wifi.ampduMpduOnly else 0)

/-- `vht_mcs_nss[0]`. -/
def vhtMcsNss (rxsts : WlRxsts) : UInt8 :=
  UInt8.ofNat (rxsts.mcs.toNat <<< 4 ||| (rxsts.nss &&& radiotapVhtNss).toNat)

/-- Neither `pad2`, `pad3` nor `ampdu_reserved` is written. -/
def vhtStores (wifi : Wifi) (rxsts : WlRxsts) (fc : UInt16) : List Store :=
  radiotapHeader vhtSize presentVht ++ tsftAndFlags 8 rxsts fc ++ [⟨17, [0]⟩] ++
    channelToAntenna 18 wifi rxsts ++
    [⟨36, le16 vhtKnown⟩, ⟨38, [rxsts.vhtflags.toUInt8]⟩, ⟨39, [rxsts.bw]⟩,
      ⟨40, [vhtMcsNss rxsts]⟩, ⟨41, [0]⟩, ⟨42, [0]⟩, ⟨43, [0]⟩, ⟨44, [rxsts.coding]⟩,
      ⟨45, [rxsts.gid]⟩, ⟨46, le16 rxsts.aid.toNat⟩, ⟨34, [0]⟩,
      ⟨28, le32 rxsts.ampduCounter.toNat⟩, ⟨32, le16 (ampduFlags wifi rxsts).toNat⟩]

/-- The members before each one, for a packed structure. -/
def offsets (members : List ℕ) : List ℕ := members.inits.dropLast.map List.sum

/-- The sizes are those of the declarations, and the members lie where the stores put them. -/
theorem sizes_of_layout :
    [legacyMembers, htBrcm2Members, htMembers, vhtMembers].map List.sum =
        [legacySize, htBrcm2Size, htSize, vhtSize] ∧
      offsets legacyMembers = [0, 1, 2, 4, 8, 12, 16, 20, 24, 25, 26, 28, 30, 31, 32, 33, 34, 37,
        38, 40, 41, 42] ∧
      offsets htBrcm2Members = [0, 1, 2, 4, 8, 12, 16, 20, 24, 25, 26, 28, 30, 31, 32, 33, 34, 37,
        38, 40, 41] ∧
      offsets htMembers = [0, 1, 2, 4, 8, 12, 16, 17, 18, 20, 22, 23, 24, 25, 26, 27] ∧
      offsets vhtMembers = [0, 1, 2, 4, 8, 12, 16, 17, 18, 20, 22, 23, 24, 25, 26, 28, 32, 34, 35,
        36, 38, 39, 40, 44, 45, 46] := by
  decide

/-! ## The prism header of monitor type 1: `p80211msg_t` -/

def dnamelen : ℕ := 16
def p80211msgSize : ℕ := 144

def wlMonFrame : ℕ := 0x0041

/-- The items of the header, in the order of the structure. -/
inductive Item where
  | hosttime
  | mactime
  | channel
  | rssi
  | sq
  | signal
  | noise
  | rate
  | istx
  | frmlen

/-- Where the item lies, behind `msgcode`, `msglen` and `devname`. -/
def Item.offset : Item → ℕ
  | .hosttime => 24
  | .mactime => 36
  | .channel => 48
  | .rssi => 60
  | .sq => 72
  | .signal => 84
  | .noise => 96
  | .rate => 108
  | .istx => 120
  | .frmlen => 132

def Item.did : Item → ℕ
  | .hosttime => 0x1041
  | .mactime => 0x2041
  | .channel => 0x3041
  | .rssi => 0x4041
  | .sq => 0x5041
  | .signal => 0x6041
  | .noise => 0x7041
  | .rate => 0x8041
  | .istx => 0x9041
  | .frmlen => 0xA041

def p80211itemOk : ℕ := 0
def p80211itemNoValue : ℕ := 1

/-- `did`, `status`, `len` and `data` of an item. -/
def Item.stores (item : Item) (status data : ℕ) : List Store :=
  [⟨item.offset, le32 item.did⟩, ⟨item.offset + 4, le16 status⟩, ⟨item.offset + 6, le16 4⟩,
    ⟨item.offset + 8, le32 data⟩]

/-- An integer as an unsigned 32-bit value. -/
def toU32 (value : ℤ) : ℕ := (value % 4294967296).toNat

/-- `strcpy` of the device name writes its bytes and the terminating zero. -/
def strcpy (offset : ℕ) (name : List UInt8) : Store := ⟨offset, name ++ [0]⟩

def prismStores (devName : List UInt8) (jiffies : ℕ) (rxsts : WlRxsts) : List Store :=
  [⟨0, le32 wlMonFrame⟩, ⟨4, le32 p80211msgSize⟩, strcpy 8 devName] ++
    Item.hosttime.stores p80211itemOk jiffies ++
    Item.channel.stores p80211itemNoValue 0 ++
    Item.signal.stores p80211itemOk rxsts.preamble.toNat ++
    Item.noise.stores p80211itemNoValue 0 ++
    Item.rate.stores p80211itemOk rxsts.datarate.toNat ++
    Item.istx.stores p80211itemNoValue 0 ++
    Item.mactime.stores p80211itemOk rxsts.mactime.toNat ++
    Item.rssi.stores p80211itemOk (toU32 rxsts.signal.toInt) ++
    Item.sq.stores p80211itemOk rxsts.sq.toNat ++
    Item.frmlen.stores p80211itemOk rxsts.pktlength.toNat

/-! ## `wl_monitor` -/

/-- A socket buffer: its length and what is stored in it. -/
structure Skb where
  len : ℕ
  stores : List Store

/-- A header and the frame behind it. -/
def headerAndFrame (size : ℕ) (header : List Store) (p : Packet) : Skb where
  len := size + p.frameLen
  stores := header ++ [⟨size, p.bytes⟩]

/-- The copies of the chained packets, one behind the other. -/
def chainStores (offset : ℕ) : List (List UInt8) → List Store
  | [] => []
  | data :: rest => ⟨offset, data⟩ :: chainStores (offset + data.length) rest

/-- The radiotap header of a frame with its size: monitor type 2. -/
def rtap2 (wifi : Wifi) (rxsts : WlRxsts) (fc : UInt16) : ℕ × List Store :=
  if rxsts.phytype ≠ wlRxsPhyN then (legacySize, legacy2Stores wifi rxsts fc)
  else (htBrcm2Size, htBrcm2Stores wifi rxsts fc)

/-- The size that monitor type 3 allocates. -/
def rtapLen3 (rxsts : WlRxsts) : ℕ :=
  if rxsts.phytype = wlRxsPhyN then
    if rxsts.encoding = wlRxsEncodingHt then htSize
    else if rxsts.encoding = wlRxsEncodingVht then vhtSize
    else legacySize
  else legacySize

/-- The header that monitor type 3 fills. -/
def rtap3 (wifi : Wifi) (rxsts : WlRxsts) (fc : UInt16) : List Store :=
  if rxsts.phytype ≠ wlRxsPhyN ∨
      rxsts.encoding ≠ wlRxsEncodingHt ∧ rxsts.encoding ≠ wlRxsEncodingVht then
    legacy3Stores wifi rxsts fc
  else if rxsts.encoding = wlRxsEncodingVht then vhtStores wifi rxsts fc
  else htStores wifi rxsts fc

/-- The driver's state that `wl_monitor` reads. -/
structure WlInfo where
  monitorDev : Bool
  monitorType : ℕ
  devName : List UInt8

/-- The socket buffer that `wl_monitor` fills, if it comes to that. -/
def monitorSkb (wifi : Wifi) (wl : WlInfo) (jiffies : ℕ) (rxsts : WlRxsts) (p : Packet) :
    Option Skb :=
  if !wl.monitorDev then none
  else if wl.monitorType = 1 then
    some (headerAndFrame p80211msgSize (prismStores wl.devName jiffies rxsts) p)
  else if wl.monitorType = 2 then
    let (rtapLen, header) := rtap2 wifi rxsts p.fc
    some (headerAndFrame rtapLen header p)
  else if wl.monitorType = 3 then
    let rtapLen := rtapLen3 rxsts
    some
      { len := rtapLen + p.frameLen + (p.next.map List.length).sum
        stores := rtap3 wifi rxsts p.fc ++ [⟨rtapLen, p.bytes⟩] ++
          chainStores (rtapLen + p.frameLen) p.next }
  else none

/-- The bytes of a filled buffer. -/
def Skb.bytes (skb : Skb) (stale : ℕ → UInt8) : List UInt8 :=
  (List.range skb.len).map (fill skb.stores stale)

/-- `wl_monitor`: the bytes handed to `netif_rx`. `devAllocSkb` is what the allocator returns, a
buffer with its old contents. -/
def wlMonitor (wifi : Wifi) (wl : WlInfo) (jiffies : ℕ) (rxsts : WlRxsts) (p : Packet)
    (devAllocSkb : Option (ℕ → UInt8)) : Option (List UInt8) := do
  let skb ← monitorSkb wifi wl jiffies rxsts p
  let stale ← devAllocSkb
  return skb.bytes stale

/-- The header of monitor type 3 has the size that was allocated for it. -/
theorem rtap3_eq (wifi : Wifi) (rxsts : WlRxsts) (fc : UInt16) :
    rxsts.phytype = wlRxsPhyN ∧ rxsts.encoding = wlRxsEncodingHt ∧
        rtapLen3 rxsts = htSize ∧ rtap3 wifi rxsts fc = htStores wifi rxsts fc ∨
      rxsts.phytype = wlRxsPhyN ∧ rxsts.encoding = wlRxsEncodingVht ∧
        rtapLen3 rxsts = vhtSize ∧ rtap3 wifi rxsts fc = vhtStores wifi rxsts fc ∨
      (rxsts.phytype ≠ wlRxsPhyN ∨
          rxsts.encoding ≠ wlRxsEncodingHt ∧ rxsts.encoding ≠ wlRxsEncodingVht) ∧
        rtapLen3 rxsts = legacySize ∧ rtap3 wifi rxsts fc = legacy3Stores wifi rxsts fc := by
  unfold rtapLen3 rtap3
  by_cases hphy : rxsts.phytype = wlRxsPhyN
  · by_cases hht : rxsts.encoding = wlRxsEncodingHt
    · left
      simp [hphy, hht, wlRxsEncodingHt, wlRxsEncodingVht]
    · by_cases hvht : rxsts.encoding = wlRxsEncodingVht
      · right; left
        simp [hphy, hvht, wlRxsEncodingHt, wlRxsEncodingVht]
      · right; right
        simp [hphy, hht, hvht]
  · right; right
    simp [hphy]

end BroadcomWl.Linux.MonitorFrame
