import BroadcomWl.Cfg80211.IeBuffer
import BroadcomWl.Memory.Stores
import Mathlib.Data.List.ReduceOption

/-!
# What cfg80211 is told about a record

The walk over the scan results ends at the first record that is not reported, so a record that
cannot be used hides all that follow it.

A record is reported in one of two ways: with a pending scan request by its parameters, otherwise
by a management frame that the driver puts together in a zeroed buffer. The frame gets its type
only when the SSID of the record is that of the last scan, and its information elements go through
the accumulator with its 16-bit length; the parameters have neither condition. The kernel is one
that takes the type of the frame as a parameter, so 3.18 or later.
-/

namespace BroadcomWl.Cfg80211.ScanResults

open BroadcomWl.Memory
open BroadcomWl.Cfg80211.IeBuffer (WlCfg80211Ie wlRstIe wlMrgIe wlCpIe wlGetIelen)

/-! ## Records behind one that is not reported -/

/-- Cutting a list of options at the first `none` loses nothing exactly when nothing follows. -/
theorem reduceOption_takeWhile_iff {α : Type*} (options : List (Option α)) :
    (options.takeWhile Option.isSome).reduceOption = options.reduceOption ↔
      options.Pairwise fun earlier later ↦ later.isSome = true → earlier.isSome = true := by
  induction options with
  | nil => exact iff_of_true rfl List.Pairwise.nil
  | cons option rest ih =>
    rw [List.pairwise_cons]
    cases option with
    | some value =>
      rw [List.takeWhile_cons_of_pos rfl, List.reduceOption_cons_of_some,
        List.reduceOption_cons_of_some, List.cons.injEq]
      exact ⟨fun h ↦ ⟨fun _ _ _ ↦ rfl, ih.mp h.2⟩, fun h ↦ ⟨rfl, ih.mpr h.2⟩⟩
    | none =>
      rw [List.takeWhile_cons_of_neg Bool.false_ne_true, List.reduceOption_cons_of_none,
        List.reduceOption_nil]
      constructor
      · intro h
        have hnone : ∀ later ∈ rest, ¬later.isSome = true := by
          intro later hlater hsome
          obtain ⟨value, rfl⟩ := Option.isSome_iff_exists.mp hsome
          have hvalue := List.reduceOption_mem_iff.mpr hlater
          rw [← h] at hvalue
          exact List.not_mem_nil hvalue
        refine ⟨fun later hlater hsome ↦ absurd hsome (hnone later hlater), ?_⟩
        exact List.pairwise_of_forall_mem_list fun _ _ later hlater hsome ↦
          absurd hsome (hnone later hlater)
      · rintro ⟨h, -⟩
        symm
        rw [List.eq_nil_iff_forall_not_mem]
        intro value hvalue
        exact absurd (h _ (List.reduceOption_mem_iff.mp hvalue) rfl) Bool.false_ne_true

variable {memory : ℕ → UInt8} {scanRequest : Bool}

/-- A record that fails is not reported. -/
theorem isSome_report_of_err_ne (log : List (Access Object)) {err : ℤ} (h : err ≠ 0) :
    (Single.mk log err none).report.isSome = true ↔ (Single.mk log err none).err = 0 :=
  iff_of_false Bool.false_ne_true h

/-- A record is reported exactly when there is no error. -/
theorem isSome_report (kernel : Kernel) (bi : ℕ) :
    (wlInformSingleBss memory scanRequest kernel bi).report.isSome = true ↔
      (wlInformSingleBss memory scanRequest kernel bi).err = 0 := by
  unfold wlInformSingleBss
  dsimp only
  by_cases hlength : (bssInfo memory bi).length > wlBssInfoMax
  · rw [if_pos hlength]
    exact isSome_report_of_err_ne _ (by decide)
  rw [if_neg hlength]
  by_cases halloc : (!kernel.kzalloc) = true
  · rw [if_pos halloc]
    exact isSome_report_of_err_ne _ (by decide)
  rw [if_neg halloc]
  by_cases hsize : (bssInfo memory bi).ieSize > wlTlvInfoMax
  · rw [if_pos hsize]
    exact isSome_report_of_err_ne _ (by decide)
  rw [if_neg hsize]
  by_cases hfreq : (bssInfo memory bi).frequency kernel = 0
  · rw [if_pos hfreq]
    exact isSome_report_of_err_ne _ (by decide)
  rw [if_neg hfreq]
  by_cases hchannel : (!kernel.getChannel ((bssInfo memory bi).frequency kernel)) = true
  · rw [if_pos hchannel]
    exact isSome_report_of_err_ne _ (by decide)
  rw [if_neg hchannel]
  by_cases hinformed : (!kernel.informed) = true
  · rw [if_pos hinformed]
    exact isSome_report_of_err_ne _ (by decide)
  rw [if_neg hinformed]
  exact iff_of_true rfl rfl

/-- What the `k`-th record from `bi` on gives on its own. -/
def ownReport (memory : ℕ → UInt8) (scanRequest : Bool) (kernel : ℕ → Kernel) (i bi k : ℕ) :
    Option Report :=
  (wlInformSingleBss memory scanRequest (kernel (i + k)) (recordAt memory bi k)).report

/-- The walk reports what the records give on their own up to the first that gives nothing. -/
theorem forEachBss_reports (kernel : ℕ → Kernel) (count i bi : ℕ) :
    (forEachBss memory scanRequest kernel count i bi).reports =
      (((List.range count).map (ownReport memory scanRequest kernel i bi)).takeWhile
        Option.isSome).reduceOption := by
  induction count generalizing i bi with
  | zero => rfl
  | succ count ih =>
    have hrest : (List.range count).map (ownReport memory scanRequest kernel i bi ∘ Nat.succ) =
        (List.range count).map (ownReport memory scanRequest kernel (i + 1)
          (bi + (bssInfo memory bi).length)) := by
      refine List.map_congr_left fun k _ ↦ ?_
      rw [Function.comp_apply, ownReport, ownReport, recordAt, Nat.add_right_comm]
      rfl
    have hfirst : ownReport memory scanRequest kernel i bi 0 =
        (wlInformSingleBss memory scanRequest (kernel i) bi).report := rfl
    rw [List.range_succ_eq_map, List.map_cons, List.map_map, hrest, hfirst, forEachBss]
    by_cases herr : (wlInformSingleBss memory scanRequest (kernel i) bi).err = 0
    · have hsome := (isSome_report (kernel i) bi).mpr herr
      obtain ⟨report, hreport⟩ := Option.isSome_iff_exists.mp hsome
      rw [if_neg (not_not_intro herr), hreport, List.takeWhile_cons_of_pos rfl,
        List.reduceOption_cons_of_some, ← ih]
      rfl
    · have hnone := mt (isSome_report (kernel i) bi).mp herr
      rw [if_pos herr, List.takeWhile_cons_of_neg hnone]
      rfl

/-- What the records of the list give, each on its own. -/
def ownReports (memory : ℕ → UInt8) (scanRequest : Bool) (kernel : ℕ → Kernel) : List Report :=
  ((List.range (min (count memory) wlApMax)).map
    (ownReport memory scanRequest kernel 0 bssInfoAt)).reduceOption

/-- The lengths are in bounds, and the wiphy has the channel. -/
def Usable (kernel : Kernel) (record : BssInfo) : Prop :=
  record.length ≤ wlBssInfoMax ∧ record.ieSize ≤ wlTlvInfoMax ∧ record.frequency kernel ≠ 0 ∧
    kernel.getChannel (record.frequency kernel) = true

/-- With memory, a record is reported on its own exactly when it can be used. -/
theorem isSome_ownReport {kernel : ℕ → Kernel}
    (halloc : ∀ i, (kernel i).kzalloc = true ∧ (kernel i).informed = true) (k : ℕ) :
    (ownReport memory scanRequest kernel 0 bssInfoAt k).isSome = true ↔
      Usable (kernel k) (bssInfo memory (bssInfoAtIndex memory k)) := by
  rw [ownReport, isSome_report, wlInformSingleBss_err, Nat.zero_add]
  obtain ⟨hkzalloc, hinformed⟩ := halloc k
  simp only [Taken, OnChannel, Copied, Accepted, hkzalloc, hinformed, and_true, Usable,
    and_assoc]
  rfl

/-- When every allocation succeeds, each record of a list is reported as it would be on its own if
and only if no record that can be used follows one that cannot. -/
theorem records_independent_iff (scanRequest : Bool) {kernel : ℕ → Kernel}
    (hversion : version memory = wlBssInfoVersion)
    (halloc : ∀ i, (kernel i).kzalloc = true ∧ (kernel i).informed = true) :
    (wlInformBss memory scanRequest kernel).reports = ownReports memory scanRequest kernel ↔
      ∀ i j, i < j → j < min (count memory) wlApMax →
        Usable (kernel j) (bssInfo memory (bssInfoAtIndex memory j)) →
        Usable (kernel i) (bssInfo memory (bssInfoAtIndex memory i)) := by
  rw [wlInformBss, if_neg (not_not_intro hversion), forEachBss_reports, ownReports,
    reduceOption_takeWhile_iff, List.pairwise_map, List.pairwise_iff_getElem]
  simp only [List.length_range, List.getElem_range, isSome_ownReport halloc]
  exact ⟨fun h i j hij hj ↦ h i j (hij.trans hj) hj hij, fun h i j _ hj hij ↦ h i j hij hj⟩

/-- A record of 2052 bytes and one of 128 bytes, both on channel 6. -/
def longRecordFirst : ℕ → UInt8
  | 4 => 109
  | 8 => 2
  | 16 => 4
  | 17 => 8
  | 100 => 6
  | 2068 => 128
  | 2152 => 6
  | _ => 0

/-- The second record is not reported, but would be on its own. -/
theorem longRecord_hides_next :
    version longRecordFirst = wlBssInfoVersion ∧
      (bssInfo longRecordFirst (bssInfoAtIndex longRecordFirst 0)).length = 2052 ∧
      willing.kzalloc = true ∧ willing.informed = true ∧
      (ownReports longRecordFirst true fun _ ↦ willing).map (·.frequency) = [2437] ∧
      (wlInformBss longRecordFirst true fun _ ↦ willing).reports ≠
        ownReports longRecordFirst true fun _ ↦ willing := by
  refine ⟨by decide, by decide, rfl, rfl, by decide, fun h ↦ ?_⟩
  have hfrequencies := congrArg (List.map (·.frequency)) h
  exact absurd hfrequencies (by decide)

/-- A single record is reported as it would be. -/
theorem records_independent_single :
    (wlInformBss oversizedIes true fun _ ↦ willing).reports =
      ownReports oversizedIes true fun _ ↦ willing := by
  refine (records_independent_iff true (by decide) fun _ ↦ ⟨rfl, rfl⟩).mpr fun i j hij hj ↦ ?_
  have hcount : min (count oversizedIes) wlApMax = 1 := by decide
  omega

/-! ## The two ways to report a record -/

/-- The frame control field: management frames have type 0. -/
def ftypeMgmt : ℕ := 0x0000
def stypeProbeResp : ℕ := 0x0050
def stypeBeacon : ℕ := 0x0080

/-- `struct ieee80211_mgmt` with `struct beacon_proberesp` behind its header. -/
def frameControlAt : ℕ := 0
def mgmtBssidAt : ℕ := 16
def timestampAt : ℕ := 24
def beaconIntAt : ℕ := 32
def capabInfoAt : ℕ := 34
def variableAt : ℕ := 36

/-- `offsetof(struct wl_cfg80211_bss_info, frame_buf)`. -/
def frameBufAt : ℕ := 8

/-- Types of frames that describe a network. -/
inductive FrameType where
  | probeResp
  | beacon
deriving DecidableEq, Repr

/-- What is passed to `cfg80211_inform_bss_frame` or `cfg80211_inform_bss`. -/
inductive Inform where
  | frame (channel : ℕ) (mgmt : ℕ → UInt8) (len : UInt16) (signal : ℤ)
  | params (channel : ℕ) (ftype : FrameType) (bssid : List UInt8) (capability beaconInterval : ℕ)
      (ie : List UInt8) (signal : ℤ)

/-- The error of `wl_inform_single_bss`, what it passed on, and the accumulator afterwards. -/
structure Informed where
  err : ℤ
  inform : Option Inform
  ie : WlCfg80211Ie

/-- The frame before its information elements, in a zeroed buffer. The SSIDs are compared over the
length that the record gives. -/
def mgmtStores (memory scanSsid : ℕ → UInt8) (activeScan : Bool) (bi : ℕ) : List Store :=
  let record := bssInfo memory bi
  let mgmtType := if activeScan then stypeProbeResp else stypeBeacon
  [⟨mgmtBssidAt, record.bssid⟩] ++
    (if slice memory (bi + ssidAt) record.ssidLen = slice scanSsid 0 record.ssidLen then
      [⟨frameControlAt, le16 (ftypeMgmt ||| mgmtType)⟩] else []) ++
    [⟨timestampAt, List.replicate 8 0⟩, ⟨beaconIntAt, le16 record.beaconPeriod⟩,
      ⟨capabInfoAt, le16 record.capability⟩]

/-- A buffer whose bytes from `offset` on are replaced. -/
def overlay (buffer : ℕ → UInt8) (offset : ℕ) (bytes : ℕ → UInt8) : ℕ → UInt8 := fun i ↦
  if offset ≤ i then bytes (i - offset) else buffer i

/-- `wl_inform_single_bss` with all that it passes on. -/
def informSingleBss (memory scanSsid : ℕ → UInt8) (activeScan scanRequest : Bool)
    (ie : WlCfg80211Ie) (kernel : Kernel) (bi : ℕ) : Informed :=
  let record := bssInfo memory bi
  if record.length > wlBssInfoMax then ⟨-e2big, none, ie⟩
  else if !kernel.kzalloc then ⟨-enomem, none, ie⟩
  else
    let mgmt := fill (mgmtStores memory scanSsid activeScan bi) fun _ ↦ 0
    let (err, ie) := wlMrgIe (wlRstIe ie) (fun i ↦ memory (bi + record.ieOffset + i))
      (UInt16.ofNat record.ieLength)
    if err ≠ 0 then ⟨err, none, ie⟩
    else
      let (err, variable') := wlCpIe ie (fun i ↦ mgmt (variableAt + i))
        (UInt16.ofNat (wlBssInfoMax - frameBufAt))
      if err ≠ 0 then ⟨err, none, ie⟩
      else
        let mgmt := overlay mgmt variableAt variable'
        let frameLen := UInt16.ofNat variableAt + (wlGetIelen ie).toUInt16
        let freq := record.frequency kernel
        if freq = 0 then ⟨-einval, none, ie⟩
        else if !kernel.getChannel freq then ⟨-einval, none, ie⟩
        else
          let signal := record.rssi * 100
          let inform :=
            if !scanRequest then Inform.frame freq mgmt frameLen signal
            else
              .params freq (if activeScan then .probeResp else .beacon) record.bssid
                (load16 mgmt capabInfoAt) (load16 mgmt beaconIntAt)
                (slice memory (bi + record.ieOffset) record.ieLength) signal
          ⟨if kernel.informed then 0 else -enomem, some inform, ie⟩

/-- What cfg80211 learns about a network. -/
structure Description where
  channel : ℕ
  ftype : Option FrameType
  bssid : List UInt8
  capability : ℕ
  beaconInterval : ℕ
  ies : List UInt8
  signal : ℤ

/-- The type that a frame control field stands for. -/
def frameType (frameControl : ℕ) : Option FrameType :=
  if frameControl = stypeProbeResp then some .probeResp
  else if frameControl = stypeBeacon then some .beacon
  else none

/-- A frame describes the network by its fields. -/
def Inform.describe : Inform → Description
  | frame channel mgmt len signal =>
      { channel := channel
        ftype := frameType (load16 mgmt frameControlAt)
        bssid := slice mgmt mgmtBssidAt 6
        capability := load16 mgmt capabInfoAt
        beaconInterval := load16 mgmt beaconIntAt
        ies := slice mgmt variableAt (len.toNat - variableAt)
        signal := signal }
  | params channel ftype bssid capability beaconInterval ie signal =>
      ⟨channel, some ftype, bssid, capability, beaconInterval, ie, signal⟩

section Agreement

variable {scanSsid : ℕ → UInt8} {activeScan : Bool} {ie : WlCfg80211Ie} {kernel : Kernel} {bi : ℕ}

/-- The frame in front of its information elements. -/
def mgmtHead (memory scanSsid : ℕ → UInt8) (activeScan : Bool) (bi : ℕ) : ℕ → UInt8 :=
  fill (mgmtStores memory scanSsid activeScan bi) fun _ ↦ 0

/-- The elements that the record names are those that the accumulator holds. -/
def collected (memory : ℕ → UInt8) (ie : WlCfg80211Ie) (bi : ℕ) : WlCfg80211Ie :=
  (wlRstIe ie).append (fun i ↦ memory (bi + (bssInfo memory bi).ieOffset + i))
    (bssInfo memory bi).ieSize

theorem wlMrgIe_record (memory : ℕ → UInt8) (ie : WlCfg80211Ie) (bi : ℕ) :
    wlMrgIe (wlRstIe ie) (fun i ↦ memory (bi + (bssInfo memory bi).ieOffset + i))
        (UInt16.ofNat (bssInfo memory bi).ieLength) =
      if (bssInfo memory bi).ieSize ≤ wlTlvInfoMax then (0, collected memory ie bi)
      else (-enospc, wlRstIe ie) := by
  have hsize : (UInt16.ofNat (bssInfo memory bi).ieLength).toNat = (bssInfo memory bi).ieSize :=
    UInt16.toNat_ofNat'
  have hoffset : (wlRstIe ie).offset.toNat = 0 := rfl
  rw [IeBuffer.wlMrgIe_eq, hsize, hoffset, Nat.zero_add]
  rfl

theorem offset_collected (ie : WlCfg80211Ie) (h : (bssInfo memory bi).ieSize ≤ wlTlvInfoMax) :
    (collected memory ie bi).offset.toNat = (bssInfo memory bi).ieSize := by
  have hfits : (wlRstIe ie).offset.toNat + (bssInfo memory bi).ieSize ≤ wlTlvInfoMax := by
    rw [show (wlRstIe ie).offset.toNat = 0 from rfl, Nat.zero_add]
    exact h
  exact (WlCfg80211Ie.offset_append hfits _).trans (Nat.zero_add _)

/-- The copy to the frame never fails: the frame has room for more than the accumulator. -/
theorem wlCpIe_collected (h : (bssInfo memory bi).ieSize ≤ wlTlvInfoMax) (dst : ℕ → UInt8) :
    wlCpIe (collected memory ie bi) dst (UInt16.ofNat (wlBssInfoMax - frameBufAt)) =
      (0, IeBuffer.copyTo dst (readAt (collected memory ie bi).buf 0)
        (bssInfo memory bi).ieSize) := by
  have hmax : wlTlvInfoMax = 1024 := rfl
  have hoffset := offset_collected ie h
  rw [IeBuffer.wlCpIe_eq (by omega), if_neg, hoffset]
  rw [gt_iff_lt, UInt16.lt_iff_toNat_lt, hoffset]
  change ¬2040 < _
  omega

/-- The frame with the collected elements. -/
def reportedFrame (memory scanSsid : ℕ → UInt8) (activeScan : Bool) (ie : WlCfg80211Ie)
    (bi : ℕ) : ℕ → UInt8 :=
  overlay (mgmtHead memory scanSsid activeScan bi) variableAt
    (IeBuffer.copyTo (fun i ↦ mgmtHead memory scanSsid activeScan bi (variableAt + i))
      (readAt (collected memory ie bi).buf 0) (bssInfo memory bi).ieSize)

/-- Both ways take the same branches as the walk. -/
theorem informSingleBss_eq (memory scanSsid : ℕ → UInt8) (activeScan scanRequest : Bool)
    (ie : WlCfg80211Ie) (kernel : Kernel) (bi : ℕ) :
    informSingleBss memory scanSsid activeScan scanRequest ie kernel bi =
      let record := bssInfo memory bi
      if record.length > wlBssInfoMax then ⟨-e2big, none, ie⟩
      else if !kernel.kzalloc then ⟨-enomem, none, ie⟩
      else if record.ieSize > wlTlvInfoMax then ⟨-enospc, none, wlRstIe ie⟩
      else if record.frequency kernel = 0 then ⟨-einval, none, collected memory ie bi⟩
      else if !kernel.getChannel (record.frequency kernel) then
        ⟨-einval, none, collected memory ie bi⟩
      else
        let mgmt := reportedFrame memory scanSsid activeScan ie bi
        ⟨if kernel.informed then 0 else -enomem,
          some (if !scanRequest then
            .frame (record.frequency kernel) mgmt
              (UInt16.ofNat variableAt + (wlGetIelen (collected memory ie bi)).toUInt16)
              (record.rssi * 100)
          else
            .params (record.frequency kernel) (if activeScan then .probeResp else .beacon)
              record.bssid (load16 mgmt capabInfoAt) (load16 mgmt beaconIntAt)
              (slice memory (bi + record.ieOffset) record.ieLength) (record.rssi * 100)),
          collected memory ie bi⟩ := by
  unfold informSingleBss
  dsimp only
  rw [wlMrgIe_record]
  by_cases hlength : (bssInfo memory bi).length > wlBssInfoMax
  · rw [if_pos hlength, if_pos hlength]
  rw [if_neg hlength, if_neg hlength]
  by_cases halloc : (!kernel.kzalloc) = true
  · rw [if_pos halloc, if_pos halloc]
  rw [if_neg halloc, if_neg halloc]
  by_cases hsize : (bssInfo memory bi).ieSize ≤ wlTlvInfoMax
  · rw [if_pos hsize, if_neg (Nat.not_lt.mpr hsize), wlCpIe_collected hsize]
    rfl
  · rw [if_neg hsize, if_pos (Nat.not_le.mp hsize)]
    rfl

/-- It fails where the walk's account of it fails. -/
theorem informSingleBss_err (memory scanSsid : ℕ → UInt8) (activeScan scanRequest : Bool)
    (ie : WlCfg80211Ie) (kernel : Kernel) (bi : ℕ) :
    (informSingleBss memory scanSsid activeScan scanRequest ie kernel bi).err =
      (wlInformSingleBss memory scanRequest kernel bi).err := by
  rw [informSingleBss_eq]
  unfold wlInformSingleBss
  dsimp only
  by_cases hlength : (bssInfo memory bi).length > wlBssInfoMax
  · rw [if_pos hlength, if_pos hlength]
  rw [if_neg hlength, if_neg hlength]
  by_cases halloc : (!kernel.kzalloc) = true
  · rw [if_pos halloc, if_pos halloc]
  rw [if_neg halloc, if_neg halloc]
  by_cases hsize : (bssInfo memory bi).ieSize > wlTlvInfoMax
  · rw [if_pos hsize, if_pos hsize]
  rw [if_neg hsize, if_neg hsize]
  by_cases hfreq : (bssInfo memory bi).frequency kernel = 0
  · rw [if_pos hfreq, if_pos hfreq]
  rw [if_neg hfreq, if_neg hfreq]
  by_cases hchannel : (!kernel.getChannel ((bssInfo memory bi).frequency kernel)) = true
  · rw [if_pos hchannel, if_pos hchannel]
  rw [if_neg hchannel, if_neg hchannel]
  cases hinformed : kernel.informed with
  | true => rfl
  | false => rfl

/-- The SSID of the record is the one that was scanned for, as far as it is compared. -/
def SsidScanned (memory scanSsid : ℕ → UInt8) (bi : ℕ) : Prop :=
  slice memory (bi + ssidAt) (bssInfo memory bi).ssidLen =
    slice scanSsid 0 (bssInfo memory bi).ssidLen

instance (memory scanSsid : ℕ → UInt8) (bi : ℕ) : Decidable (SsidScanned memory scanSsid bi) :=
  inferInstanceAs (Decidable (_ = _))

/-- The type that both ways mean. -/
def scannedType (activeScan : Bool) : FrameType := if activeScan then .probeResp else .beacon

theorem u16At_lt (memory : ℕ → UInt8) (offset : ℕ) : u16At memory offset < 65536 := by
  have hlow := (memory offset).toNat_lt
  have hhigh := (memory (offset + 1)).toNat_lt
  unfold u16At
  omega

theorem overlay_below {buffer bytes : ℕ → UInt8} {offset i : ℕ} (h : i < offset) :
    overlay buffer offset bytes i = buffer i := if_neg (Nat.not_le.mpr h)

theorem load16_overlay {buffer bytes : ℕ → UInt8} {offset i : ℕ} (h : i + 1 < offset) :
    load16 (overlay buffer offset bytes) i = load16 buffer i := by
  unfold load16
  rw [overlay_below h, overlay_below (Nat.lt_of_succ_lt h)]

/-- The frame control field, when it is stored at all. -/
def controlStores (memory scanSsid : ℕ → UInt8) (activeScan : Bool) (bi : ℕ) : List Store :=
  if SsidScanned memory scanSsid bi then
    [⟨frameControlAt, le16 (ftypeMgmt ||| if activeScan then stypeProbeResp else stypeBeacon)⟩]
  else []

/-- The fixed fields of a beacon or a probe response. -/
def fixedStores (record : BssInfo) : List Store :=
  [⟨timestampAt, List.replicate 8 0⟩, ⟨beaconIntAt, le16 record.beaconPeriod⟩,
    ⟨capabInfoAt, le16 record.capability⟩]

theorem mgmtStores_eq (memory scanSsid : ℕ → UInt8) (activeScan : Bool) (bi : ℕ) :
    mgmtStores memory scanSsid activeScan bi =
      [⟨mgmtBssidAt, (bssInfo memory bi).bssid⟩] ++
        (controlStores memory scanSsid activeScan bi ++ fixedStores (bssInfo memory bi)) :=
  List.append_assoc ..

theorem covered_fixedStores {record : BssInfo} {i : ℕ} (h : Covered (fixedStores record) i) :
    24 ≤ i := by
  rw [fixedStores, covered_cons, covered_cons, covered_singleton] at h
  rcases h with h | h | h
  · exact h.1
  · have hfrom : 32 ≤ i := h.1
    omega
  · have hfrom : 34 ≤ i := h.1
    omega

theorem covered_controlStores {i : ℕ}
    (h : Covered (controlStores memory scanSsid activeScan bi) i) : i < 2 := by
  unfold controlStores at h
  split at h
  · exact (covered_singleton.mp h).2
  · exact absurd h (not_covered_nil i)

theorem frameType_mgmtHead (memory scanSsid : ℕ → UInt8) (activeScan : Bool) (bi : ℕ) :
    frameType (load16 (mgmtHead memory scanSsid activeScan bi) frameControlAt) =
      if SsidScanned memory scanSsid bi then some (scannedType activeScan) else none := by
  rw [mgmtHead, mgmtStores_eq]
  split
  next hscanned =>
    have hcontrol : Holds (controlStores memory scanSsid activeScan bi) frameControlAt
        (le16 (ftypeMgmt ||| if activeScan then stypeProbeResp else stypeBeacon)) := by
      rw [controlStores, if_pos hscanned]
      exact Holds.single _ _
    have hheld : Holds ([⟨mgmtBssidAt, (bssInfo memory bi).bssid⟩] ++
        (controlStores memory scanSsid activeScan bi ++ fixedStores (bssInfo memory bi)))
        frameControlAt
        (le16 (ftypeMgmt ||| if activeScan then stypeProbeResp else stypeBeacon) ++ []) :=
      (hcontrol.append (show 0 + 2 ≤ 24 by decide) fun _ hi ↦ covered_fixedStores hi).prepend _
    rw [hheld.load16]
    cases activeScan with
    | true => rfl
    | false => rfl
  next hscanned =>
    -- nothing is stored below the BSSID, and the buffer was zeroed
    have hzero : ∀ i < 2, fill ([⟨mgmtBssidAt, (bssInfo memory bi).bssid⟩] ++
        (controlStores memory scanSsid activeScan bi ++ fixedStores (bssInfo memory bi)))
        (fun _ ↦ 0) i = 0 := by
      intro i hi
      refine fill_of_not_covered (fun h ↦ ?_) _
      rw [controlStores, if_neg hscanned, List.nil_append, covered_append,
        covered_singleton] at h
      rcases h with h | h
      · have hfrom : 16 ≤ i := h.1
        omega
      · have hfrom := covered_fixedStores h
        omega
    have hcontrol : frameControlAt = 0 := rfl
    rw [load16, hcontrol, hzero 0 (by decide), hzero 1 (by decide)]
    rfl

/-- The other fields of the head are those of the record. -/
theorem mgmtHead_fields (memory scanSsid : ℕ → UInt8) (activeScan : Bool) (bi : ℕ) :
    slice (mgmtHead memory scanSsid activeScan bi) mgmtBssidAt 6 = (bssInfo memory bi).bssid ∧
      load16 (mgmtHead memory scanSsid activeScan bi) beaconIntAt =
        (bssInfo memory bi).beaconPeriod ∧
      load16 (mgmtHead memory scanSsid activeScan bi) capabInfoAt =
        (bssInfo memory bi).capability := by
  have hlength : (bssInfo memory bi).bssid.length = 6 := by
    rw [bssInfo, List.length_map, List.length_range]
  rw [mgmtHead, mgmtStores_eq]
  refine ⟨?_, ?_, ?_⟩
  · have hrest : ∀ i, Covered (controlStores memory scanSsid activeScan bi ++
        fixedStores (bssInfo memory bi)) i →
        i < mgmtBssidAt ∨ mgmtBssidAt + (bssInfo memory bi).bssid.length ≤ i := by
      intro i hi
      have hbssidAt : mgmtBssidAt = 16 := rfl
      rcases covered_append.mp hi with hi | hi
      · have hto := covered_controlStores hi
        omega
      · have hfrom := covered_fixedStores hi
        omega
    have hslice := ((Holds.single _ _).append_of_disjoint hrest).slice fun _ ↦ 0
    rwa [hlength] at hslice
  · have hbeacon : Holds (fixedStores (bssInfo memory bi)) beaconIntAt
        (le16 (bssInfo memory bi).beaconPeriod ++ []) := by
      have hcapab : ∀ i, Covered [⟨capabInfoAt, le16 (bssInfo memory bi).capability⟩] i →
          34 ≤ i := fun i hi ↦ (covered_singleton.mp hi).1
      exact ((Holds.single _ _).append (show 32 + 2 ≤ 34 by decide) hcapab).cons _
    rw [((hbeacon.prepend _).prepend _).load16]
    exact Nat.mod_eq_of_lt (u16At_lt ..)
  · have hcapab : Holds (fixedStores (bssInfo memory bi)) capabInfoAt
        (le16 (bssInfo memory bi).capability ++ []) := ((Holds.single _ _).cons _).cons _
    rw [((hcapab.prepend _).prepend _).load16]
    exact Nat.mod_eq_of_lt (u16At_lt ..)

/-! ### Agreement -/

/-- What a record on a known channel is described as. -/
def described (kernel : Kernel) (record : BssInfo) (ftype : Option FrameType)
    (ies : List UInt8) : Description where
  channel := record.frequency kernel
  ftype := ftype
  bssid := record.bssid
  capability := record.capability
  beaconInterval := record.beaconPeriod
  ies := ies
  signal := record.rssi * 100

theorem inform_of_onChannel (scanSsid : ℕ → UInt8) (activeScan scanRequest : Bool)
    (ie : WlCfg80211Ie) (h : OnChannel kernel (bssInfo memory bi)) :
    (informSingleBss memory scanSsid activeScan scanRequest ie kernel bi).inform =
      some (if !scanRequest then
        .frame ((bssInfo memory bi).frequency kernel)
          (reportedFrame memory scanSsid activeScan ie bi)
          (UInt16.ofNat variableAt + (wlGetIelen (collected memory ie bi)).toUInt16)
          ((bssInfo memory bi).rssi * 100)
      else
        .params ((bssInfo memory bi).frequency kernel) (scannedType activeScan)
          (bssInfo memory bi).bssid
          (load16 (reportedFrame memory scanSsid activeScan ie bi) capabInfoAt)
          (load16 (reportedFrame memory scanSsid activeScan ie bi) beaconIntAt)
          (slice memory (bi + (bssInfo memory bi).ieOffset) (bssInfo memory bi).ieLength)
          ((bssInfo memory bi).rssi * 100)) := by
  obtain ⟨⟨⟨hlength, halloc⟩, hsize⟩, hfreq, hchannel⟩ := h
  rw [informSingleBss_eq]
  dsimp only
  rw [if_neg (Nat.not_lt.mpr hlength), if_neg (by rw [halloc]; decide),
    if_neg (Nat.not_lt.mpr hsize), if_neg hfreq, if_neg (by rw [hchannel]; decide)]
  rfl

/-- The elements end the frame. -/
theorem ies_reportedFrame (scanSsid : ℕ → UInt8) (activeScan : Bool) (ie : WlCfg80211Ie)
    (h : (bssInfo memory bi).ieSize ≤ wlTlvInfoMax) :
    slice (reportedFrame memory scanSsid activeScan ie bi) variableAt
        ((UInt16.ofNat variableAt + (wlGetIelen (collected memory ie bi)).toUInt16).toNat -
          variableAt) =
      slice memory (bi + (bssInfo memory bi).ieOffset) (bssInfo memory bi).ieSize := by
  have hmax : wlTlvInfoMax = 1024 := rfl
  have hoffset := offset_collected ie h
  have hlen : (UInt16.ofNat variableAt + (wlGetIelen (collected memory ie bi)).toUInt16).toNat -
      variableAt = (bssInfo memory bi).ieSize := by
    have hvariable : (UInt16.ofNat variableAt).toNat = variableAt := rfl
    have hvariableAt : variableAt = 36 := rfl
    have hielen : (wlGetIelen (collected memory ie bi)).toUInt16 =
        (collected memory ie bi).offset := UInt16.toUInt16_toUInt32 _
    rw [hielen, UInt16.toNat_add, hvariable, hoffset]
    omega
  have hcontent : (collected memory ie bi).content =
      slice (fun i ↦ memory (bi + (bssInfo memory bi).ieOffset + i)) 0
        (bssInfo memory bi).ieSize := by
    have hfits : (wlRstIe ie).offset.toNat + (bssInfo memory bi).ieSize ≤ wlTlvInfoMax := by
      rw [show (wlRstIe ie).offset.toNat = 0 from rfl, Nat.zero_add]
      exact h
    rw [collected, WlCfg80211Ie.content_append hfits, IeBuffer.content_of_offset_eq_zero rfl,
      List.nil_append]
  have hcollected : slice (reportedFrame memory scanSsid activeScan ie bi) variableAt
      (bssInfo memory bi).ieSize = (collected memory ie bi).content := by
    rw [WlCfg80211Ie.content, hoffset]
    refine slice_congr fun i hi ↦ ?_
    rw [reportedFrame, overlay, if_pos (Nat.le_add_right ..), Nat.add_sub_cancel_left,
      IeBuffer.copyTo, if_pos hi, Nat.zero_add]
  rw [hlen, hcollected, hcontent]
  refine slice_congr fun i _ ↦ ?_
  rw [Nat.zero_add]

theorem capability_reportedFrame (scanSsid : ℕ → UInt8) (activeScan : Bool) (ie : WlCfg80211Ie) :
    load16 (reportedFrame memory scanSsid activeScan ie bi) capabInfoAt =
      (bssInfo memory bi).capability := by
  obtain ⟨-, -, hcapab⟩ := mgmtHead_fields memory scanSsid activeScan bi
  rw [reportedFrame, load16_overlay (by decide), hcapab]

theorem beaconInt_reportedFrame (scanSsid : ℕ → UInt8) (activeScan : Bool) (ie : WlCfg80211Ie) :
    load16 (reportedFrame memory scanSsid activeScan ie bi) beaconIntAt =
      (bssInfo memory bi).beaconPeriod := by
  obtain ⟨-, hbeacon, -⟩ := mgmtHead_fields memory scanSsid activeScan bi
  rw [reportedFrame, load16_overlay (by decide), hbeacon]

/-- The frame has no type when the SSID is another one, and it has the elements that the low half
of the length counts. -/
theorem describe_frame (scanSsid : ℕ → UInt8) (activeScan : Bool) (ie : WlCfg80211Ie)
    (h : OnChannel kernel (bssInfo memory bi)) :
    (informSingleBss memory scanSsid activeScan false ie kernel bi).inform.map Inform.describe =
      some (described kernel (bssInfo memory bi)
        (if SsidScanned memory scanSsid bi then some (scannedType activeScan) else none)
        (slice memory (bi + (bssInfo memory bi).ieOffset) (bssInfo memory bi).ieSize)) := by
  obtain ⟨hbssid, -, -⟩ := mgmtHead_fields memory scanSsid activeScan bi
  have hslice : slice (reportedFrame memory scanSsid activeScan ie bi) mgmtBssidAt 6 =
      slice (mgmtHead memory scanSsid activeScan bi) mgmtBssidAt 6 :=
    slice_congr fun i hi ↦ overlay_below (show 16 + i < 36 by omega)
  have hftype : frameType (load16 (reportedFrame memory scanSsid activeScan ie bi) frameControlAt) =
      if SsidScanned memory scanSsid bi then some (scannedType activeScan) else none := by
    rw [reportedFrame, load16_overlay (by decide), frameType_mgmtHead]
  rw [inform_of_onChannel scanSsid activeScan false ie h, Option.map_some, if_pos Bool.not_false,
    Inform.describe, hftype, hslice, hbssid, capability_reportedFrame, beaconInt_reportedFrame,
    ies_reportedFrame scanSsid activeScan ie h.1.2, described]

/-- The parameters have the type and all the elements. -/
theorem describe_params (scanSsid : ℕ → UInt8) (activeScan : Bool) (ie : WlCfg80211Ie)
    (h : OnChannel kernel (bssInfo memory bi)) :
    (informSingleBss memory scanSsid activeScan true ie kernel bi).inform.map Inform.describe =
      some (described kernel (bssInfo memory bi) (some (scannedType activeScan))
        (slice memory (bi + (bssInfo memory bi).ieOffset) (bssInfo memory bi).ieLength)) := by
  rw [inform_of_onChannel scanSsid activeScan true ie h, Option.map_some,
    if_neg (show ¬(!true) = true by decide), Inform.describe, capability_reportedFrame,
    beaconInt_reportedFrame, described]

/-- For a record that is accepted, the two ways describe the same network if and only if its SSID
is that of the last scan and the length of its elements has 16 bits. -/
theorem reports_agree_iff (scanSsid : ℕ → UInt8) (activeScan : Bool) (ie : WlCfg80211Ie)
    (h : Taken kernel (bssInfo memory bi)) :
    (informSingleBss memory scanSsid activeScan false ie kernel bi).inform.map Inform.describe =
        (informSingleBss memory scanSsid activeScan true ie kernel bi).inform.map
          Inform.describe ↔
      SsidScanned memory scanSsid bi ∧ (bssInfo memory bi).ieLength < 65536 := by
  rw [describe_frame scanSsid activeScan ie h.1, describe_params scanSsid activeScan ie h.1,
    Option.some.injEq, described, described, Description.mk.injEq]
  simp only [true_and, and_true]
  refine and_congr ?_ ?_
  · split
    next hscanned => exact iff_of_true rfl hscanned
    next hscanned => exact iff_of_false (fun hnone ↦ nomatch hnone) hscanned
  · constructor
    · intro hies
      have hlength := congrArg List.length hies
      rw [length_slice, length_slice] at hlength
      rw [← hlength]
      exact Nat.mod_lt _ (by decide)
    · intro hlt
      rw [BssInfo.ieSize, Nat.mod_eq_of_lt hlt]

/-- A record on channel 6 with an SSID of one byte. -/
def oneByteSsid : ℕ → UInt8
  | 4 => 128
  | 18 => 1
  | 19 => 65
  | 88 => 6
  | _ => 0

def emptyIe : WlCfg80211Ie := ⟨0, Vector.replicate 1024 0⟩

theorem oneByteSsid_taken : Taken willing (bssInfo oneByteSsid 0) := by
  refine ⟨⟨⟨⟨by decide, rfl⟩, by decide⟩, by decide, rfl⟩, rfl⟩

/-- After a scan for any network its frame has no type, and its parameters say beacon. -/
theorem oneByteSsid_disagrees :
    Taken willing (bssInfo oneByteSsid 0) ∧
      (informSingleBss oneByteSsid (fun _ ↦ 0) false false emptyIe willing 0).inform.map
          Inform.describe ≠
        (informSingleBss oneByteSsid (fun _ ↦ 0) false true emptyIe willing 0).inform.map
          Inform.describe := by
  refine ⟨oneByteSsid_taken, fun h ↦ ?_⟩
  rw [describe_frame _ _ _ oneByteSsid_taken.1, describe_params _ _ _ oneByteSsid_taken.1,
    Option.some.injEq] at h
  exact absurd (congrArg Description.ftype h) (by decide)

/-- After a scan for this network they agree. -/
theorem oneByteSsid_agrees :
    (informSingleBss oneByteSsid (fun _ ↦ 65) true false emptyIe willing 0).inform.map
        Inform.describe =
      (informSingleBss oneByteSsid (fun _ ↦ 65) true true emptyIe willing 0).inform.map
        Inform.describe :=
  (reports_agree_iff (fun _ ↦ 65) true emptyIe oneByteSsid_taken).mpr ⟨by decide, by decide⟩

end Agreement

end BroadcomWl.Cfg80211.ScanResults
