import BroadcomWl.Memory.Access

/-!
# Walking the scan results

`wl_notify_scan_status` lets the firmware fill a buffer, 16 KiB or a doubling of it, with a list
of records, and `wl_inform_bss` reports one record after another. A record gives its own length,
the length of its SSID and the place of its information elements; the next record starts where
its length says.

The walk is modelled with the log of what it reads from the records and from the SSID of the
scan request. The memory is a function of the distance from the start of the buffer, because the
walk may read past its end. The fields are little-endian. The debug level that prints
a record's SSID is never set.
-/

namespace BroadcomWl.Cfg80211.ScanResults

open BroadcomWl.Memory

def e2big : ℤ := 7
def enomem : ℤ := 12
def einval : ℤ := 22
def enospc : ℤ := 28
def eopnotsupp : ℤ := 95

def wlBssInfoVersion : ℕ := 109
def wlBssInfoMax : ℕ := 2048
def wlTlvInfoMax : ℕ := 1024
def wlApMax : ℕ := 256

/-! ## Layout -/

def byteT : Extent := ⟨1, 1⟩
def uint16T : Extent := ⟨2, 2⟩
def uint32T : Extent := ⟨4, 4⟩

/-- `struct ether_addr`. -/
def etherAddrT : Extent := byteT.array 6

/-- The members of `struct wl_bss_info` before `ie_offset`; a set of MCS has 16 bytes. -/
def bssInfoHead : List Extent :=
  [uint32T, uint32T, etherAddrT, uint16T, uint16T, byteT, byteT.array 32,
    .struct [uint32T, byteT.array 16], uint16T, uint16T, byteT, uint16T, byteT, byteT, uint32T,
    byteT, byteT.array 3, uint16T, uint16T, byteT, byteT, byteT.array 2, byteT.array 16]

/-- The member that follows the first `count` ones. -/
def memberAt (count : ℕ) (member : Extent) : ℕ := Extent.offsetAfter (bssInfoHead.take count) member

def lengthAt : ℕ := 4
def bssidAt : ℕ := 8
def beaconPeriodAt : ℕ := 14
def capabilityAt : ℕ := 16
def ssidLenAt : ℕ := 18
def ssidAt : ℕ := 19
def chanspecAt : ℕ := 72
def rssiAt : ℕ := 78
def ctlChAt : ℕ := 88
def ieOffsetAt : ℕ := 116
def ieLengthAt : ℕ := 120

/-- The offsets are those of the declaration. -/
theorem offsets_of_layout :
    [memberAt 1 uint32T, memberAt 2 etherAddrT, memberAt 3 uint16T, memberAt 4 uint16T,
      memberAt 5 byteT, memberAt 6 byteT, memberAt 8 uint16T, memberAt 11 uint16T,
      memberAt 15 byteT, memberAt 23 uint16T,
      Extent.offsetAfter (bssInfoHead ++ [uint16T]) uint32T] =
    [lengthAt, bssidAt, beaconPeriodAt, capabilityAt, ssidLenAt, ssidAt, chanspecAt, rssiAt,
      ctlChAt, ieOffsetAt, ieLengthAt] := by decide

/-- `list->bss_info` follows three words. -/
def bssInfoAt : ℕ := 12

/-- The size of `sr->ssid.SSID`. -/
def ssidSize : ℕ := 32

def u16At (memory : ℕ → UInt8) (offset : ℕ) : ℕ :=
  (memory offset).toNat + 256 * (memory (offset + 1)).toNat

def u32At (memory : ℕ → UInt8) (offset : ℕ) : ℕ :=
  u16At memory offset + 65536 * u16At memory (offset + 2)

/-- The fields of a record that the walk uses. -/
structure BssInfo where
  length : ℕ
  bssid : List UInt8
  beaconPeriod : ℕ
  capability : ℕ
  ssidLen : ℕ
  chanspec : ℕ
  rssi : ℤ
  ctlCh : ℕ
  ieOffset : ℕ
  ieLength : ℕ

/-- The record at `bi`. -/
def bssInfo (memory : ℕ → UInt8) (bi : ℕ) : BssInfo where
  length := u32At memory (bi + lengthAt)
  bssid := (List.range 6).map fun i ↦ memory (bi + bssidAt + i)
  beaconPeriod := u16At memory (bi + beaconPeriodAt)
  capability := u16At memory (bi + capabilityAt)
  ssidLen := (memory (bi + ssidLenAt)).toNat
  chanspec := u16At memory (bi + chanspecAt)
  rssi := (BitVec.ofNat 16 (u16At memory (bi + rssiAt))).toInt
  ctlCh := (memory (bi + ctlChAt)).toNat
  ieOffset := u16At memory (bi + ieOffsetAt)
  ieLength := u32At memory (bi + ieLengthAt)

/-! ## The walk -/

/-- What the walk reads: the buffer of the results, or the SSID of the scan request. -/
inductive Object where
  | results
  | scanSsid
deriving DecidableEq

/-- The sizes of the objects, for a buffer of `buflen` bytes. -/
def sizes (buflen : ℕ) : Object → ℕ
  | .results => buflen
  | .scanSsid => ssidSize

/-- What the kernel answers while a record is reported: whether there is memory, the channel of a
chanspec, the frequency of a channel (0 when it has none), whether the wiphy has the frequency,
and whether cfg80211 takes the record. -/
structure Kernel where
  kzalloc : Bool
  chspecChannel : ℕ → ℕ
  channelToFrequency : ℕ → ℕ
  getChannel : ℕ → Bool
  informed : Bool

/-- What is passed on to cfg80211: with a pending scan request the information elements as they
lie in the buffer, otherwise a frame built from the copied ones. -/
structure Report where
  frequency : ℕ
  signal : ℤ
  bssid : List UInt8
  capability : ℕ
  beaconPeriod : ℕ
  ies : Range

/-- The reads of one record, the error, and the report. -/
structure Single where
  log : List (Access Object)
  err : ℤ
  report : Option Report

/-- A read of `length` bytes of the buffer. -/
def results (offset length : ℕ) : Access Object := ⟨.results, ⟨offset, length⟩⟩

/-- The reads of `wl_inform_single_bss` up to its call of `wl_mrg_ie`. `memcmp` compares
`bi->SSID_len` bytes. -/
def fixedReads (record : BssInfo) (bi : ℕ) : List (Access Object) :=
  [results (bi + ctlChAt) 1] ++
    (if record.ctlCh = 0 then [results (bi + chanspecAt) 2] else []) ++
    [results (bi + rssiAt) 2, results (bi + bssidAt) 6, results (bi + ssidLenAt) 1,
      results (bi + ssidAt) record.ssidLen, ⟨.scanSsid, ⟨0, record.ssidLen⟩⟩,
      results (bi + beaconPeriodAt) 2, results (bi + capabilityAt) 2, results (bi + ieOffsetAt) 2,
      results (bi + ieLengthAt) 4]

/-- The length that `wl_mrg_ie` is passed: its parameter has 16 bits. -/
def BssInfo.ieSize (record : BssInfo) : ℕ := record.ieLength % 65536

/-- The channel that the record names. -/
def BssInfo.channel (record : BssInfo) (kernel : Kernel) : ℕ :=
  if record.ctlCh ≠ 0 then record.ctlCh else kernel.chspecChannel record.chanspec

def BssInfo.frequency (record : BssInfo) (kernel : Kernel) : ℕ :=
  kernel.channelToFrequency (record.channel kernel)

/-- The information elements where the record says they are. -/
def BssInfo.ies (record : BssInfo) (bi : ℕ) : Range := ⟨bi + record.ieOffset, record.ieLength⟩

/-- The part of them that `wl_mrg_ie` copies. -/
def BssInfo.copiedIes (record : BssInfo) (bi : ℕ) : Range := ⟨bi + record.ieOffset, record.ieSize⟩

/-- `wl_inform_single_bss` for the record at `bi`. -/
def wlInformSingleBss (memory : ℕ → UInt8) (scanRequest : Bool) (kernel : Kernel) (bi : ℕ) :
    Single :=
  let record := bssInfo memory bi
  let log := [results (bi + lengthAt) 4]
  if record.length > wlBssInfoMax then ⟨log, -e2big, none⟩
  else if !kernel.kzalloc then ⟨log, -enomem, none⟩
  else
    let log := log ++ fixedReads record bi
    if record.ieSize > wlTlvInfoMax then ⟨log, -enospc, none⟩
    else
      let log := log ++ [⟨.results, record.copiedIes bi⟩]
      let freq := record.frequency kernel
      if freq = 0 then ⟨log, -einval, none⟩
      else if !kernel.getChannel freq then ⟨log, -einval, none⟩
      else
        -- the whole `bi->ie_length` is handed on, not the 16 bits that were checked
        let ies := if scanRequest then record.ies bi else record.copiedIes bi
        let log := if scanRequest then log ++ [⟨.results, ies⟩] else log
        if !kernel.informed then ⟨log, -enomem, none⟩
        else
          ⟨log, 0, some
            { frequency := freq
              signal := record.rssi * 100
              bssid := record.bssid
              capability := record.capability
              beaconPeriod := record.beaconPeriod
              ies := ies }⟩

/-- The reads of a walk, its error, and its reports. -/
structure Walk where
  log : List (Access Object)
  err : ℤ
  reports : List Report

/-- `for_each_bss` with at most `count` records left, the `i`-th at `bi`; `next_bss` reads the
length of a record again. -/
def forEachBss (memory : ℕ → UInt8) (scanRequest : Bool) (kernel : ℕ → Kernel) :
    ℕ → ℕ → ℕ → Walk
  | 0, _, _ => ⟨[], 0, []⟩
  | count + 1, i, bi =>
      let single := wlInformSingleBss memory scanRequest (kernel i) bi
      if single.err ≠ 0 then ⟨single.log, single.err, []⟩
      else
        let rest := forEachBss memory scanRequest kernel count (i + 1)
          (bi + (bssInfo memory bi).length)
        ⟨single.log ++ results (bi + lengthAt) 4 :: rest.log, rest.err,
          single.report.toList ++ rest.reports⟩

/-- `bss_list->version` and `bss_list->count`. -/
def version (memory : ℕ → UInt8) : ℕ := u32At memory 4

def count (memory : ℕ → UInt8) : ℕ := u32At memory 8

/-- `wl_inform_bss`. -/
def wlInformBss (memory : ℕ → UInt8) (scanRequest : Bool) (kernel : ℕ → Kernel) : Walk :=
  if version memory ≠ wlBssInfoVersion then ⟨[], -eopnotsupp, []⟩
  else forEachBss memory scanRequest kernel (min (count memory) wlApMax) 0 bssInfoAt

/-! ## When every read stays inside -/

/-- The record passes the check of its length. -/
def Accepted (kernel : Kernel) (record : BssInfo) : Prop :=
  record.length ≤ wlBssInfoMax ∧ kernel.kzalloc = true

/-- It also passes the check of `wl_mrg_ie`. -/
def Copied (kernel : Kernel) (record : BssInfo) : Prop :=
  Accepted kernel record ∧ record.ieSize ≤ wlTlvInfoMax

/-- The wiphy also has its channel. -/
def OnChannel (kernel : Kernel) (record : BssInfo) : Prop :=
  Copied kernel record ∧ record.frequency kernel ≠ 0 ∧
    kernel.getChannel (record.frequency kernel) = true

/-- cfg80211 also takes it, so that the walk goes on. -/
def Taken (kernel : Kernel) (record : BssInfo) : Prop :=
  OnChannel kernel record ∧ kernel.informed = true

/-- The record at `bi` fits a buffer of `buflen` bytes, as far as it is used. -/
structure Fits (buflen : ℕ) (scanRequest : Bool) (kernel : Kernel) (record : BssInfo) (bi : ℕ) :
    Prop where
  length : bi + bssidAt ≤ buflen
  fields : Accepted kernel record → bi + ieLengthAt + 4 ≤ buflen ∧ record.ssidLen ≤ ssidSize
  copied : Copied kernel record → (record.copiedIes bi).Inside buflen
  handed : OnChannel kernel record → scanRequest = true → (record.ies bi).Inside buflen

variable {memory : ℕ → UInt8} {scanRequest : Bool} {buflen : ℕ}

theorem results_inside {offset length : ℕ} (h : length ≠ 0) :
    (results offset length).Inside (sizes buflen) ↔ offset + length ≤ buflen :=
  Range.inside_iff_within h

/-- The fixed fields are inside when the last of them is, and then so is an SSID that fits the
request's. -/
theorem fixedReads_safe_iff (record : BssInfo) (bi : ℕ) :
    Safe (sizes buflen) (fixedReads record bi) ↔
      bi + ieLengthAt + 4 ≤ buflen ∧ record.ssidLen ≤ ssidSize := by
  have hssid : (results (bi + ssidAt) record.ssidLen).Inside (sizes buflen) ↔
      record.ssidLen = 0 ∨ bi + ssidAt + record.ssidLen ≤ buflen := Range.inside_iff
  have hscan : (⟨.scanSsid, ⟨0, record.ssidLen⟩⟩ : Access Object).Inside (sizes buflen) ↔
      record.ssidLen = 0 ∨ 0 + record.ssidLen ≤ ssidSize := Range.inside_iff
  have hchanspec : Safe (sizes buflen)
      (if record.ctlCh = 0 then [results (bi + chanspecAt) 2] else []) ↔
        (record.ctlCh = 0 → bi + chanspecAt + 2 ≤ buflen) := by
    split
    · next h => simp [results_inside, h]
    · next h => simp [h]
  unfold fixedReads
  simp only [safe_append, safe_cons, safe_nil, hssid, hscan, hchanspec,
    @results_inside buflen _ _ (Nat.succ_ne_zero _), and_true]
  simp only [ctlChAt, chanspecAt, rssiAt, bssidAt, ssidLenAt, ssidAt, beaconPeriodAt, capabilityAt,
    ieOffsetAt, ieLengthAt, ssidSize]
  omega

theorem length_safe_iff {log : List (Access Object)} {bi : ℕ} :
    Safe (sizes buflen) ([results (bi + lengthAt) 4] ++ log) ↔
      bi + bssidAt ≤ buflen ∧ Safe (sizes buflen) log := by
  rw [safe_append, safe_cons, results_inside (Nat.succ_ne_zero _)]
  simp only [safe_nil, and_true]
  rfl

/-- The branches of `wl_inform_single_bss`: what is read, and when the walk goes on. -/
theorem wlInformSingleBss_cases (memory : ℕ → UInt8) (scanRequest : Bool) (kernel : Kernel)
    (bi : ℕ) :
    let record := bssInfo memory bi
    let single := wlInformSingleBss memory scanRequest kernel bi
    let log := [results (bi + lengthAt) 4]
    ¬Accepted kernel record ∧ single.log = log ∧ single.err ≠ 0 ∨
    Accepted kernel record ∧ ¬Copied kernel record ∧
      single.log = log ++ fixedReads record bi ∧ single.err ≠ 0 ∨
    Copied kernel record ∧ ¬OnChannel kernel record ∧
      single.log = log ++ fixedReads record bi ++ [⟨.results, record.copiedIes bi⟩] ∧
      single.err ≠ 0 ∨
    OnChannel kernel record ∧
      single.log = log ++ fixedReads record bi ++ [⟨.results, record.copiedIes bi⟩] ++
        (if scanRequest then [⟨.results, record.ies bi⟩] else []) ∧
      (single.err = 0 ↔ Taken kernel record) := by
  intro record single log
  have hsingle : single = wlInformSingleBss memory scanRequest kernel bi := rfl
  unfold wlInformSingleBss at hsingle
  dsimp only at hsingle
  by_cases hlength : record.length > wlBssInfoMax
  · rw [if_pos hlength] at hsingle
    have herr : single.err = -e2big := congrArg Single.err hsingle
    exact .inl ⟨fun h ↦ absurd h.1 (Nat.not_le.mpr hlength), congrArg Single.log hsingle,
      by rw [herr]; decide⟩
  rw [if_neg hlength] at hsingle
  by_cases halloc : kernel.kzalloc = true
  swap
  · rw [if_pos (by simpa using halloc)] at hsingle
    have herr : single.err = -enomem := congrArg Single.err hsingle
    exact .inl ⟨fun h ↦ halloc h.2, congrArg Single.log hsingle, by rw [herr]; decide⟩
  rw [if_neg (by simpa using halloc)] at hsingle
  have haccepted : Accepted kernel record := ⟨Nat.not_lt.mp hlength, halloc⟩
  right
  by_cases hsize : record.ieSize > wlTlvInfoMax
  · rw [if_pos hsize] at hsingle
    have herr : single.err = -enospc := congrArg Single.err hsingle
    exact .inl ⟨haccepted, fun h ↦ absurd h.2 (Nat.not_le.mpr hsize),
      congrArg Single.log hsingle, by rw [herr]; decide⟩
  rw [if_neg hsize] at hsingle
  have hcopied : Copied kernel record := ⟨haccepted, Nat.not_lt.mp hsize⟩
  right
  by_cases hfreq : record.frequency kernel = 0
  · rw [if_pos hfreq] at hsingle
    have herr : single.err = -einval := congrArg Single.err hsingle
    exact .inl ⟨hcopied, fun h ↦ h.2.1 hfreq, congrArg Single.log hsingle, by rw [herr]; decide⟩
  rw [if_neg hfreq] at hsingle
  by_cases hchannel : kernel.getChannel (record.frequency kernel) = true
  swap
  · rw [if_pos (by simpa using hchannel)] at hsingle
    have herr : single.err = -einval := congrArg Single.err hsingle
    exact .inl ⟨hcopied, fun h ↦ hchannel h.2.2, congrArg Single.log hsingle,
      by rw [herr]; decide⟩
  rw [if_neg (by simpa using hchannel)] at hsingle
  have honChannel : OnChannel kernel record := ⟨hcopied, hfreq, hchannel⟩
  refine .inr ⟨honChannel, ?_, ?_⟩
  · rw [hsingle, apply_ite Single.log, ite_self]
    cases scanRequest with
    | true => rfl
    | false => exact (List.append_nil _).symm
  · by_cases hinformed : kernel.informed = true
    · rw [if_neg (by simpa using hinformed)] at hsingle
      exact iff_of_true (congrArg Single.err hsingle) ⟨honChannel, hinformed⟩
    · rw [if_pos (by simpa using hinformed)] at hsingle
      have herr : single.err = -enomem := congrArg Single.err hsingle
      exact iff_of_false (by rw [herr]; decide) fun h ↦ hinformed h.2

/-- The walk goes on exactly behind a record that cfg80211 has taken. -/
theorem wlInformSingleBss_err (kernel : Kernel) (bi : ℕ) :
    (wlInformSingleBss memory scanRequest kernel bi).err = 0 ↔
      Taken kernel (bssInfo memory bi) := by
  rcases wlInformSingleBss_cases memory scanRequest kernel bi with
    ⟨hno, -, herr⟩ | ⟨-, hno, -, herr⟩ | ⟨-, hno, -, herr⟩ | ⟨-, -, herr⟩
  · exact iff_of_false herr fun h ↦ hno h.1.1.1
  · exact iff_of_false herr fun h ↦ hno h.1.1
  · exact iff_of_false herr fun h ↦ hno h.1
  · exact herr

/-- The reads of one record stay inside exactly when it fits. -/
theorem wlInformSingleBss_safe_iff (kernel : Kernel) (bi : ℕ) :
    Safe (sizes buflen) (wlInformSingleBss memory scanRequest kernel bi).log ↔
      Fits buflen scanRequest kernel (bssInfo memory bi) bi := by
  have hies : ∀ range : Range, Access.Inside (sizes buflen) ⟨.results, range⟩ ↔
      range.Inside buflen := fun _ ↦ Iff.rfl
  rcases wlInformSingleBss_cases memory scanRequest kernel bi with
    ⟨hno, hlog, -⟩ | ⟨haccepted, hno, hlog, -⟩ | ⟨hcopied, hno, hlog, -⟩ | ⟨honChannel, hlog, -⟩
  all_goals rw [hlog]
  · rw [← List.append_nil [results (bi + lengthAt) 4], length_safe_iff]
    refine ⟨fun h ↦ ⟨h.1, fun ha ↦ absurd ha hno, fun hc ↦ absurd hc.1 hno,
      fun ho ↦ absurd ho.1.1 hno⟩, fun h ↦ ⟨h.length, safe_nil⟩⟩
  · rw [length_safe_iff, fixedReads_safe_iff]
    exact ⟨fun h ↦ ⟨h.1, fun _ ↦ h.2, fun hc ↦ absurd hc hno, fun ho ↦ absurd ho.1 hno⟩,
      fun h ↦ ⟨h.length, h.fields haccepted⟩⟩
  · rw [List.append_assoc, length_safe_iff, safe_append, fixedReads_safe_iff, safe_cons, hies]
    exact ⟨fun h ↦ ⟨h.1, fun _ ↦ h.2.1, fun _ ↦ h.2.2.1, fun ho ↦ absurd ho hno⟩,
      fun h ↦ ⟨h.length, h.fields hcopied.1, h.copied hcopied, safe_nil⟩⟩
  · rw [List.append_assoc, List.append_assoc, length_safe_iff, safe_append, fixedReads_safe_iff,
      safe_append, safe_cons, hies]
    have hhanded : Safe (sizes buflen)
        (if scanRequest = true then [⟨.results, (bssInfo memory bi).ies bi⟩] else []) ↔
          (scanRequest = true → ((bssInfo memory bi).ies bi).Inside buflen) := by
      split
      · next h => simp [hies, h]
      · next h => simp [h]
    rw [hhanded]
    exact ⟨fun h ↦ ⟨h.1, fun _ ↦ h.2.1, fun _ ↦ h.2.2.1.1, fun _ ↦ h.2.2.2⟩,
      fun h ↦ ⟨h.length, h.fields honChannel.1.1, ⟨h.copied honChannel.1, safe_nil⟩,
        h.handed honChannel⟩⟩

/-- Where the `k`-th record from `bi` on lies: each record starts where the length of the one
before it says. -/
def recordAt (memory : ℕ → UInt8) (bi : ℕ) : ℕ → ℕ
  | 0 => bi
  | k + 1 => recordAt memory (bi + (bssInfo memory bi).length) k

theorem forEachBss_safe_iff (kernel : ℕ → Kernel) (count i bi : ℕ) :
    Safe (sizes buflen) (forEachBss memory scanRequest kernel count i bi).log ↔
      ∀ k < count, (∀ j < k, Taken (kernel (i + j)) (bssInfo memory (recordAt memory bi j))) →
        Fits buflen scanRequest (kernel (i + k)) (bssInfo memory (recordAt memory bi k))
          (recordAt memory bi k) := by
  induction count generalizing i bi with
  | zero => simp [forEachBss]
  | succ count ih =>
    have hsingle : Safe (sizes buflen) (wlInformSingleBss memory scanRequest (kernel i) bi).log ↔
        Fits buflen scanRequest (kernel i) (bssInfo memory bi) bi :=
      wlInformSingleBss_safe_iff (kernel i) bi
    have hrest := ih (i + 1) (bi + (bssInfo memory bi).length)
    simp only [Nat.add_right_comm i 1] at hrest
    rw [Nat.forall_lt_succ_left, forEachBss]
    by_cases htaken : Taken (kernel i) (bssInfo memory bi)
    · -- the walk goes on with the next record
      rw [if_neg (not_not_intro ((wlInformSingleBss_err _ _).mpr htaken)), safe_append, safe_cons,
        hsingle, hrest, results_inside (Nat.succ_ne_zero _)]
      simp only [Nat.forall_lt_succ_left]
      constructor
      · rintro ⟨hfits, -, hrest⟩
        exact ⟨fun _ ↦ hfits, fun k hk hbefore ↦ hrest k hk hbefore.2⟩
      · rintro ⟨hfits, hrest⟩
        have hhead := hfits fun j hj ↦ absurd hj (Nat.not_lt_zero j)
        exact ⟨hhead, hhead.length, fun k hk hbefore ↦ hrest k hk ⟨htaken, hbefore⟩⟩
    · -- the error ends the walk
      rw [if_pos (mt (wlInformSingleBss_err _ _).mp htaken), hsingle]
      constructor
      · intro hfits
        exact ⟨fun _ ↦ hfits, fun k _ hbefore ↦ absurd (hbefore 0 (Nat.succ_pos k)) htaken⟩
      · rintro ⟨hfits, -⟩
        exact hfits fun j hj ↦ absurd hj (Nat.not_lt_zero j)

/-- The place of the `k`-th record of the buffer. -/
def bssInfoAtIndex (memory : ℕ → UInt8) (k : ℕ) : ℕ := recordAt memory bssInfoAt k

/-- Every read of the walk lies inside the buffer, and the SSID compare inside the SSID of the scan
request, exactly when every record that the walk comes to fits. -/
theorem scan_reads_inside_iff (memory : ℕ → UInt8) (buflen : ℕ) (scanRequest : Bool)
    (kernel : ℕ → Kernel) :
    Safe (sizes buflen) (wlInformBss memory scanRequest kernel).log ↔
      (version memory = wlBssInfoVersion → ∀ k < min (count memory) wlApMax,
        (∀ j < k, Taken (kernel j) (bssInfo memory (bssInfoAtIndex memory j))) →
          Fits buflen scanRequest (kernel k) (bssInfo memory (bssInfoAtIndex memory k))
            (bssInfoAtIndex memory k)) := by
  unfold wlInformBss
  by_cases hversion : version memory = wlBssInfoVersion
  · rw [if_neg (not_not_intro hversion), forEachBss_safe_iff, forall_prop_of_true hversion]
    simp only [Nat.zero_add]
    rfl
  · rw [if_pos hversion]
    exact iff_of_true safe_nil fun h ↦ absurd h hversion

/-- A kernel that takes every record. -/
def willing : Kernel where
  kzalloc := true
  chspecChannel := fun chanspec ↦ chanspec % 256
  channelToFrequency := fun channel ↦ 2407 + 5 * channel
  getChannel := fun _ ↦ true
  informed := true

/-- One record of 128 bytes on channel 6 whose information elements are 65536 bytes long: the low
half of this length is 0. -/
def oversizedIes : ℕ → UInt8
  | 4 => 109
  | 8 => 1
  | 16 => 128
  | 100 => 6
  | 128 => 128
  | 134 => 1
  | _ => 0

/-- A pending scan hands cfg80211 64 KiB from a buffer of 16 KiB. -/
theorem scan_reads_outside :
    ¬Safe (sizes 16384) (wlInformBss oversizedIes true fun _ ↦ willing).log ∧
      (wlInformBss oversizedIes true fun _ ↦ willing).reports.map (·.ies) = [⟨140, 65536⟩] := by
  decide

end BroadcomWl.Cfg80211.ScanResults
