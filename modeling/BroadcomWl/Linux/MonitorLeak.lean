import BroadcomWl.Linux.MonitorFrame

/-!
# Stale memory in monitor frames

Two runs of `wl_monitor` that differ only in what the fresh socket buffer held hand over the same
bytes exactly when every byte of the buffer is stored. The frame behind the header always is; of
the six headers the two HT forms are stored completely and the prism header is when the device
name fills its field.
-/

namespace BroadcomWl.Linux.MonitorFrame

open BroadcomWl.Memory

/-- What is handed to `netif_rx` does not depend on what the fresh buffer held. -/
def NoLeak (wifi : Wifi) (wl : WlInfo) (jiffies : ℕ) (rxsts : WlRxsts) (p : Packet) : Prop :=
  ∀ stale stale' : ℕ → UInt8, wlMonitor wifi wl jiffies rxsts p (some stale) =
    wlMonitor wifi wl jiffies rxsts p (some stale')

/-- Every byte of a buffer is stored. -/
def FullyStored (len : ℕ) (stores : List Store) : Prop := ∀ i < len, Covered stores i

theorem skb_bytes_independent_iff (skb : Skb) :
    (∀ stale stale', skb.bytes stale = skb.bytes stale') ↔ FullyStored skb.len skb.stores := by
  unfold Skb.bytes FullyStored
  simp only [List.map_inj_left, List.mem_range]
  constructor
  · intro h i hi
    exact (fill_independent_iff _ _).mp fun stale stale' ↦ h stale stale' i hi
  · intro h stale stale' i hi
    exact (fill_independent_iff _ _).mpr (h i hi) stale stale'

/-- Full storage is read off the spans. -/
theorem fullyStored_of_spans {len : ℕ} {stores : List Store} {ranges : List Range}
    (hspans : stores.map Store.span = ranges)
    (h : ∀ i < len, ∃ range ∈ ranges, range.Covers i) : FullyStored len stores := by
  intro i hi
  rw [covered_iff_spans, hspans]
  exact h i hi

/-! ## Behind the header -/

theorem covered_bytes (p : Packet) (size i : ℕ) :
    Covered [⟨size, p.bytes⟩] i ↔ size ≤ i ∧ i < size + p.frameLen := by
  rw [covered_singleton]
  simp only [Range.Covers, Store.span, Packet.bytes, List.length_map, List.length_range]

/-- The copies of the chained packets leave no gap. -/
theorem covered_chainStores (offset : ℕ) (chain : List (List UInt8)) (i : ℕ) :
    Covered (chainStores offset chain) i ↔
      offset ≤ i ∧ i < offset + (chain.map List.length).sum := by
  induction chain generalizing offset with
  | nil =>
    refine iff_of_false ?_ fun h ↦ ?_
    · rintro ⟨store, hstore, -⟩
      cases hstore
    · rw [List.map_nil, List.sum_nil] at h
      omega
  | cons data rest ih =>
    rw [chainStores, ← List.singleton_append, covered_append, ih, covered_singleton, List.map_cons,
      List.sum_cons]
    simp only [Range.Covers, Store.span]
    omega

/-- Only the header can have gaps. -/
theorem headerAndFrame_fullyStored (size : ℕ) (header : List Store) (p : Packet) :
    FullyStored (headerAndFrame size header p).len (headerAndFrame size header p).stores ↔
      FullyStored size header := by
  unfold FullyStored headerAndFrame
  simp only [covered_append, covered_bytes]
  constructor
  · intro h i hi
    refine (h i (by omega)).resolve_right fun hbytes ↦ ?_
    omega
  · intro h i hi
    by_cases hsize : i < size
    · exact .inl (h i hsize)
    · exact .inr (by omega)

theorem chained_fullyStored (size : ℕ) (header : List Store) (p : Packet) :
    FullyStored (size + p.frameLen + (p.next.map List.length).sum)
        (header ++ [⟨size, p.bytes⟩] ++ chainStores (size + p.frameLen) p.next) ↔
      FullyStored size header := by
  unfold FullyStored
  simp only [covered_append, covered_bytes, covered_chainStores]
  constructor
  · intro h i hi
    refine ((h i (by omega)).resolve_right fun hchain ↦ ?_).resolve_right fun hbytes ↦ ?_
    all_goals omega
  · intro h i hi
    by_cases hsize : i < size
    · exact .inl (.inl (h i hsize))
    · by_cases hframe : i < size + p.frameLen
      · exact .inl (.inr (by omega))
      · exact .inr (by omega)

/-! ## The headers -/

variable (wifi : Wifi) (rxsts : WlRxsts) (fc : UInt16)

theorem htBrcm2_spans :
    (htBrcm2Stores wifi rxsts fc).map Store.span =
      [⟨0, 1⟩, ⟨1, 1⟩, ⟨2, 2⟩, ⟨4, 4⟩, ⟨8, 4⟩, ⟨12, 4⟩, ⟨16, 4⟩, ⟨20, 4⟩, ⟨24, 1⟩, ⟨25, 1⟩, ⟨26, 2⟩,
        ⟨28, 2⟩, ⟨30, 1⟩, ⟨31, 1⟩, ⟨32, 1⟩, ⟨33, 1⟩, ⟨34, 3⟩, ⟨37, 1⟩, ⟨38, 2⟩, ⟨40, 1⟩, ⟨41, 1⟩] :=
  rfl

theorem htBrcm2_fullyStored : FullyStored htBrcm2Size (htBrcm2Stores wifi rxsts fc) :=
  fullyStored_of_spans (htBrcm2_spans wifi rxsts fc) (by decide)

theorem ht_spans :
    (htStores wifi rxsts fc).map Store.span =
      [⟨0, 1⟩, ⟨1, 1⟩, ⟨2, 2⟩, ⟨4, 4⟩, ⟨8, 4⟩, ⟨12, 4⟩, ⟨16, 1⟩, ⟨17, 1⟩, ⟨18, 2⟩, ⟨20, 2⟩, ⟨22, 1⟩,
        ⟨23, 1⟩, ⟨24, 1⟩, ⟨25, 1⟩, ⟨26, 1⟩, ⟨27, 1⟩] :=
  rfl

theorem ht_fullyStored : FullyStored htSize (htStores wifi rxsts fc) :=
  fullyStored_of_spans (ht_spans wifi rxsts fc) (by decide)

theorem vht_spans :
    (vhtStores wifi rxsts fc).map Store.span =
      [⟨0, 1⟩, ⟨1, 1⟩, ⟨2, 2⟩, ⟨4, 4⟩, ⟨8, 4⟩, ⟨12, 4⟩, ⟨16, 1⟩, ⟨17, 1⟩, ⟨18, 2⟩, ⟨20, 2⟩, ⟨22, 1⟩,
        ⟨23, 1⟩, ⟨24, 1⟩, ⟨36, 2⟩, ⟨38, 1⟩, ⟨39, 1⟩, ⟨40, 1⟩, ⟨41, 1⟩, ⟨42, 1⟩, ⟨43, 1⟩, ⟨44, 1⟩,
        ⟨45, 1⟩, ⟨46, 2⟩, ⟨34, 1⟩, ⟨28, 4⟩, ⟨32, 2⟩] :=
  rfl

/-- `pad2`, `pad3` and `ampdu_reserved` are the gaps of the VHT form. -/
theorem vht_covered_iff {i : ℕ} (hi : i < vhtSize) :
    Covered (vhtStores wifi rxsts fc) i ↔ i ≠ 25 ∧ i ≠ 26 ∧ i ≠ 27 ∧ i ≠ 35 := by
  rw [covered_iff_spans, vht_spans]
  revert i
  decide

theorem legacy2_spans :
    (legacy2Stores wifi rxsts fc).map Store.span =
      [⟨0, 1⟩, ⟨1, 1⟩, ⟨2, 2⟩, ⟨4, 4⟩, ⟨16, 4⟩, ⟨20, 4⟩, ⟨24, 1⟩, ⟨25, 1⟩, ⟨26, 2⟩, ⟨28, 2⟩,
        ⟨30, 1⟩, ⟨31, 1⟩, ⟨32, 1⟩, ⟨34, 3⟩, ⟨37, 1⟩, ⟨38, 2⟩, ⟨40, 1⟩, ⟨41, 1⟩, ⟨42, 1⟩] :=
  rfl

/-- `it_present_ext`, `pad1` and `pad2` are the gaps of the legacy form of type 2. -/
theorem legacy2_covered_iff {i : ℕ} (hi : i < legacySize) :
    Covered (legacy2Stores wifi rxsts fc) i ↔ ¬(8 ≤ i ∧ i < 16) ∧ i ≠ 33 := by
  rw [covered_iff_spans, legacy2_spans]
  revert i
  decide

/-- The legacy form of type 3 stores one word more. -/
theorem legacy3_spans :
    (legacy3Stores wifi rxsts fc).map Store.span =
      ⟨8, 4⟩ :: (legacy2Stores wifi rxsts fc).map Store.span :=
  rfl

/-- `pad1` and `pad2` are its gaps. -/
theorem legacy3_covered_iff {i : ℕ} (hi : i < legacySize) :
    Covered (legacy3Stores wifi rxsts fc) i ↔ ¬(12 ≤ i ∧ i < 16) ∧ i ≠ 33 := by
  rw [covered_iff_spans, legacy3_spans, legacy2_spans]
  revert i
  decide

/-- An item is stored without a gap. -/
theorem item_covered (item : Item) (status data i : ℕ) :
    Covered (item.stores status data) i ↔ item.offset ≤ i ∧ i < item.offset + 12 := by
  have hspans : (item.stores status data).map Store.span =
      [⟨item.offset, 4⟩, ⟨item.offset + 4, 2⟩, ⟨item.offset + 6, 2⟩, ⟨item.offset + 8, 4⟩] := rfl
  rw [covered_iff_spans, hspans]
  simp only [List.mem_cons, List.not_mem_nil, or_false, exists_eq_or_imp, exists_eq_left,
    Range.Covers]
  omega

/-- The ten items fill the rest of the header. -/
theorem prism_covered_iff (devName : List UInt8) (jiffies : ℕ) {i : ℕ} (hi : i < p80211msgSize) :
    Covered (prismStores devName jiffies rxsts) i ↔ i < 8 + (devName.length + 1) ∨ 24 ≤ i := by
  have hhead : Covered [⟨0, le32 wlMonFrame⟩, ⟨4, le32 p80211msgSize⟩, strcpy 8 devName] i ↔
      i < 8 + (devName.length + 1) := by
    have hspans : [⟨0, le32 wlMonFrame⟩, ⟨4, le32 p80211msgSize⟩, strcpy 8 devName].map Store.span =
        [⟨0, 4⟩, ⟨4, 4⟩, ⟨8, (devName ++ [0]).length⟩] := rfl
    rw [covered_iff_spans, hspans, List.length_append, List.length_singleton]
    simp only [List.mem_cons, List.not_mem_nil, or_false, exists_eq_or_imp, exists_eq_left,
      Range.Covers]
    omega
  unfold p80211msgSize at hi
  unfold prismStores
  simp only [covered_append, hhead, item_covered, Item.offset]
  omega

/-- A device name shorter than its field leaves the rest of the field as it was. -/
theorem prism_fullyStored_iff (devName : List UInt8) (jiffies : ℕ) :
    FullyStored p80211msgSize (prismStores devName jiffies rxsts) ↔
      dnamelen ≤ devName.length + 1 := by
  unfold FullyStored
  constructor
  · intro h
    by_contra hshort
    have hgap : 8 + (devName.length + 1) < p80211msgSize := by
      unfold p80211msgSize
      unfold dnamelen at hshort
      omega
    have hlast := (prism_covered_iff rxsts devName jiffies hgap).mp (h _ hgap)
    unfold dnamelen at hshort
    omega
  · intro h i hi
    refine (prism_covered_iff rxsts devName jiffies hi).mpr ?_
    unfold dnamelen at h
    omega

/-! ## All monitor types -/

theorem noLeak_of_monitorSkb {wifi : Wifi} {wl : WlInfo} {jiffies : ℕ} {rxsts : WlRxsts}
    {p : Packet} {skb : Skb} (hskb : monitorSkb wifi wl jiffies rxsts p = some skb) :
    NoLeak wifi wl jiffies rxsts p ↔ FullyStored skb.len skb.stores := by
  rw [← skb_bytes_independent_iff]
  unfold NoLeak wlMonitor
  rw [hskb]
  exact forall_congr' fun stale ↦ forall_congr' fun stale' ↦ Option.some_inj

theorem noLeak_of_none {wifi : Wifi} {wl : WlInfo} {jiffies : ℕ} {rxsts : WlRxsts} {p : Packet}
    (hskb : monitorSkb wifi wl jiffies rxsts p = none) : NoLeak wifi wl jiffies rxsts p := by
  intro stale stale'
  unfold wlMonitor
  rw [hskb]
  rfl

theorem rtap2_fullyStored_iff :
    FullyStored (rtap2 wifi rxsts fc).1 (rtap2 wifi rxsts fc).2 ↔ rxsts.phytype = wlRxsPhyN := by
  unfold rtap2
  by_cases hphy : rxsts.phytype = wlRxsPhyN
  · rw [if_neg (not_not_intro hphy)]
    exact iff_of_true (htBrcm2_fullyStored wifi rxsts fc) hphy
  · rw [if_pos hphy]
    refine iff_of_false (fun h ↦ ?_) hphy
    have hgap : Covered (legacy2Stores wifi rxsts fc) 8 := h 8 (show 8 < legacySize by decide)
    exact ((legacy2_covered_iff wifi rxsts fc (by decide)).mp hgap).1 ⟨by decide, by decide⟩

theorem rtap3_fullyStored_iff :
    FullyStored (rtapLen3 rxsts) (rtap3 wifi rxsts fc) ↔
      rxsts.phytype = wlRxsPhyN ∧ rxsts.encoding = wlRxsEncodingHt := by
  rcases rtap3_eq wifi rxsts fc with
    ⟨hphy, hht, hlen, hstores⟩ | ⟨hphy, hvht, hlen, hstores⟩ | ⟨hlegacy, hlen, hstores⟩
  · rw [hlen, hstores]
    exact iff_of_true (ht_fullyStored wifi rxsts fc) ⟨hphy, hht⟩
  · rw [hlen, hstores]
    refine iff_of_false (fun h ↦ ?_) fun h ↦ ?_
    · exact ((vht_covered_iff wifi rxsts fc (by decide)).mp (h 25 (by decide))).1 rfl
    · rw [hvht] at h
      exact absurd h.2 (by decide)
  · rw [hlen, hstores]
    refine iff_of_false (fun h ↦ ?_) fun h ↦ ?_
    · exact ((legacy3_covered_iff wifi rxsts fc (by decide)).mp (h 12 (by decide))).1
        ⟨by decide, by decide⟩
    · exact hlegacy.elim (fun hphy ↦ hphy h.1) fun hencoding ↦ hencoding.1 h.2

/-- The frames whose header is stored completely: a prism header with a device name that fills
its field, an HT header of either monitor type, or no frame at all. -/
def HeaderStored (wl : WlInfo) (rxsts : WlRxsts) : Prop :=
  (wl.monitorType = 1 → dnamelen ≤ wl.devName.length + 1) ∧
    (wl.monitorType = 2 → rxsts.phytype = wlRxsPhyN) ∧
    (wl.monitorType = 3 →
      rxsts.phytype = wlRxsPhyN ∧ rxsts.encoding = wlRxsEncodingHt)

/-- What reaches `netif_rx` is independent of stale memory exactly for these frames. -/
theorem monitor_no_leak_iff (wifi : Wifi) (wl : WlInfo) (jiffies : ℕ) (rxsts : WlRxsts)
    (p : Packet) :
    NoLeak wifi wl jiffies rxsts p ↔ (wl.monitorDev = true → HeaderStored wl rxsts) := by
  by_cases hdev : wl.monitorDev = true
  swap
  · have hskb : monitorSkb wifi wl jiffies rxsts p = none := by
      unfold monitorSkb
      rw [if_pos (by simpa using hdev)]
    exact iff_of_true (noLeak_of_none hskb) fun h ↦ absurd h hdev
  rw [forall_prop_of_true hdev]
  unfold HeaderStored
  by_cases h1 : wl.monitorType = 1
  · have hskb : monitorSkb wifi wl jiffies rxsts p =
        some (headerAndFrame p80211msgSize (prismStores wl.devName jiffies rxsts) p) := by
      simp [monitorSkb, hdev, h1]
    rw [noLeak_of_monitorSkb hskb, headerAndFrame_fullyStored, prism_fullyStored_iff]
    simp [h1]
  by_cases h2 : wl.monitorType = 2
  · have hskb : monitorSkb wifi wl jiffies rxsts p = some (headerAndFrame
        (rtap2 wifi rxsts p.fc).1 (rtap2 wifi rxsts p.fc).2 p) := by
      simp [monitorSkb, hdev, h2]
    rw [noLeak_of_monitorSkb hskb, headerAndFrame_fullyStored, rtap2_fullyStored_iff]
    simp [h2]
  by_cases h3 : wl.monitorType = 3
  · have hskb : monitorSkb wifi wl jiffies rxsts p = some
        { len := rtapLen3 rxsts + p.frameLen + (p.next.map List.length).sum
          stores := rtap3 wifi rxsts p.fc ++ [⟨rtapLen3 rxsts, p.bytes⟩] ++
            chainStores (rtapLen3 rxsts + p.frameLen) p.next } := by
      simp [monitorSkb, hdev, h3]
    rw [noLeak_of_monitorSkb hskb, chained_fullyStored, rtap3_fullyStored_iff]
    simp [h3]
  · have hskb : monitorSkb wifi wl jiffies rxsts p = none := by
      simp [monitorSkb, hdev, h1, h2, h3]
    exact iff_of_true (noLeak_of_none hskb)
      ⟨fun h ↦ absurd h h1, fun h ↦ absurd h h2, fun h ↦ absurd h h3⟩

/-- The receive status of a frame of a legacy PHY on channel 1. -/
def legacyRxsts : WlRxsts where
  pkterror := 0
  phytype := 2
  chanspec := 0x1001
  datarate := 2
  mcs := 0
  htflags := 0
  antenna := 0
  pktlength := 0
  mactime := 0
  sq := 0
  signal := -50
  noise := -90
  preamble := 2
  encoding := 1
  nfrmtype := 0x100
  nss := 0
  coding := 0
  aid := 0
  gid := 0
  bw := 0
  vhtflags := 0
  bwNonht := 0
  ampduCounter := 0

def channelOne : Wifi where
  chspecIs2g := fun _ ↦ true
  wfChspecCtlchan := fun chanspec ↦ (chanspec &&& 0xff).toNat
  wfChannel2mhz := fun channel _ ↦ 2407 + 5 * channel
  ampduMpduOnly := 0

/-- A MAC header of zeros. -/
def zeroFrame : Packet := ⟨fun _ ↦ 0, 24, []⟩

/-- A legacy frame on a type 2 monitor shows what its buffer held at `it_present_ext`. -/
theorem legacy_frame_leaks :
    (wlMonitor channelOne ⟨true, 2, []⟩ 0 legacyRxsts zeroFrame (some fun _ ↦ 0xa5)).bind (·[8]?) =
        some 0xa5 ∧
      ¬NoLeak channelOne ⟨true, 2, []⟩ 0 legacyRxsts zeroFrame := by
  refine ⟨by decide, fun h ↦ ?_⟩
  have hzero := congrArg (fun frame ↦ frame.bind (·[8]?)) (h (fun _ ↦ 0) fun _ ↦ 1)
  exact absurd hzero (by decide)

end BroadcomWl.Linux.MonitorFrame
