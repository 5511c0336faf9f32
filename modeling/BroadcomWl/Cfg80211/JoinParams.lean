import BroadcomWl.Cfg80211.Calls
import BroadcomWl.Cfg80211.ScanResults
import BroadcomWl.Memory.Stores

/-!
# The join parameters, byte by byte

`wl_cfg80211_connect` and `wl_cfg80211_join_ibss` fill a `struct wl_join_params` on the stack and
hand its first bytes to `WLC_SET_SSID`. The structure ends in a flexible array of chanspecs, so it
lies in a union with four bytes more than the structure has; `wl_ch_to_chanspec` writes one element
of the array and adds to the size.

The stores of both functions are modelled in order. What they leave is the `JoinParams` that the
calls hand over: a request encodes its SSID, its BSSID and its channel. The fields of a chanspec
and the numbers of the channels are those of headers without source.
-/

namespace BroadcomWl.Cfg80211.Join

open BroadcomWl.Memory
open BroadcomWl.Cfg80211.ScanResults (byteT uint16T uint32T etherAddrT)

/-! ## Layout -/

/-- `wlc_ssid_t`. -/
def wlcSsidT : Extent := .struct [uint32T, byteT.array 32]

/-- `wl_assoc_params_t`. -/
def wlAssocParamsT : Extent := .struct [etherAddrT, uint32T, uint16T.flexible]

/-- `wl_join_params_t`. -/
def wlJoinParamsT : Extent := .struct [wlcSsidT, wlAssocParamsT]

/-- A union lies at the alignment of its members and has room for each. -/
def joinParamsUnionT : Extent :=
  let buf := byteT.array (wlJoinParamsT.size + uint16T.size * 2)
  ⟨roundUp wlJoinParamsT.align (max wlJoinParamsT.size buf.size), wlJoinParamsT.align⟩

def ssidLenAt : ℕ := 0
def ssidAt : ℕ := 4
def bssidAt : ℕ := 36
def chanspecNumAt : ℕ := 44
def chanspecListAt : ℕ := 48
def wlcSsidSize : ℕ := 36
def wlJoinParamsSize : ℕ := 48
def joinParamsUnionSize : ℕ := 52
def wlAssocParamsFixedSize : ℕ := 12
def chanspecSize : ℕ := 2

/-- The numbers are those of the declarations. -/
theorem offsets_of_layout :
    [Extent.offsetAfter [] uint32T, Extent.offsetAfter [uint32T] (byteT.array 32),
      Extent.offsetAfter [wlcSsidT] wlAssocParamsT,
      Extent.offsetAfter [wlcSsidT] wlAssocParamsT + Extent.offsetAfter [etherAddrT] uint32T,
      Extent.offsetAfter [wlcSsidT] wlAssocParamsT +
        Extent.offsetAfter [etherAddrT, uint32T] uint16T.flexible,
      wlcSsidT.size, wlJoinParamsT.size, joinParamsUnionT.size,
      Extent.offsetAfter [etherAddrT, uint32T] uint16T.flexible, uint16T.size] =
    [ssidLenAt, ssidAt, bssidAt, chanspecNumAt, chanspecListAt, wlcSsidSize, wlJoinParamsSize,
      joinParamsUnionSize, wlAssocParamsFixedSize, chanspecSize] := by decide

/-! ## Chanspecs -/

/-- `WL_CHANSPEC_*`. -/
structure ChanspecBits where
  chanMask : UInt16
  bandMask : UInt16
  bwMask : UInt16
  band2G : UInt16
  band5G : UInt16
  bw20 : UInt16

/-- The masks share no bit, the one of the channel has the low byte, and the values lie in the
masks. -/
structure ChanspecBits.Disjoint (bits : ChanspecBits) : Prop where
  chan_band : bits.chanMask &&& bits.bandMask = 0
  chan_bw : bits.chanMask &&& bits.bwMask = 0
  band_bw : bits.bandMask &&& bits.bwMask = 0
  chan_low : 0xff &&& bits.chanMask = 0xff
  band2G_mem : bits.band2G &&& bits.bandMask = bits.band2G
  band5G_mem : bits.band5G &&& bits.bandMask = bits.band5G
  bw20_mem : bits.bw20 &&& bits.bwMask = bits.bw20

/-- `enum nl80211_band`; `other` are the bands that the driver does not know. -/
inductive Nl80211Band where
  | ghz2
  | ghz5
  | other
deriving DecidableEq, Repr

/-- `chan->band` of a channel in one of the two bands. -/
def nl80211Band (chan : Ieee80211Channel) : Nl80211Band := if chan.band2GHz then .ghz2 else .ghz5

/-- The value for a band; there is none where the driver calls `BUG`. -/
def ChanspecBits.band (bits : ChanspecBits) : Nl80211Band → Option UInt16
  | .ghz2 => some bits.band2G
  | .ghz5 => some bits.band5G
  | .other => none

/-- The stores in the join parameters, and the size of the request. -/
structure JoinRequest where
  stores : List Store
  size : ℕ

section Requests

variable (bits : ChanspecBits) (frequencyToChannel : ℕ → ℕ)

/-- `wl_ch_to_chanspec`; every line that changes the element of the list stores it anew. -/
def wlChToChanspec (chan : Option Ieee80211Channel) (request : JoinRequest) :
    Option JoinRequest :=
  match chan with
  | none => some request
  | some chan => do
      let chanspecNum := 1
      let channel := UInt16.ofNat (frequencyToChannel chan.centerFreq)
      let chanspec ← bits.band (nl80211Band chan)
      let chanspec := chanspec ||| bits.bw20
      let masked := channel &&& bits.chanMask
      let joined := masked ||| chanspec
      return {
        stores := request.stores ++
          [⟨chanspecNumAt, le32 chanspecNum⟩, ⟨chanspecListAt, le16 channel.toNat⟩,
            ⟨chanspecListAt, le16 masked.toNat⟩, ⟨chanspecListAt, le16 joined.toNat⟩,
            ⟨chanspecListAt, le16 joined.toNat⟩, ⟨chanspecNumAt, le32 chanspecNum⟩]
        size := request.size + (wlAssocParamsFixedSize + chanspecNum * chanspecSize) }

/-- `wl_cfg80211_connect`, from `memset(join_params, ...)` on. -/
def connectRequest (ssid : Ssid) (channel : Option Ieee80211Channel) : Option JoinRequest :=
  let ssidLen := min 32 ssid.length
  wlChToChanspec bits frequencyToChannel channel {
    stores :=
      [⟨0, List.replicate wlJoinParamsSize 0⟩, ⟨ssidLenAt, le32 ssidLen⟩,
        ⟨ssidAt, ssid.take ssidLen⟩, ⟨ssidLenAt, le32 ssidLen⟩, ⟨bssidAt, etherBcast.toList⟩]
    size := wlcSsidSize }

/-- `wl_cfg80211_join_ibss`, from `memset(join_params, ...)` on; there is no BSSID. -/
def ibssRequest (ssid : Ssid) (channel : Option Ieee80211Channel) : Option JoinRequest :=
  wlChToChanspec bits frequencyToChannel channel {
    stores :=
      [⟨0, List.replicate wlJoinParamsSize 0⟩, ⟨ssidAt, ssid⟩, ⟨ssidLenAt, le32 ssid.length⟩,
        ⟨bssidAt, List.replicate 6 0⟩]
    size := wlcSsidSize }

/-- The stores stay inside the union, the size covers bytes of the union that were stored, and
these bytes say what the join parameters say. -/
structure JoinRequest.Encodes (request : JoinRequest) (params : JoinParams) : Prop where
  inside : ∀ store ∈ request.stores, store.span.Within joinParamsUnionSize
  size_le : request.size ≤ joinParamsUnionSize
  initialised : ∀ i < request.size, Covered request.stores i
  ssidLen : ∀ stale, load32 (fill request.stores stale) ssidLenAt = params.ssid.length
  ssid : ∀ stale, slice (fill request.stores stale) ssidAt params.ssid.length = params.ssid
  bssid : ∀ stale, slice (fill request.stores stale) bssidAt 6 = params.bssid.toList
  noChannel : params.channel = none → request.size = wlcSsidSize
  channel : ∀ chan, params.channel = some chan →
    request.size = wlcSsidSize + wlAssocParamsFixedSize + chanspecSize ∧
      (∀ stale, load32 (fill request.stores stale) chanspecNumAt = 1) ∧
      (bits.Disjoint → frequencyToChannel chan.centerFreq ≤ 255 → ∀ stale,
        let chanspec := UInt16.ofNat (load16 (fill request.stores stale) chanspecListAt)
        (chanspec &&& bits.chanMask).toNat = frequencyToChannel chan.centerFreq ∧
          some (chanspec &&& bits.bandMask) = bits.band (nl80211Band chan) ∧
          chanspec &&& bits.bwMask = bits.bw20)

end Requests

/-! ## The fields of a chanspec -/

theorem bitVec_or_and_of_disjoint {w : ℕ} {other maskOther mask : BitVec w} (value : BitVec w)
    (hother : other &&& maskOther = other) (hdisjoint : maskOther &&& mask = 0) :
    (value ||| other) &&& mask = value &&& mask := by
  ext i hi
  have hotherBit : (other &&& maskOther)[i] = other[i] := by rw [hother]
  have hmaskBit : (maskOther &&& mask)[i] = (0 : BitVec w)[i] := by rw [hdisjoint]
  simp only [BitVec.getElem_and, BitVec.getElem_or, BitVec.ofNat_eq_ofNat,
    BitVec.getElem_zero] at hotherBit hmaskBit ⊢
  grind

/-- A field does not change when a value of another field is added. -/
theorem or_and_of_disjoint {other maskOther mask : UInt16} (value : UInt16)
    (hother : other &&& maskOther = other) (hdisjoint : maskOther &&& mask = 0) :
    (value ||| other) &&& mask = value &&& mask := by
  rw [← UInt16.toBitVec_inj] at hother hdisjoint ⊢
  exact bitVec_or_and_of_disjoint value.toBitVec hother hdisjoint

/-- A channel of at most eight bits lies in the mask of the channel. -/
theorem channel_and_chanMask {bits : ChanspecBits} (h : bits.Disjoint) {channel : ℕ}
    (hchannel : channel ≤ 255) :
    UInt16.ofNat channel &&& bits.chanMask = UInt16.ofNat channel := by
  have hlow : UInt16.ofNat channel &&& 0xff = UInt16.ofNat channel := by
    rw [← UInt16.toNat_inj, UInt16.toNat_and, UInt16.toNat_ofNat',
      Nat.mod_eq_of_lt (by omega : channel < 2 ^ 16)]
    change channel &&& 2 ^ 8 - 1 = channel
    rw [Nat.and_two_pow_sub_one_eq_mod]
    omega
  calc UInt16.ofNat channel &&& bits.chanMask
    _ = UInt16.ofNat channel &&& 0xff &&& bits.chanMask := by rw [hlow]
    _ = UInt16.ofNat channel &&& 0xff := by rw [UInt16.and_assoc, h.chan_low]
    _ = UInt16.ofNat channel := hlow

/-- The fields of the chanspec that `wl_ch_to_chanspec` puts together. -/
theorem chanspec_fields {bits : ChanspecBits} (h : bits.Disjoint) {band : Nl80211Band}
    {value : UInt16} (hband : bits.band band = some value) {channel : ℕ}
    (hchannel : channel ≤ 255) :
    let chanspec := UInt16.ofNat channel &&& bits.chanMask ||| (value ||| bits.bw20)
    chanspec &&& bits.chanMask = UInt16.ofNat channel ∧
      chanspec &&& bits.bandMask = value ∧ chanspec &&& bits.bwMask = bits.bw20 := by
  have hvalue : value &&& bits.bandMask = value := by
    cases band with
    | ghz2 =>
      cases hband
      exact h.band2G_mem
    | ghz5 =>
      cases hband
      exact h.band5G_mem
    | other => cases hband
  have hmasked := channel_and_chanMask h hchannel
  dsimp only
  rw [hmasked]
  refine ⟨?_, ?_, ?_⟩
  · rw [← UInt16.or_assoc,
      or_and_of_disjoint _ h.bw20_mem ((UInt16.and_comm ..).trans h.chan_bw),
      or_and_of_disjoint _ hvalue ((UInt16.and_comm ..).trans h.chan_band), hmasked]
  · rw [← UInt16.or_assoc,
      or_and_of_disjoint _ h.bw20_mem ((UInt16.and_comm ..).trans h.band_bw), UInt16.or_comm,
      or_and_of_disjoint _ hmasked h.chan_band, hvalue]
  · rw [UInt16.or_comm, UInt16.or_comm value, or_and_of_disjoint _ hmasked h.chan_bw,
      or_and_of_disjoint _ hvalue h.band_bw, h.bw20_mem]

/-! ## Every request encodes its parameters -/

/-- The stores in front of the channel fill the structure. -/
structure Fills (stores : List Store) (params : JoinParams) : Prop where
  inside : ∀ store ∈ stores, store.span.Within wlJoinParamsSize
  covers : ∀ i < wlJoinParamsSize, Covered stores i
  length_le : params.ssid.length ≤ 32
  ssidLen : Holds stores ssidLenAt (le32 params.ssid.length)
  ssid : Holds stores ssidAt params.ssid
  bssid : Holds stores bssidAt params.bssid.toList

variable {bits : ChanspecBits} {frequencyToChannel : ℕ → ℕ}

/-- The stores of `wl_ch_to_chanspec`. -/
def chanspecStores (channel masked joined : UInt16) : List Store :=
  [⟨chanspecNumAt, le32 1⟩, ⟨chanspecListAt, le16 channel.toNat⟩,
    ⟨chanspecListAt, le16 masked.toNat⟩, ⟨chanspecListAt, le16 joined.toNat⟩,
    ⟨chanspecListAt, le16 joined.toNat⟩, ⟨chanspecNumAt, le32 1⟩]

theorem chanspecStores_span {channel masked joined : UInt16} {store : Store}
    (h : store ∈ chanspecStores channel masked joined) :
    store.span = ⟨chanspecNumAt, 4⟩ ∨ store.span = ⟨chanspecListAt, 2⟩ := by
  simp only [chanspecStores, List.mem_cons, List.not_mem_nil, or_false] at h
  rcases h with rfl | rfl | rfl | rfl | rfl | rfl
  · exact .inl rfl
  · exact .inr rfl
  · exact .inr rfl
  · exact .inr rfl
  · exact .inr rfl
  · exact .inl rfl

theorem chanspecStores_within {channel masked joined : UInt16} {store : Store}
    (h : store ∈ chanspecStores channel masked joined) :
    store.span.Within joinParamsUnionSize := by
  rcases chanspecStores_span h with hspan | hspan
  · rw [hspan]
    exact show 44 + 4 ≤ 52 by decide
  · rw [hspan]
    exact show 48 + 2 ≤ 52 by decide

/-- They write behind the BSSID, up to the end of one element of the list. -/
theorem chanspecStores_covered {channel masked joined : UInt16} {i : ℕ} :
    Covered (chanspecStores channel masked joined) i ↔ 44 ≤ i ∧ i < 50 := by
  constructor
  · rintro ⟨store, hstore, hcovers⟩
    rcases chanspecStores_span hstore with hspan | hspan
    · rw [hspan] at hcovers
      obtain ⟨hfrom, hto⟩ : 44 ≤ i ∧ i < 44 + 4 := hcovers
      omega
    · rw [hspan] at hcovers
      obtain ⟨hfrom, hto⟩ : 48 ≤ i ∧ i < 48 + 2 := hcovers
      omega
  · rintro ⟨hfrom, hto⟩
    rw [chanspecStores, covered_cons, covered_cons]
    by_cases hnum : i < 48
    · exact .inl ⟨hfrom, hnum⟩
    · exact .inr (.inl ⟨Nat.not_lt.mp hnum, hto⟩)

theorem chanspecStores_num (channel masked joined : UInt16) :
    Holds (chanspecStores channel masked joined) chanspecNumAt (le32 1) :=
  (((((Holds.single chanspecNumAt (le32 1)).cons _).cons _).cons _).cons _).cons _

theorem chanspecStores_list (channel masked joined : UInt16) :
    Holds (chanspecStores channel masked joined) chanspecListAt (le16 joined.toNat) := by
  -- the number is stored once more behind the last element
  have hlast : ∀ i, Covered [⟨chanspecNumAt, le32 1⟩] i →
      i < chanspecListAt ∨ chanspecListAt + (le16 joined.toNat).length ≤ i := by
    intro i hi
    obtain ⟨-, hto⟩ : 44 ≤ i ∧ i < 44 + 4 := covered_singleton.mp hi
    exact .inl hto
  have hlist := (Holds.single chanspecListAt (le16 joined.toNat)).append_of_disjoint hlast
  exact (((hlist.cons _).cons _).cons _).cons _

/-- Whatever stores follow behind the BSSID. -/
theorem Fills.holds {stores : List Store} {params : JoinParams} (h : Fills stores params)
    (rest : List Store) (hrest : ∀ i, Covered rest i → 44 ≤ i) :
    (∀ stale, load32 (fill (stores ++ rest) stale) ssidLenAt = params.ssid.length) ∧
      (∀ stale, slice (fill (stores ++ rest) stale) ssidAt params.ssid.length = params.ssid) ∧
      ∀ stale, slice (fill (stores ++ rest) stale) bssidAt 6 = params.bssid.toList := by
  have hlength := h.length_le
  have hssidAt : ssidAt = 4 := rfl
  refine ⟨fun stale ↦ ?_, fun stale ↦ ?_, fun stale ↦ ?_⟩
  · have hholds : Holds (stores ++ rest) ssidLenAt (le32 params.ssid.length ++ []) := by
      rw [List.append_nil]
      exact h.ssidLen.append (show 0 + 4 ≤ 44 by decide) hrest
    rw [hholds.load32, Nat.mod_eq_of_lt (by omega)]
  · exact (h.ssid.append (by omega) hrest).slice stale
  · have hbssid := h.bssid.append (show bssidAt + params.bssid.toList.length ≤ 44 by
      rw [Vector.length_toList]
      decide) hrest
    have hslice := hbssid.slice stale
    rwa [Vector.length_toList] at hslice

/-- A channel is never on a third band. -/
theorem exists_band (bits : ChanspecBits) (chan : Ieee80211Channel) :
    ∃ value, bits.band (nl80211Band chan) = some value := by
  unfold nl80211Band
  split
  · exact ⟨_, rfl⟩
  · exact ⟨_, rfl⟩

theorem Fills.encodes {stores : List Store} {params : JoinParams} (h : Fills stores params) :
    ∃ request, wlChToChanspec bits frequencyToChannel params.channel ⟨stores, wlcSsidSize⟩ =
        some request ∧ request.Encodes bits frequencyToChannel params := by
  have hstructure : wlJoinParamsSize = 48 := rfl
  have hunion : joinParamsUnionSize = 52 := rfl
  have hinside : ∀ store ∈ stores, store.span.Within joinParamsUnionSize := by
    intro store hstore
    exact (h.inside store hstore).trans (by decide)
  cases hchannel : params.channel with
  | none =>
    obtain ⟨hssidLen, hssid, hbssid⟩ :=
      h.holds [] fun i hi ↦ absurd hi (not_covered_nil i)
    rw [List.append_nil] at hssidLen hssid hbssid
    refine ⟨_, rfl, hinside, show 36 ≤ 52 by decide, fun i hi ↦ ?_, hssidLen, hssid, hbssid,
      fun _ ↦ rfl, fun chan hchan ↦ ?_⟩
    · exact h.covers i (Nat.lt_trans hi (show 36 < 48 by decide))
    · rw [hchannel] at hchan
      cases hchan
  | some chan =>
    obtain ⟨value, hvalue⟩ := exists_band bits chan
    let channel := UInt16.ofNat (frequencyToChannel chan.centerFreq)
    let joined := channel &&& bits.chanMask ||| (value ||| bits.bw20)
    let tail := chanspecStores channel (channel &&& bits.chanMask) joined
    have hrequest : wlChToChanspec bits frequencyToChannel (some chan) ⟨stores, wlcSsidSize⟩ =
        some ⟨stores ++ tail, 50⟩ := by
      simp only [wlChToChanspec, hvalue]
      rfl
    obtain ⟨hssidLen, hssid, hbssid⟩ :=
      h.holds tail fun i hi ↦ (chanspecStores_covered.mp hi).1
    refine ⟨_, hrequest, ?_, show 50 ≤ 52 by decide, ?_, hssidLen, hssid, hbssid, ?_, ?_⟩
    · intro store hstore
      rcases List.mem_append.mp hstore with hstore | hstore
      · exact hinside store hstore
      · exact chanspecStores_within hstore
    · intro i hi
      rw [covered_append]
      by_cases hhead : i < wlJoinParamsSize
      · exact .inl (h.covers i hhead)
      · exact .inr (chanspecStores_covered.mpr ⟨by omega, hi⟩)
    · intro hnone
      rw [hchannel] at hnone
      cases hnone
    · intro chan' hchan'
      obtain rfl : chan = chan' := Option.some.inj (hchannel.symm.trans hchan')
      refine ⟨rfl, fun stale ↦ ?_, fun hbits hlow stale ↦ ?_⟩
      · have hnum : Holds (stores ++ tail) chanspecNumAt (le32 1 ++ []) :=
          (chanspecStores_num _ _ _).prepend stores
        exact hnum.load32 stale
      · have hlist : Holds (stores ++ tail) chanspecListAt (le16 joined.toNat ++ []) :=
          (chanspecStores_list _ _ _).prepend stores
        have hload := hlist.load16 stale
        have hjoined : UInt16.ofNat (joined.toNat % 65536) = joined := by
          rw [Nat.mod_eq_of_lt joined.toNat_lt, UInt16.ofNat_toNat]
        obtain ⟨hchan, hband, hbw⟩ := chanspec_fields hbits hvalue hlow
        dsimp only
        rw [hload, hjoined]
        refine ⟨?_, ?_, hbw⟩
        · rw [hchan, UInt16.toNat_ofNat', Nat.mod_eq_of_lt (by omega)]
        · rw [hband, hvalue]

theorem covers_memset (rest : List Store) {i : ℕ} (hi : i < wlJoinParamsSize) :
    Covered (⟨0, List.replicate wlJoinParamsSize 0⟩ :: rest) i := by
  refine covered_cons.mpr (.inl ⟨Nat.zero_le i, ?_⟩)
  rw [Store.span, List.length_replicate, Nat.zero_add]
  exact hi

theorem bssid_covered {bssid : List UInt8} {i : ℕ} (h : Covered [⟨bssidAt, bssid⟩] i) : 36 ≤ i :=
  (covered_singleton.mp h).1

/-- The BSSID is stored behind the SSID and its length. -/
theorem holds_ssidLen (len : ℕ) (bssid : List UInt8) :
    Holds [⟨ssidLenAt, le32 len⟩, ⟨bssidAt, bssid⟩] ssidLenAt (le32 len) := by
  have hsize : ssidLenAt + (le32 len).length ≤ 36 := show 0 + 4 ≤ 36 by decide
  exact (Holds.single ssidLenAt (le32 len)).append hsize fun _ hi ↦ bssid_covered hi

/-- The SSID lies between its length and the BSSID. -/
theorem holds_ssid {ssid : Ssid} (h : ssid.length ≤ 32) (len : ℕ) (bssid : List UInt8) :
    Holds [⟨ssidAt, ssid⟩, ⟨ssidLenAt, le32 len⟩, ⟨bssidAt, bssid⟩] ssidAt ssid := by
  have hssidAt : ssidAt = 4 := rfl
  have hrest : ∀ i, Covered [⟨ssidLenAt, le32 len⟩, ⟨bssidAt, bssid⟩] i →
      i < ssidAt ∨ ssidAt + ssid.length ≤ i := by
    intro i hi
    rcases covered_cons.mp hi with hlen | hbssid
    · have hto : i < 0 + 4 := hlen.2
      omega
    · have hfrom := bssid_covered hbssid
      omega
  exact (Holds.single ssidAt ssid).append_of_disjoint hrest

/-- The stores that both functions have in common stay inside the structure. -/
theorem head_inside {ssid : Ssid} (hssid : ssid.length ≤ 32) (len : ℕ) {bssid : List UInt8}
    (hbssid : bssid.length = 6) {store : Store}
    (h : store ∈ [(⟨0, List.replicate wlJoinParamsSize 0⟩ : Store), ⟨ssidAt, ssid⟩,
      ⟨ssidLenAt, le32 len⟩, ⟨bssidAt, bssid⟩]) :
    store.span.Within wlJoinParamsSize := by
  simp only [List.mem_cons, List.not_mem_nil, or_false] at h
  have hsize : wlJoinParamsSize = 48 := rfl
  rcases h with rfl | rfl | rfl | rfl
  · rw [Store.span, List.length_replicate]
    exact Nat.le_of_eq (Nat.zero_add _)
  · change 4 + ssid.length ≤ 48
    omega
  · exact show 0 + 4 ≤ 48 by decide
  · change 36 + bssid.length ≤ 48
    omega

theorem fills_ibss {ssid : Ssid} (h : ssid.length ≤ 32) (channel : Option Ieee80211Channel) :
    Fills [⟨0, List.replicate wlJoinParamsSize 0⟩, ⟨ssidAt, ssid⟩,
        ⟨ssidLenAt, le32 ssid.length⟩, ⟨bssidAt, List.replicate 6 0⟩]
      ⟨ssid, Vector.replicate 6 0, channel⟩ where
  inside _ := head_inside h _ List.length_replicate
  covers _ hi := covers_memset _ hi
  length_le := h
  ssidLen := ((holds_ssidLen _ _).cons _).cons _
  ssid := (holds_ssid h _ _).cons _
  bssid := (((Holds.single bssidAt (List.replicate 6 0)).cons _).cons _).cons _

/-- The length is stored once before the SSID and once behind it. -/
theorem fills_connect (ssid : Ssid) (channel : Option Ieee80211Channel) :
    Fills [⟨0, List.replicate wlJoinParamsSize 0⟩, ⟨ssidLenAt, le32 (min 32 ssid.length)⟩,
        ⟨ssidAt, ssid.take (min 32 ssid.length)⟩, ⟨ssidLenAt, le32 (min 32 ssid.length)⟩,
        ⟨bssidAt, etherBcast.toList⟩]
      ⟨ssid.take 32, etherBcast, channel⟩ := by
  have htake : ssid.take (min 32 ssid.length) = ssid.take 32 := by
    rw [Nat.min_comm, ← List.take_take]
    exact List.take_of_length_le (List.length_take_le' ..)
  have hlength : min 32 ssid.length = (ssid.take 32).length := List.length_take.symm
  have hshort : (ssid.take 32).length ≤ 32 := List.length_take_le ..
  rw [htake, hlength]
  exact {
    inside := by
      intro store hstore
      have hbcast : etherBcast.toList.length = 6 := Vector.length_toList
      refine head_inside hshort (ssid.take 32).length hbcast ?_
      simp only [List.mem_cons] at hstore ⊢
      grind
    covers := fun _ hi ↦ covers_memset _ hi
    length_le := hshort
    ssidLen := (((holds_ssidLen _ _).cons _).cons _).cons _
    ssid := ((holds_ssid hshort _ _).cons _).cons _
    bssid := ((((Holds.single bssidAt etherBcast.toList).cons _).cons _).cons _).cons _ }

/-- Both calls hand over join parameters that fit, are initialised, and say what they should. -/
theorem joinParams_encoded (bits : ChanspecBits) (frequencyToChannel : ℕ → ℕ) (ssid : Ssid)
    (channel : Option Ieee80211Channel) :
    (∃ request, connectRequest bits frequencyToChannel ssid channel = some request ∧
      request.Encodes bits frequencyToChannel ⟨ssid.take 32, etherBcast, channel⟩) ∧
    (ssid.length ≤ 32 →
      ∃ request, ibssRequest bits frequencyToChannel ssid channel = some request ∧
        request.Encodes bits frequencyToChannel ⟨ssid, Vector.replicate 6 0, channel⟩) :=
  ⟨(fills_connect ssid channel).encodes, fun h ↦ (fills_ibss h channel).encodes⟩

/-- `WL_CHANSPEC_*` of the 802.11ac format. -/
def acBits : ChanspecBits where
  chanMask := 0x00ff
  bandMask := 0xc000
  bwMask := 0x3800
  band2G := 0
  band5G := 0xc000
  bw20 := 0x1000

theorem acBits_disjoint : acBits.Disjoint := by
  constructor <;> decide

/-- Channel 6 is found again in a connect request. -/
theorem joinParams_encoded_channel6 :
    acBits.Disjoint ∧ ∃ request,
      connectRequest acBits (fun freq ↦ (freq - 2407) / 5) [65, 80] (some ⟨2437, true⟩) =
        some request ∧
      request.size = 50 ∧
      ∀ stale, slice (fill request.stores stale) 4 2 = [65, 80] ∧
        (UInt16.ofNat (load16 (fill request.stores stale) 48) &&& 0x00ff).toNat = 6 := by
  obtain ⟨request, hrequest, hencodes⟩ :=
    (joinParams_encoded acBits (fun freq ↦ (freq - 2407) / 5) [65, 80] (some ⟨2437, true⟩)).1
  obtain ⟨hsize, -, hfields⟩ := hencodes.channel ⟨2437, true⟩ rfl
  exact ⟨acBits_disjoint, request, hrequest, hsize, fun stale ↦
    ⟨hencodes.ssid stale, (hfields acBits_disjoint (by decide) stale).1⟩⟩

/-! ## The calls hand these over -/

section Calls

variable {Device : Type*} (firmware : Firmware Device)

/-- What `wl_cfg80211_connect` asks the firmware to join is what its buffer says. -/
theorem joinBss_request (sme : ConnectParams) (ssid : Ssid) (world : World Device) :
    ∃ request params,
      connectRequest bits frequencyToChannel ssid sme.channel = some request ∧
      request.Encodes bits frequencyToChannel params ∧
      (joinBss firmware sme ssid world).2.requests =
        world.requests ++ [.setVar .wsecRestrict 1, .setSsid params] := by
  obtain ⟨request, hrequest, hencodes⟩ :=
    @Fills.encodes bits frequencyToChannel _ _ (fills_connect ssid sme.channel)
  refine ⟨request, _, hrequest, hencodes, ?_⟩
  unfold joinBss ifOk
  dsimp only
  split <;> exact List.append_assoc ..

end Calls

end BroadcomWl.Cfg80211.Join
