import BroadcomWl.Linux.MonitorLeak
import Mathlib.Algebra.BigOperators.Group.List.Basic

/-!
# The payload behind a monitor header

`wl_monitor` computes the length of the fresh buffer from the received one, for monitor type 3 in a
walk along the buffers chained to it, and copies the bytes later, in another walk. The length is
kept in a `uint`, so the two agree exactly when header and payload have fewer than 2^32 bytes
together.
-/

namespace BroadcomWl.Linux.MonitorFrame

open BroadcomWl.Memory

def d11PhyHdrLen : ℕ := 6

/-- A received packet: the data of its first buffer, and of those chained to it. -/
structure Received where
  data : List UInt8
  next : List (List UInt8)

/-- `skb->len` of a buffer. -/
def skbLen (data : List UInt8) : UInt32 := UInt32.ofNat data.length

/-- What is copied: the first buffer behind its PHY header, and the chained ones. -/
def Received.packet (oskb : Received) : Packet where
  frame i := oskb.data.getD (d11PhyHdrLen + i) 0
  frameLen := oskb.data.length - d11PhyHdrLen
  next := oskb.next

/-- `rtap_len` of monitor type 2. -/
def rtapLen2 (rxsts : WlRxsts) : ℕ :=
  if rxsts.phytype ≠ wlRxsPhyN then legacySize else htBrcm2Size

/-- The loop that adds up `amsdu_len`. -/
def amsduLen (chain : List (List UInt8)) : UInt32 :=
  chain.foldl (fun amsduLen data ↦ amsduLen + skbLen data) 0

/-- `len`, computed for `dev_alloc_skb`. -/
def allocLen (wl : WlInfo) (rxsts : WlRxsts) (oskb : Received) : UInt32 :=
  if wl.monitorType = 1 then
    UInt32.ofNat p80211msgSize + skbLen oskb.data - UInt32.ofNat d11PhyHdrLen
  else if wl.monitorType = 2 then
    UInt32.ofNat (rtapLen2 rxsts) + (skbLen oskb.data - UInt32.ofNat d11PhyHdrLen)
  else
    UInt32.ofNat (rtapLen3 rxsts) + (skbLen oskb.data - UInt32.ofNat d11PhyHdrLen) +
      amsduLen oskb.next

/-- The buffer with this length, and the stores of `wl_monitor` in it. -/
def emittedSkb (wifi : Wifi) (wl : WlInfo) (jiffies : ℕ) (rxsts : WlRxsts) (oskb : Received) :
    Option Skb :=
  (monitorSkb wifi wl jiffies rxsts oskb.packet).map fun skb ↦
    { skb with len := (allocLen wl rxsts oskb).toNat }

/-! ## What should be emitted -/

/-- The size of the chosen header. -/
def headerLen (wl : WlInfo) (rxsts : WlRxsts) : ℕ :=
  if wl.monitorType = 1 then p80211msgSize
  else if wl.monitorType = 2 then rtapLen2 rxsts
  else rtapLen3 rxsts

/-- The buffers that belong to the payload behind the first one. -/
def chained (wl : WlInfo) (oskb : Received) : List (List UInt8) :=
  if wl.monitorType = 3 then oskb.next else []

/-- The first buffer without its PHY header, and for type 3 all further ones. -/
def payload (wl : WlInfo) (oskb : Received) : List UInt8 :=
  oskb.data.drop d11PhyHdrLen ++ (chained wl oskb).flatten

/-- `msglen` of the prism header, `it_len` of a radiotap header. -/
def lengthField (wl : WlInfo) (buffer : ℕ → UInt8) : ℕ :=
  if wl.monitorType = 1 then load32 buffer 4 else load16 buffer 2

/-- A buffer is emitted that has the length of header and payload, with the payload behind the
header, no store outside, and a header that knows its own length. -/
def PayloadExact (wifi : Wifi) (wl : WlInfo) (jiffies : ℕ) (rxsts : WlRxsts) (oskb : Received) :
    Prop :=
  ∃ skb, emittedSkb wifi wl jiffies rxsts oskb = some skb ∧
    skb.len = headerLen wl rxsts + (payload wl oskb).length ∧
    (∀ stale, (skb.bytes stale).drop (headerLen wl rxsts) = payload wl oskb) ∧
    (∀ store ∈ skb.stores, store.span.Within skb.len) ∧
    ∀ stale, lengthField wl (fill skb.stores stale) = headerLen wl rxsts

/-! ## The length -/

theorem toNat_foldl_skbLen (chain : List (List UInt8)) (len : UInt32) :
    (chain.foldl (fun amsduLen data ↦ amsduLen + skbLen data) len).toNat =
      (len.toNat + chain.flatten.length) % 2 ^ 32 := by
  induction chain generalizing len with
  | nil => exact (Nat.mod_eq_of_lt len.toNat_lt).symm
  | cons data rest ih =>
    rw [List.foldl_cons, ih, UInt32.toNat_add, skbLen, UInt32.toNat_ofNat', List.flatten_cons,
      List.length_append]
    omega

/-- The length is right up to the width of the `uint`. -/
theorem toNat_allocLen {wl : WlInfo} (rxsts : WlRxsts) {oskb : Received}
    (htype : wl.monitorType = 1 ∨ wl.monitorType = 2 ∨ wl.monitorType = 3)
    (hdata : d11PhyHdrLen ≤ oskb.data.length) :
    (allocLen wl rxsts oskb).toNat =
      (headerLen wl rxsts + (payload wl oskb).length) % 2 ^ 32 := by
  have hphy : d11PhyHdrLen = 6 := rfl
  unfold allocLen headerLen payload chained
  rw [List.length_append, List.length_drop]
  rcases htype with htype | htype | htype
  · simp only [htype, reduceIte, Nat.reduceEqDiff, List.flatten_nil, List.length_nil,
      UInt32.toNat_add, UInt32.toNat_sub, UInt32.toNat_ofNat', skbLen]
    omega
  · simp only [htype, reduceIte, Nat.reduceEqDiff, List.flatten_nil, List.length_nil,
      UInt32.toNat_add, UInt32.toNat_sub, UInt32.toNat_ofNat', skbLen]
    omega
  · have hchain := toNat_foldl_skbLen oskb.next 0
    rw [UInt32.toNat_zero, Nat.zero_add] at hchain
    simp only [htype, reduceIte, Nat.reduceEqDiff, UInt32.toNat_add, UInt32.toNat_sub,
      UInt32.toNat_ofNat', skbLen, amsduLen] at hchain ⊢
    rw [hchain]
    omega

/-! ## The bytes -/

theorem bytes_packet (oskb : Received) :
    oskb.packet.bytes = oskb.data.drop d11PhyHdrLen := by
  refine List.ext_getElem? fun i ↦ ?_
  change ((List.range (oskb.data.length - d11PhyHdrLen)).map
    fun i ↦ oskb.data.getD (d11PhyHdrLen + i) 0)[i]? = _
  rw [List.getElem?_drop, List.getElem?_map]
  by_cases hi : i < oskb.data.length - d11PhyHdrLen
  · have hlt : d11PhyHdrLen + i < oskb.data.length := by omega
    rw [List.getElem?_range hi, Option.map_some, List.getD_eq_getElem?_getD,
      List.getElem?_eq_getElem hlt, Option.getD_some]
  · have hbehind : (List.range (oskb.data.length - d11PhyHdrLen))[i]? = none := by
      rw [List.getElem?_eq_none]
      rw [List.length_range]
      exact Nat.not_lt.mp hi
    rw [hbehind, Option.map_none, List.getElem?_eq_none (by omega)]

/-- Copies one behind the other leave the concatenation. -/
theorem holds_chainStores (offset : ℕ) (chain : List (List UInt8)) :
    Holds (chainStores offset chain) offset chain.flatten := by
  induction chain generalizing offset with
  | nil => exact fun i byte hbyte ↦ nomatch hbyte
  | cons data rest ih =>
    rw [List.flatten_cons]
    refine Holds.concat ?_ ((ih (offset + data.length)).cons ⟨offset, data⟩)
    have hrest : ∀ i, Covered (chainStores (offset + data.length) rest) i →
        offset + data.length ≤ i := fun i hi ↦ ((covered_chainStores _ _ _).mp hi).1
    exact (Holds.single offset data).append (Nat.le_refl _) hrest

theorem within_chainStores (offset : ℕ) (chain : List (List UInt8)) :
    ∀ store ∈ chainStores offset chain,
      store.span.Within (offset + chain.flatten.length) := by
  induction chain generalizing offset with
  | nil => exact fun store hstore ↦ nomatch hstore
  | cons data rest ih =>
    rw [chainStores, List.forall_mem_cons, List.flatten_cons, List.length_append]
    refine ⟨show offset + data.length ≤ _ by omega, fun store hstore ↦ ?_⟩
    have hrest := ih (offset + data.length) store hstore
    rwa [Nat.add_assoc] at hrest

/-- The bytes behind a header of some size. -/
theorem drop_bytes (stores : List Store) (size len : ℕ) (stale : ℕ → UInt8) :
    (Skb.bytes ⟨size + len, stores⟩ stale).drop size = slice (fill stores stale) size len := by
  have hbytes : Skb.bytes ⟨size + len, stores⟩ stale =
      slice (fill stores stale) 0 (size + len) := by
    unfold Skb.bytes slice
    simp only [Nat.zero_add]
  rw [hbytes, slice_add, List.drop_left' (length_slice ..), Nat.zero_add]

/-! ## The headers -/

/-- The stores of the chosen header. -/
def headerStores (wifi : Wifi) (wl : WlInfo) (jiffies : ℕ) (rxsts : WlRxsts) (fc : UInt16) :
    List Store :=
  if wl.monitorType = 1 then prismStores wl.devName jiffies rxsts
  else if wl.monitorType = 2 then (rtap2 wifi rxsts fc).2
  else rtap3 wifi rxsts fc

/-- Header and payload, one behind the other. -/
theorem emittedSkb_eq {wifi : Wifi} {wl : WlInfo} {jiffies : ℕ} {rxsts : WlRxsts}
    {oskb : Received} (hdev : wl.monitorDev = true)
    (htype : wl.monitorType = 1 ∨ wl.monitorType = 2 ∨ wl.monitorType = 3) :
    emittedSkb wifi wl jiffies rxsts oskb = some
      { len := (allocLen wl rxsts oskb).toNat
        stores := headerStores wifi wl jiffies rxsts oskb.packet.fc ++
          chainStores (headerLen wl rxsts) (oskb.data.drop d11PhyHdrLen :: chained wl oskb) } := by
  have hframe : oskb.packet.frameLen = (oskb.data.drop d11PhyHdrLen).length :=
    List.length_drop.symm
  have hnext : oskb.packet.next = oskb.next := rfl
  unfold emittedSkb monitorSkb headerStores headerLen chained
  rw [hdev]
  rcases htype with htype | htype | htype
  · simp only [htype, reduceIte, Nat.reduceEqDiff, Bool.not_true, Bool.false_eq_true,
      headerAndFrame, bytes_packet, chainStores, Option.map_some]
  · have hsize : (rtap2 wifi rxsts oskb.packet.fc).1 = rtapLen2 rxsts := by
      unfold rtap2 rtapLen2
      split <;> rfl
    simp only [htype, reduceIte, Nat.reduceEqDiff, Bool.not_true, Bool.false_eq_true,
      headerAndFrame, bytes_packet, chainStores, Option.map_some, hsize]
  · simp only [htype, reduceIte, Nat.reduceEqDiff, Bool.not_true, Bool.false_eq_true,
      bytes_packet, chainStores, Option.map_some, hframe, hnext, List.append_assoc,
      List.singleton_append]

/-- A header that lies in its size and holds it in its length field. -/
structure HeaderOk (wl : WlInfo) (size : ℕ) (stores : List Store) : Prop where
  within : ∀ store ∈ stores, store.span.Within size
  lengthField : ∀ rest, (∀ i, Covered rest i → size ≤ i) →
    ∀ stale, lengthField wl (fill (stores ++ rest) stale) = size

theorem within_of_spans {size : ℕ} {stores : List Store} {ranges : List Range}
    (hspans : stores.map Store.span = ranges) (h : ∀ range ∈ ranges, range.Within size) :
    ∀ store ∈ stores, store.span.Within size := by
  intro store hstore
  refine h _ ?_
  rw [← hspans]
  exact List.mem_map_of_mem hstore

/-- Radiotap headers start alike. -/
theorem headerOk_of_radiotap {wl : WlInfo} {size : ℕ} {stores : List Store}
    (htype : wl.monitorType ≠ 1) (hwithin : ∀ store ∈ stores, store.span.Within size)
    (hlen : Holds stores 2 (le16 size)) (hfour : 4 ≤ size) (hsize : size < 65536) :
    HeaderOk wl size stores where
  within := hwithin
  lengthField rest hrest stale := by
    have hholds : Holds (stores ++ rest) 2 (le16 size ++ []) := hlen.append hfour hrest
    rw [lengthField, if_neg htype, hholds.load16, Nat.mod_eq_of_lt hsize]

theorem item_within (item : Item) (status data : ℕ) :
    ∀ store ∈ item.stores status data, store.span.Within p80211msgSize := by
  have hspans : (item.stores status data).map Store.span =
      [⟨item.offset, 4⟩, ⟨item.offset + 4, 2⟩, ⟨item.offset + 6, 2⟩, ⟨item.offset + 8, 4⟩] := rfl
  refine within_of_spans hspans ?_
  cases item <;> decide

/-- The items lie behind the name of the device. -/
theorem le_of_covered_item {item : Item} {status data i : ℕ}
    (h : Covered (item.stores status data) i) : 24 ≤ i := by
  obtain ⟨range, hrange, hcovers⟩ := covered_iff_spans.mp h
  have hspans : (item.stores status data).map Store.span =
      [⟨item.offset, 4⟩, ⟨item.offset + 4, 2⟩, ⟨item.offset + 6, 2⟩, ⟨item.offset + 8, 4⟩] := rfl
  have hoffset : ∀ range ∈ [(⟨item.offset, 4⟩ : Range), ⟨item.offset + 4, 2⟩,
      ⟨item.offset + 6, 2⟩, ⟨item.offset + 8, 4⟩], 24 ≤ range.offset := by
    cases item <;> decide
  exact (hoffset range (hspans ▸ hrange)).trans hcovers.1

/-- Everything behind `msglen` leaves it alone. -/
theorem holds_msglen (devName : List UInt8) (jiffies : ℕ) (rxsts : WlRxsts) :
    Holds (prismStores devName jiffies rxsts) 4 (le32 p80211msgSize) := by
  have hitem : ∀ {stores} item status data, Holds stores 4 (le32 p80211msgSize) →
      Holds (stores ++ Item.stores item status data) 4 (le32 p80211msgSize) :=
    fun item status data h ↦ h.append (show 4 + 4 ≤ 24 by decide) fun _ ↦ le_of_covered_item
  have hlen : Holds [⟨0, le32 wlMonFrame⟩, ⟨4, le32 p80211msgSize⟩] 4 (le32 p80211msgSize) :=
    (Holds.single 4 (le32 p80211msgSize)).cons _
  have hhead : Holds ([⟨0, le32 wlMonFrame⟩, ⟨4, le32 p80211msgSize⟩] ++ [strcpy 8 devName]) 4
      (le32 p80211msgSize) :=
    hlen.append (show 4 + 4 ≤ 8 by decide) fun i hi ↦ (covered_singleton.mp hi).1
  unfold prismStores
  iterate 10 apply hitem
  exact hhead

/-- The kernel ends the name of a device inside its 16 bytes. -/
theorem headerOk_prism {wl : WlInfo} (htype : wl.monitorType = 1)
    (hname : wl.devName.length < dnamelen) (jiffies : ℕ) (rxsts : WlRxsts) :
    HeaderOk wl p80211msgSize (prismStores wl.devName jiffies rxsts) where
  within := by
    have hhead : ∀ store ∈ [(⟨0, le32 wlMonFrame⟩ : Store), ⟨4, le32 p80211msgSize⟩,
        strcpy 8 wl.devName], store.span.Within p80211msgSize := by
      have hstrcpy : (strcpy 8 wl.devName).span.Within p80211msgSize := by
        change 8 + (wl.devName ++ [0]).length ≤ 144
        rw [List.length_append, List.length_singleton]
        unfold dnamelen at hname
        omega
      simp only [List.forall_mem_cons, List.not_mem_nil, false_implies, implies_true, and_true]
      exact ⟨by decide, by decide, hstrcpy⟩
    unfold prismStores
    simp only [List.forall_mem_append]
    exact ⟨⟨⟨⟨⟨⟨⟨⟨⟨⟨hhead, item_within _ _ _⟩, item_within _ _ _⟩, item_within _ _ _⟩,
      item_within _ _ _⟩, item_within _ _ _⟩, item_within _ _ _⟩, item_within _ _ _⟩,
      item_within _ _ _⟩, item_within _ _ _⟩, item_within _ _ _⟩
  lengthField rest hrest stale := by
    have hlen := holds_msglen wl.devName jiffies rxsts
    have hholds : Holds (prismStores wl.devName jiffies rxsts ++ rest) 4
        (le32 p80211msgSize ++ []) := hlen.append (show 4 + 4 ≤ 144 by decide) hrest
    rw [lengthField, if_pos htype, hholds.load32]
    rfl

theorem headerOk (wifi : Wifi) {wl : WlInfo} (jiffies : ℕ) (rxsts : WlRxsts) (fc : UInt16)
    (htype : wl.monitorType = 1 ∨ wl.monitorType = 2 ∨ wl.monitorType = 3)
    (hname : wl.devName.length < dnamelen) :
    HeaderOk wl (headerLen wl rxsts) (headerStores wifi wl jiffies rxsts fc) := by
  unfold headerLen headerStores
  rcases htype with htype | htype | htype
  · rw [if_pos htype, if_pos htype]
    exact headerOk_prism htype hname jiffies rxsts
  · have hradiotap : wl.monitorType ≠ 1 := by omega
    rw [if_neg hradiotap, if_neg hradiotap, if_pos htype, if_pos htype, rtapLen2, rtap2]
    split
    next =>
      exact headerOk_of_radiotap hradiotap
        (within_of_spans (legacy2_spans wifi rxsts fc) (by decide)) (Holds.of_map rfl)
        (by decide) (by decide)
    next =>
      exact headerOk_of_radiotap hradiotap
        (within_of_spans (htBrcm2_spans wifi rxsts fc) (by decide)) (Holds.of_map rfl)
        (by decide) (by decide)
  · have hradiotap : wl.monitorType ≠ 1 := by omega
    have hthree : wl.monitorType ≠ 2 := by omega
    rw [if_neg hradiotap, if_neg hradiotap, if_neg hthree, if_neg hthree]
    -- the size is chosen before the buffer is allocated, the header behind that
    rcases rtap3_eq wifi rxsts fc with ⟨-, -, hlen, hstores⟩ | ⟨-, -, hlen, hstores⟩ |
      ⟨-, hlen, hstores⟩
    · rw [hlen, hstores]
      exact headerOk_of_radiotap hradiotap
        (within_of_spans (ht_spans wifi rxsts fc) (by decide)) (Holds.of_map rfl)
        (by decide) (by decide)
    · rw [hlen, hstores]
      exact headerOk_of_radiotap hradiotap
        (within_of_spans (vht_spans wifi rxsts fc) (by decide)) (Holds.of_map rfl)
        (by decide) (by decide)
    · rw [hlen, hstores]
      have hspans := legacy3_spans wifi rxsts fc
      rw [legacy2_spans] at hspans
      exact headerOk_of_radiotap hradiotap (within_of_spans hspans (by decide))
        (Holds.of_map rfl) (by decide) (by decide)

/-! ## Every monitor type -/

/-- With a device, a first buffer that holds a frame control field, and a name that fits its
field, the payload is exact if and only if its length together with the header's fits the `uint`. -/
theorem payloadExact_iff (wifi : Wifi) {wl : WlInfo} (jiffies : ℕ) (rxsts : WlRxsts)
    {oskb : Received} (hdev : wl.monitorDev = true)
    (htype : wl.monitorType = 1 ∨ wl.monitorType = 2 ∨ wl.monitorType = 3)
    (hname : wl.devName.length < dnamelen) (hdata : d11PhyHdrLen + 2 ≤ oskb.data.length) :
    PayloadExact wifi wl jiffies rxsts oskb ↔
      headerLen wl rxsts + (payload wl oskb).length < 2 ^ 32 := by
  have hlen := toNat_allocLen rxsts htype (Nat.le_of_add_right_le hdata)
  have hskb := @emittedSkb_eq wifi wl jiffies rxsts oskb hdev htype
  constructor
  · rintro ⟨skb, hemitted, htotal, -⟩
    obtain rfl := Option.some.inj (hskb.symm.trans hemitted)
    rw [← htotal]
    exact (allocLen wl rxsts oskb).toNat_lt
  · intro hfits
    rw [Nat.mod_eq_of_lt hfits] at hlen
    have hheader := headerOk wifi jiffies rxsts oskb.packet.fc htype hname
    have hflatten : (oskb.data.drop d11PhyHdrLen :: chained wl oskb).flatten = payload wl oskb :=
      List.flatten_cons
    have hpayload := holds_chainStores (headerLen wl rxsts)
      (oskb.data.drop d11PhyHdrLen :: chained wl oskb)
    have hinside := within_chainStores (headerLen wl rxsts)
      (oskb.data.drop d11PhyHdrLen :: chained wl oskb)
    rw [hflatten] at hpayload hinside
    refine ⟨_, hskb, hlen, fun stale ↦ ?_, fun store hstore ↦ ?_, fun stale ↦ ?_⟩
    · rw [hlen, drop_bytes]
      exact (hpayload.prepend _).slice stale
    · dsimp only at hstore ⊢
      rw [hlen]
      rcases List.mem_append.mp hstore with hstore | hstore
      · exact (hheader.within store hstore).trans (Nat.le_add_right ..)
      · exact hinside store hstore
    · exact hheader.lengthField _ (fun i hi ↦ ((covered_chainStores _ _ _).mp hi).1) stale

/-- A frame with one chained buffer on a type 3 monitor. -/
theorem payloadExact_chained :
    PayloadExact channelOne ⟨true, 3, [119, 108]⟩ 0 legacyRxsts
      ⟨[0, 0, 0, 0, 0, 0, 8, 1, 7], [[5, 6]]⟩ :=
  (payloadExact_iff channelOne 0 legacyRxsts rfl (by decide) (by decide) (by decide)).mpr
    (by decide)

end BroadcomWl.Linux.MonitorFrame
