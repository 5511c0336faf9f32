import BroadcomWl.Systems.Machine
import BroadcomWl.Wext.ScanEvents

/-!
# Lists of addresses with their qualities

`wl_iw_get_aplist` and `wl_iw_get_spy` answer with a list of addresses, each in a `struct sockaddr`
of which only the family and six bytes are filled, and behind the last address with a list of
qualities. The one lists the access points of the scan results, the other the addresses that
`wl_iw_set_spy` has stored; nothing else in the driver changes those.

The module reads both answers back, and says which bytes of them are left as they were in the
buffer.
-/

namespace BroadcomWl.Wext.AddressLists

open BroadcomWl.Memory BroadcomWl.Systems
open BroadcomWl.Cfg80211.ScanResults (bssidAt bssInfoAt)
open BroadcomWl.Wext.Iw (Buffer Platform WlIw apLoop apStores capability nextBss
  listCount dot11CapEss iwMaxAp iwMaxSpy sockaddrSize saDataAt iwQualitySize wlIwGetAplist)
open BroadcomWl.Wext.ScanEvents (rssi phyNoise rssiToQual arphrdEther)

/-! ## The layout -/

/-- What the answer has for one address. -/
structure Entry where
  address : List UInt8
  length_address : address.length = 6
  quality : List UInt8
  length_quality : quality.length = 4

/-- The addresses, the first of them at an index of the array. -/
def addressStores (family : ℕ) : ℕ → List Entry → List Store
  | _, [] => []
  | i, entry :: entries =>
      ⟨sockaddrSize * i + saDataAt, entry.address⟩ :: ⟨sockaddrSize * i, le16 family⟩ ::
        addressStores family (i + 1) entries

/-- The qualities, from an offset on. -/
def qualityStores (offset : ℕ) : List Entry → List Store
  | [] => []
  | entry :: entries =>
      ⟨offset, entry.quality⟩ :: qualityStores (offset + iwQualitySize) entries

/-- What a program finds in an answer of this length. -/
def readList (length : ℕ) (buffer : ℕ → UInt8) : List (List UInt8 × List UInt8) :=
  (List.range length).map fun i ↦ (slice buffer (sockaddrSize * i + saDataAt) 6,
    slice buffer (sockaddrSize * length + iwQualitySize * i) iwQualitySize)

/-- The last eight bytes of an address. -/
def InPadding (length i : ℕ) : Prop := i < sockaddrSize * length ∧ 8 ≤ i % sockaddrSize

section Layout

variable {family : ℕ} {entries : List Entry} {stores : List Store}

theorem mem_addressStores {start : ℕ} {store : Store}
    (h : store ∈ addressStores family start entries) :
    sockaddrSize * start ≤ store.offset ∧
      store.offset + store.bytes.length ≤ sockaddrSize * (start + entries.length) := by
  induction entries generalizing start with
  | nil => cases h
  | cons entry entries ih =>
    have haddress := entry.length_address
    unfold sockaddrSize at ih ⊢
    rw [List.length_cons]
    rcases List.mem_cons.mp h with rfl | h
    · dsimp only [sockaddrSize, saDataAt]
      omega
    · rcases List.mem_cons.mp h with rfl | h
      · dsimp only [sockaddrSize, le16, List.length_cons, List.length_nil]
        omega
      · obtain ⟨hfirst, hlast⟩ := ih h
        omega

theorem mem_qualityStores {offset : ℕ} {store : Store} (h : store ∈ qualityStores offset entries) :
    offset ≤ store.offset ∧
      store.offset + store.bytes.length ≤ offset + iwQualitySize * entries.length := by
  induction entries generalizing offset with
  | nil => cases h
  | cons entry entries ih =>
    have hquality := entry.length_quality
    unfold iwQualitySize at ih ⊢
    rw [List.length_cons]
    rcases List.mem_cons.mp h with rfl | h
    · dsimp only
      omega
    · obtain ⟨hfirst, hlast⟩ := ih h
      unfold iwQualitySize at hfirst hlast
      omega

theorem pairwise_addressStores (family start : ℕ) (entries : List Entry) :
    (addressStores family start entries).Pairwise Store.Disjoint := by
  induction entries generalizing start with
  | nil => exact List.Pairwise.nil
  | cons entry entries ih =>
    have haddress := entry.length_address
    refine List.pairwise_cons.mpr ⟨fun store hstore ↦ ?_,
      List.pairwise_cons.mpr ⟨fun store hstore ↦ ?_, ih (start + 1)⟩⟩
    · rcases List.mem_cons.mp hstore with rfl | hstore
      · exact .inr (Nat.le_refl (sockaddrSize * start + 2))
      · left
        have hbound := (mem_addressStores hstore).1
        dsimp only [sockaddrSize, saDataAt] at hbound ⊢
        omega
    · left
      have hbound := (mem_addressStores hstore).1
      dsimp only [sockaddrSize, le16, List.length_cons, List.length_nil] at hbound ⊢
      omega

theorem pairwise_qualityStores (offset : ℕ) (entries : List Entry) :
    (qualityStores offset entries).Pairwise Store.Disjoint := by
  induction entries generalizing offset with
  | nil => exact List.Pairwise.nil
  | cons entry entries ih =>
    refine List.pairwise_cons.mpr ⟨fun store hstore ↦ .inl ?_, ih _⟩
    have hbound := (mem_qualityStores hstore).1
    rwa [entry.length_quality]

theorem address_mem {start i : ℕ} {entry : Entry} (h : entries[i]? = some entry) :
    ⟨sockaddrSize * (start + i) + saDataAt, entry.address⟩ ∈
      addressStores family start entries := by
  induction entries generalizing start i with
  | nil => cases h
  | cons first entries ih =>
    cases i with
    | zero =>
      cases h
      exact List.mem_cons_self
    | succ i =>
      rw [Nat.add_comm i 1, ← Nat.add_assoc]
      exact List.mem_cons_of_mem _ (List.mem_cons_of_mem _ (ih h))

theorem quality_mem {offset i : ℕ} {entry : Entry} (h : entries[i]? = some entry) :
    ⟨offset + iwQualitySize * i, entry.quality⟩ ∈ qualityStores offset entries := by
  induction entries generalizing offset i with
  | nil => cases h
  | cons first entries ih =>
    cases i with
    | zero =>
      cases h
      exact List.mem_cons_self
    | succ i =>
      rw [Nat.mul_succ, Nat.add_comm (iwQualitySize * i), ← Nat.add_assoc]
      exact List.mem_cons_of_mem _ (ih h)

theorem covered_addressStores {start i : ℕ} :
    Covered (addressStores family start entries) i ↔
      sockaddrSize * start ≤ i ∧ i < sockaddrSize * (start + entries.length) ∧
        i % sockaddrSize < 8 := by
  unfold sockaddrSize
  induction entries generalizing start with
  | nil =>
    refine iff_of_false (not_covered_nil i) ?_
    rw [List.length_nil]
    omega
  | cons entry entries ih =>
    have haddress := entry.length_address
    rw [addressStores, covered_cons, covered_cons, ih, List.length_cons]
    dsimp only [Range.Covers, Store.span, sockaddrSize, saDataAt, le16, List.length_cons,
      List.length_nil]
    omega

/-- The addresses and the qualities of a list are held. -/
def HoldsList (stores : List Store) (entries : List Entry) : Prop :=
  ∀ i entry, entries[i]? = some entry →
    Holds stores (sockaddrSize * i + saDataAt) entry.address ∧
      Holds stores (sockaddrSize * entries.length + iwQualitySize * i) entry.quality

theorem HoldsList.readList (h : HoldsList stores entries) (buffer : ℕ → UInt8) :
    readList entries.length (fill stores buffer) =
      entries.map fun entry ↦ (entry.address, entry.quality) := by
  refine List.ext_getElem (by simp [AddressLists.readList]) fun i hi hi' ↦ ?_
  have hentry : i < entries.length := by simpa using hi'
  obtain ⟨haddress, hquality⟩ := h i entries[i] (List.getElem?_eq_getElem hentry)
  have hread := haddress.slice buffer
  have hread' := hquality.slice buffer
  rw [entries[i].length_address] at hread
  rw [entries[i].length_quality] at hread'
  simp only [AddressLists.readList, List.getElem_map, List.getElem_range]
  rw [hread, ← hread']
  rfl

/-- Qualities that are copied as one block. -/
theorem holds_quality_of_block {offset i : ℕ} {entry : Entry}
    (h : Holds stores offset (entries.flatMap Entry.quality)) (hentry : entries[i]? = some entry) :
    Holds stores (offset + iwQualitySize * i) entry.quality := by
  induction entries generalizing offset i with
  | nil => cases hentry
  | cons first entries ih =>
    rw [List.flatMap_cons] at h
    cases i with
    | zero =>
      cases hentry
      exact h.left
    | succ i =>
      have hrest := h.drop
      rw [first.length_quality] at hrest
      rw [Nat.mul_succ, Nat.add_comm (iwQualitySize * i), ← Nat.add_assoc]
      exact ih hrest hentry

theorem length_flatMap_quality (entries : List Entry) :
    (entries.flatMap Entry.quality).length = iwQualitySize * entries.length := by
  induction entries with
  | nil => rfl
  | cons first entries ih =>
    rw [List.flatMap_cons, List.length_append, first.length_quality, ih, List.length_cons,
      Nat.mul_succ, Nat.add_comm]
    rfl

end Layout

/-! ## The access points -/

def iwQualAllUpdated : UInt8 := 0x07
def iwQualDbm : UInt8 := 0x08

section AccessPoints

variable (memory : ℕ → UInt8)

/-- The address of an access point and its quality. -/
def apEntry (bi : ℕ) : Entry where
  address := slice memory (bi + bssidAt) 6
  length_address := length_slice ..
  quality := [rssiToQual (rssi memory bi), (0x100 + rssi memory bi).toUInt32.toUInt8,
    (0x100 + phyNoise memory bi).toUInt32.toUInt8, iwQualAllUpdated ||| iwQualDbm]
  length_quality := rfl

/-- The loop of `wl_iw_get_aplist`: what is stored in the buffer, and the array `qual` with the
addresses it is for. -/
def apContents : ℕ → ℕ → ℕ → List Store × List Entry
  | 0, _, _ => ([], [])
  | count + 1, bi, length =>
      if length < iwMaxAp then
        if capability memory bi &&& dot11CapEss = 0 then
          apContents count (nextBss memory bi) length
        else
          let entry := apEntry memory bi
          let (stores, entries) := apContents count (nextBss memory bi) (length + 1)
          (⟨sockaddrSize * length + saDataAt, entry.address⟩ ::
            ⟨sockaddrSize * length, le16 arphrdEther⟩ :: stores, entry :: entries)
      else ([], [])

/-- What `wl_iw_get_aplist` stores in the buffer. -/
def apListStores : List Store :=
  let (stores, entries) := apContents memory (listCount memory) bssInfoAt 0
  if entries.length = 0 then stores
  else stores ++ [⟨sockaddrSize * entries.length, entries.flatMap Entry.quality⟩]

/-- The records of the scan results, from one on. -/
def records : ℕ → ℕ → List ℕ
  | 0, _ => []
  | count + 1, bi => bi :: records count (nextBss memory bi)

/-- The access points among them, as many as the answer has room for. -/
def accessPoints (count bi room : ℕ) : List Entry :=
  (((records memory count bi).filter fun bi ↦ capability memory bi &&& dot11CapEss != 0).take
    room).map (apEntry memory)

variable {memory}

theorem apContents_eq (count bi : ℕ) {length : ℕ} (hlength : length ≤ iwMaxAp) :
    apContents memory count bi length =
      (addressStores arphrdEther length (accessPoints memory count bi (iwMaxAp - length)),
        accessPoints memory count bi (iwMaxAp - length)) := by
  induction count generalizing bi length with
  | zero => simp [apContents, accessPoints, records, addressStores]
  | succ count ih =>
    rw [apContents]
    by_cases hroom : length < iwMaxAp
    · rw [if_pos hroom]
      by_cases hess : capability memory bi &&& dot11CapEss = 0
      · rw [if_pos hess, ih _ hlength, accessPoints, accessPoints, records,
          List.filter_cons_of_neg (by simp [hess])]
      · have hsucc : iwMaxAp - length = iwMaxAp - (length + 1) + 1 := by omega
        rw [if_neg hess, ih _ hroom, hsucc, accessPoints, accessPoints, records,
          List.filter_cons_of_pos (by simpa using hess), List.take_succ_cons, List.map_cons]
        rfl
    · have hfull : iwMaxAp - length = 0 := by omega
      rw [if_neg hroom, hfull, accessPoints, List.take_zero]
      rfl

/-- The bytes are where the handler stores. -/
theorem apLoop_eq (count bi length : ℕ) :
    apLoop memory count bi length =
      (length + (apContents memory count bi length).2.length,
        (apContents memory count bi length).1.map fun store ↦ .store .extra store.span) := by
  induction count generalizing bi length with
  | zero => rfl
  | succ count ih =>
    rw [apLoop, apContents]
    split
    · split
      · exact ih _ length
      · rw [ih]
        simp only [List.length_cons, List.map_cons, apStores, Store.span]
        rw [(apEntry memory bi).length_address]
        exact Prod.ext (by omega) rfl
    · rfl

theorem length_accessPoints_le (count bi room : ℕ) :
    (accessPoints memory count bi room).length ≤ room := by
  rw [accessPoints, List.length_map]
  exact List.length_take_le ..

theorem apListStores_eq :
    apListStores memory =
      let entries := accessPoints memory (listCount memory) bssInfoAt iwMaxAp
      addressStores arphrdEther 0 entries ++
        if entries.length = 0 then []
        else [⟨sockaddrSize * entries.length, entries.flatMap Entry.quality⟩] := by
  unfold apListStores
  rw [apContents_eq _ _ (Nat.zero_le _)]
  dsimp only
  rw [Nat.sub_zero]
  split
  · exact (List.append_nil _).symm
  · rfl

theorem holdsList_apListStores :
    HoldsList (apListStores memory)
      (accessPoints memory (listCount memory) bssInfoAt iwMaxAp) := by
  rw [apListStores_eq]
  dsimp only
  generalize accessPoints memory (listCount memory) bssInfoAt iwMaxAp = entries
  intro i entry hentry
  have hlt := (List.getElem?_eq_some_iff.mp hentry).1
  have hmem := @address_mem arphrdEther entries 0 i entry hentry
  rw [Nat.zero_add] at hmem
  rw [if_neg (by omega)]
  constructor
  · have hbound := (mem_addressStores hmem).2
    rw [Nat.zero_add] at hbound
    refine (Holds.of_pairwise (pairwise_addressStores ..) hmem).append hbound fun j hj ↦ ?_
    rw [covered_singleton] at hj
    exact hj.1
  · have hblock := Holds.single (sockaddrSize * entries.length) (entries.flatMap Entry.quality)
    exact holds_quality_of_block (hblock.prepend _) hentry

theorem covered_apListStores (i : ℕ) :
    let length := (accessPoints memory (listCount memory) bssInfoAt iwMaxAp).length
    i < (sockaddrSize + iwQualitySize) * length →
      (Covered (apListStores memory) i ↔ ¬InPadding length i) := by
  rw [apListStores_eq]
  dsimp only
  generalize accessPoints memory (listCount memory) bssInfoAt iwMaxAp = entries
  intro hi
  unfold InPadding
  by_cases hempty : entries.length = 0
  · rw [hempty] at hi
    cases hi
  · rw [if_neg hempty, covered_append, covered_addressStores, covered_singleton, Range.Covers,
      Store.span]
    dsimp only
    rw [length_flatMap_quality]
    unfold sockaddrSize iwQualitySize at *
    omega

/-- Whatever the scan results and the buffer hold, a program that reads the answer of
`wl_iw_get_aplist` finds the access points of the scan in order, the first 64 of them, each with its
own quality. The bytes of the answer that are still those of the buffer are the last eight of each
address. -/
theorem aplist_read_back (platform : Platform) (iw : WlIw) (dwrq : IwPoint)
    (extra : ℕ → UInt8) (hkmalloc : platform.kmalloc = true)
    (hresults : (platform.firmware .scanResults).error = 0) :
    let memory := (platform.firmware .scanResults).reply
    let length := (wlIwGetAplist platform iw dwrq (some extra)).dwrq.length.toNat
    readList length (fill (apListStores memory) extra) =
        (accessPoints memory (listCount memory) bssInfoAt iwMaxAp).map
          (fun entry ↦ (entry.address, entry.quality)) ∧
      ∀ i < (sockaddrSize + iwQualitySize) * length,
        (∀ extra extra' : ℕ → UInt8,
          fill (apListStores memory) extra i = fill (apListStores memory) extra' i) ↔
          ¬InPadding length i := by
  dsimp only
  generalize hmemory : (platform.firmware .scanResults).reply = memory
  have hle := @length_accessPoints_le memory (listCount memory) bssInfoAt iwMaxAp
  have hlength : (wlIwGetAplist platform iw dwrq (some extra)).dwrq.length.toNat =
      (accessPoints memory (listCount memory) bssInfoAt iwMaxAp).length := by
    have hloop := @apLoop_eq memory (listCount memory) bssInfoAt 0
    rw [apContents_eq _ _ (Nat.zero_le _), Nat.zero_add, Nat.sub_zero] at hloop
    unfold wlIwGetAplist
    rw [if_neg (by simp), if_neg (by simp [hkmalloc])]
    dsimp only
    rw [if_neg (not_not.mpr hresults), hmemory, hloop]
    dsimp only
    split
    next hempty => exact hempty.symm
    next => exact Iw.toNat_ofNat (hle.trans_lt (by decide))
  rw [hlength]
  refine ⟨holdsList_apListStores.readList extra, fun i hi ↦ ?_⟩
  rw [fill_independent_iff]
  exact covered_apListStores i hi

/-- The results of a scan that has found one access point, with zeros but for its capability. -/
def oneAp (i : ℕ) : UInt8 := if i = 8 ∨ i = bssInfoAt + 16 then 1 else 0

def oneApPlatform : Platform where
  __ := Iw.silentPlatform
  firmware call := ⟨0, if call = .scanResults then oneAp else fun _ ↦ 0⟩

theorem aplist_read_back_one :
    let length := (wlIwGetAplist oneApPlatform
      ⟨List.replicate 32 0, rfl, by decide, 0, by decide⟩ ⟨500, 0⟩ (some fun _ ↦ 0)).dwrq.length
    readList length.toNat (fill (apListStores oneAp) fun _ ↦ 0) =
      (accessPoints oneAp (listCount oneAp) bssInfoAt iwMaxAp).map
        fun entry ↦ (entry.address, entry.quality) :=
  (aplist_read_back oneApPlatform ⟨List.replicate 32 0, rfl, by decide, 0, by decide⟩ ⟨500, 0⟩
    (fun _ ↦ 0) rfl rfl).1

end AccessPoints

/-! ## Spy -/

def afUnix : ℕ := 1

/-- The filled part of `spy_addr` and `spy_qual`. -/
structure Spy where
  entries : List Entry
  length_le : entries.length ≤ iwMaxSpy

/-- An address of the request, with a quality of zero. -/
def unheard (extra : ℕ → UInt8) (i : ℕ) : Entry where
  address := slice extra (sockaddrSize * i + saDataAt) 6
  length_address := length_slice ..
  quality := [0, 0, 0, 0]
  length_quality := rfl

/-- `wl_iw_set_spy`, with the length of the request. -/
def wlIwSetSpy (length : UInt16) (extra : ℕ → UInt8) : Spy where
  entries := (List.range (min iwMaxSpy length.toNat)).map (unheard extra)
  length_le := by
    rw [List.length_map, List.length_range]
    exact Nat.min_le_left ..

/-- The loop of `wl_iw_get_spy`, when the array has this many addresses. -/
def spyStores (num : ℕ) : ℕ → List Entry → List Store
  | _, [] => []
  | i, entry :: entries =>
      ⟨sockaddrSize * i + saDataAt, entry.address⟩ :: ⟨sockaddrSize * i, le16 afUnix⟩ ::
        ⟨sockaddrSize * num + iwQualitySize * i, entry.quality⟩ :: spyStores num (i + 1) entries

/-- `spy_qual[i].updated = 0`. -/
def Entry.clearUpdated (entry : Entry) : Entry where
  address := entry.address
  length_address := entry.length_address
  quality := entry.quality.set 3 0
  length_quality := by rw [List.length_set, entry.length_quality]

/-- `wl_iw_get_spy`: the length of the answer, what is stored in the buffer, and the arrays after
it. -/
def wlIwGetSpy (spy : Spy) : ℕ × List Store × Spy :=
  (spy.entries.length, spyStores spy.entries.length 0 spy.entries,
    { entries := spy.entries.map Entry.clearUpdated
      length_le := by
        rw [List.length_map]
        exact spy.length_le })

/-- Requests; `none` is one without a buffer, which is refused. -/
inductive Label where
  | set (length : UInt16) (extra : Option (ℕ → UInt8))
  | get (extra : Option (ℕ → UInt8))

def step (spy : Spy) : Label → Spy
  | .set length (some extra) => wlIwSetSpy length extra
  | .get (some _) => (wlIwGetSpy spy).2.2
  | .set _ none | .get none => spy

/-- A device whose `wl_iw_t` was just cleared. -/
def driver : Machine Spy Label where
  initial spy := spy.entries = []
  step spy label := some (step spy label)

/-- The addresses that a request asks for; there is room for eight. -/
def Label.asks : Label → Option (List (List UInt8))
  | .set length (some extra) =>
      some ((List.range (min iwMaxSpy length.toNat)).map fun i ↦
        slice extra (sockaddrSize * i + saDataAt) 6)
  | _ => none

/-- The addresses of the last request that had any. -/
def lastAsked (labels : List Label) : List (List UInt8) :=
  ((labels.filterMap Label.asks).getLast?).getD []

section Spying

/-- The loop stores what it would store address by address and then quality by quality. -/
theorem perm_spyStores (num start : ℕ) (entries : List Entry) :
    (spyStores num start entries).Perm (addressStores afUnix start entries ++
      qualityStores (sockaddrSize * num + iwQualitySize * start) entries) := by
  induction entries generalizing start with
  | nil => exact .refl _
  | cons entry entries ih =>
    rw [spyStores, addressStores, qualityStores, List.cons_append, List.cons_append, Nat.add_assoc,
      ← Nat.mul_succ]
    refine ((ih (start + 1)).cons _).trans ?_ |>.cons _ |>.cons _
    exact List.perm_middle.symm

theorem pairwise_spyStores (entries : List Entry) :
    (spyStores entries.length 0 entries).Pairwise Store.Disjoint := by
  have hsymm : ∀ {first second : Store}, first.Disjoint second → second.Disjoint first := Or.symm
  rw [(perm_spyStores ..).pairwise_iff hsymm, List.pairwise_append]
  refine ⟨pairwise_addressStores .., pairwise_qualityStores ..,
    fun first hfirst second hsecond ↦ ?_⟩
  have hbound := (mem_addressStores hfirst).2
  rw [Nat.zero_add] at hbound
  exact .inl (hbound.trans (mem_qualityStores hsecond).1)

theorem holdsList_spyStores (entries : List Entry) :
    HoldsList (spyStores entries.length 0 entries) entries := by
  intro i entry hentry
  have haddress := @address_mem afUnix entries 0 i entry hentry
  have hquality := @quality_mem entries (sockaddrSize * entries.length + iwQualitySize * 0) i entry
    hentry
  rw [Nat.zero_add] at haddress
  have hperm := perm_spyStores entries.length 0 entries
  constructor
  · exact Holds.of_pairwise (pairwise_spyStores entries)
      (hperm.mem_iff.mpr (List.mem_append_left _ haddress))
  · exact Holds.of_pairwise (pairwise_spyStores entries)
      (hperm.mem_iff.mpr (List.mem_append_right _ hquality))

/-- An access to the array `spy_qual` that the handler keeps. -/
def touchesSpyQual : Op Buffer → Bool
  | .load buffer _ | .store buffer _ => buffer = .spyQual

theorem spyLog_eq (num start : ℕ) (entries : List Entry) :
    ((List.range' start entries.length).flatMap fun i ↦
      ([.store .extra ⟨sockaddrSize * i + saDataAt, 6⟩, .store .extra ⟨sockaddrSize * i, 2⟩,
        .store .extra ⟨sockaddrSize * num + iwQualitySize * i, iwQualitySize⟩,
        .store .spyQual ⟨iwQualitySize * i + 3, 1⟩] : List (Op Buffer))).filter
          (!touchesSpyQual ·) =
      (spyStores num start entries).map fun store ↦ .store .extra store.span := by
  induction entries generalizing start with
  | nil => rfl
  | cons entry entries ih =>
    rw [List.length_cons, List.range'_succ, List.flatMap_cons, List.filter_append, ih, spyStores]
    simp only [List.map_cons, Store.span]
    rw [entry.length_address, entry.length_quality]
    rfl

/-- The bytes are where the handler stores, and the length is the one it answers with. -/
theorem wlIwGetSpy_stores {spy : Spy} {iw : WlIw} (h : iw.spyNum = spy.entries.length)
    (dwrq : IwPoint) (extra : ℕ → UInt8) :
    let handled := Iw.wlIwGetSpy iw dwrq (some extra)
    handled.dwrq.length.toNat = (wlIwGetSpy spy).1 ∧
      handled.log.filter (!touchesSpyQual ·) =
        (wlIwGetSpy spy).2.1.map fun store ↦ .store .extra store.span := by
  have hle := spy.length_le
  unfold Iw.wlIwGetSpy
  rw [if_neg (by simp)]
  dsimp only
  rw [h, List.range_eq_range']
  exact ⟨Iw.toNat_ofNat (hle.trans_lt (by decide)), spyLog_eq ..⟩

/-- The arrays have these addresses, and nothing was heard of any. -/
def Silent (asked : List (List UInt8)) (spy : Spy) : Prop :=
  spy.entries.map (fun entry ↦ (entry.address, entry.quality)) =
    asked.map fun address ↦ (address, [0, 0, 0, 0])

theorem Silent.step {asked : List (List UInt8)} {spy : Spy} (h : Silent asked spy)
    (label : Label) : Silent ((label.asks).getD asked) (step spy label) := by
  cases label with
  | set length extra =>
    cases extra with
    | none => exact h
    | some extra =>
      unfold Silent AddressLists.step wlIwSetSpy Label.asks
      simp [unheard]
  | get extra =>
    cases extra with
    | none => exact h
    | some extra =>
      unfold Silent AddressLists.step wlIwGetSpy Label.asks at *
      dsimp only
      rw [Option.getD_none, ← h, List.map_map]
      refine List.map_congr_left fun entry hentry ↦ ?_
      have hzero : entry.quality = [0, 0, 0, 0] := by
        have hmem := List.mem_map_of_mem (f := fun entry : Entry ↦ (entry.address, entry.quality))
          hentry
        rw [h] at hmem
        obtain ⟨address, -, heq⟩ := List.mem_map.mp hmem
        exact (Prod.ext_iff.mp heq).2.symm
      change (entry.address, entry.quality.set 3 0) = (entry.address, entry.quality)
      rw [hzero]
      rfl

theorem silent_of_run {start spy : Spy} {labels : List Label} {asked : List (List UInt8)}
    (h : Silent asked start) (hrun : driver.run start labels = some spy) :
    Silent (((labels.filterMap Label.asks).getLast?).getD asked) spy := by
  induction labels generalizing start asked with
  | nil =>
    cases hrun
    exact h
  | cons label labels ih =>
    obtain ⟨next, hnext, hrest⟩ := Machine.run_cons_eq_some.mp hrun
    cases hnext
    have hsilent := ih (h.step label) hrest
    cases hasks : label.asks with
    | none =>
      rw [List.filterMap_cons_none hasks]
      rwa [hasks] at hsilent
    | some addresses =>
      rw [hasks] at hsilent
      rw [List.filterMap_cons_some hasks, List.getLast?_cons]
      exact hsilent

/-- In every run of requests, `wl_iw_get_spy` answers with the addresses of the last set request
that was accepted, eight of them at most and none when it had none, and with a quality of zero for
each: spying never hears of an address. -/
theorem spy_reads_back {start spy : Spy} {labels : List Label} (hstart : driver.initial start)
    (hrun : driver.run start labels = some spy) (extra : ℕ → UInt8) :
    readList (wlIwGetSpy spy).1 (fill (wlIwGetSpy spy).2.1 extra) =
      (lastAsked labels).map fun address ↦ (address, [0, 0, 0, 0]) := by
  have hsilent : Silent [] start := by
    rw [Silent, show start.entries = [] from hstart]
    rfl
  exact ((holdsList_spyStores spy.entries).readList extra).trans (silent_of_run hsilent hrun)

end Spying

def nineAsked : List Label :=
  [.set 9 (some fun i ↦ UInt8.ofNat i), .get (some fun _ ↦ 0), .set 1 none]

/-- Of nine addresses eight are kept. -/
theorem spy_reads_back_nine :
    ∃ spy, driver.run ⟨[], by decide⟩ nineAsked = some spy ∧ (lastAsked nineAsked).length = 8 ∧
      readList (wlIwGetSpy spy).1 (fill (wlIwGetSpy spy).2.1 fun _ ↦ 0) =
        (lastAsked nineAsked).map fun address ↦ (address, [0, 0, 0, 0]) :=
  ⟨_, rfl, by decide, @spy_reads_back ⟨[], by decide⟩ _ nineAsked rfl rfl fun _ ↦ 0⟩

end BroadcomWl.Wext.AddressLists
