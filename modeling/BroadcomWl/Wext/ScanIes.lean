import BroadcomWl.Formats.Tlv
import BroadcomWl.Wext.IwHandlers
import Mathlib.Data.List.ReduceOption

/-!
# Which information elements a scan result shows

`wl_iw_handle_scanresults_ies` looks through the information elements behind a record for an RSN,
a WPS and a WPA element. The last two are elements with the vendor tag, so each has a loop that
calls `bcm_parse_tlvs` again behind an element that is not the one looked for.

The function is modelled with the ranges it reads, the lengths that are left in the turns of the
loops, and the events it adds. A loop has no result when it runs out of turns. `bcm_parse_tlvs`
comes without source; it counts as reading all the bytes it is given.
-/

namespace BroadcomWl.Wext.ScanIes

open BroadcomWl.Memory BroadcomWl.Formats
open BroadcomWl.Cfg80211.ScanResults (ieLengthAt)
open BroadcomWl.Wext.Iw (Platform Piece wlBssInfoSize dot11MngRsnId dot11MngWpaId wpaOui
  isVendorIe findVendorIe)

section Model

variable (parseTlvs : (ℕ → UInt8) → ℕ → ℤ → ℕ → Option ℕ) (memory : ℕ → UInt8)

/-- The ranges a search read, the lengths that were left, and the element it stopped at. -/
structure Search where
  reads : List Range
  left : List ℤ
  found : Option ℕ

/-- `ie_is_wpa_ie` and `ie_is_wps_ie` compare four bytes when the element is long enough. -/
def vendorReads (atLeast ie : ℕ) : List Range :=
  ⟨ie + 1, 1⟩ :: if atLeast ≤ (memory (ie + 1)).toNat then [⟨ie + 2, 4⟩] else []

/-- The loop around `ie_is_wpa_ie` or `ie_is_wps_ie`, which move `ptr` behind the element. -/
def searchVendorIe (atLeast : ℕ) (kind : UInt8) : ℕ → ℕ → ℤ → Option Search
  | 0, _, _ => none
  | fuel + 1, ptr, ptrLen =>
      let given : Range := ⟨ptr, ptrLen.toNat⟩
      match parseTlvs memory ptr ptrLen dot11MngWpaId with
      | none => some ⟨[given], [ptrLen], none⟩
      | some ie =>
          let reads := given :: vendorReads memory atLeast ie
          if isVendorIe memory atLeast kind ie then some ⟨reads, [ptrLen], some ie⟩
          else
            let next := ie + (memory (ie + 1)).toNat + 2
            (searchVendorIe atLeast kind fuel next (ptrLen - ((next : ℤ) - ptr))).map fun rest ↦
              ⟨reads ++ rest.reads, ptrLen :: rest.left, rest.found⟩

/-- An `IWEVGENIE` event: `iwe.u.data.length`, and the bytes that are copied from the element. -/
structure GenieEvent where
  length : UInt16
  data : List UInt8
deriving DecidableEq, Repr

def genieLength (ie : ℕ) : UInt16 := (memory (ie + 1)).toUInt16 + 2

def genieEvent (ie : ℕ) : GenieEvent :=
  ⟨genieLength memory ie, slice memory ie (genieLength memory ie).toNat⟩

/-- `ie->len`, and the element. -/
def genieReads (ie : ℕ) : List Range := [⟨ie + 1, 1⟩, ⟨ie, (genieLength memory ie).toNat⟩]

structure Extraction where
  reads : List Range
  left : List ℤ
  events : List GenieEvent

/-- `wl_iw_handle_scanresults_ies`, with so many turns for each loop. -/
def wlIwHandleScanresultsIes (fuel bi : ℕ) : Option Extraction :=
  let ieLength := load32 memory (bi + ieLengthAt)
  if ieLength = 0 then some ⟨[], [], []⟩
  else do
    let ptr := bi + wlBssInfoSize
    let ptrLen := (BitVec.ofNat 32 ieLength).toInt
    let rsn := parseTlvs memory ptr ptrLen dot11MngRsnId
    let wps ← searchVendorIe parseTlvs memory 4 0x04 fuel ptr ptrLen
    let wpa ← searchVendorIe parseTlvs memory 6 0x01 fuel ptr ptrLen
    let found := [rsn, wps.found, wpa.found].reduceOption
    return ⟨⟨ptr, ptrLen.toNat⟩ :: (wps.reads ++ wpa.reads ++ found.flatMap (genieReads memory)),
      ptrLen :: (wps.left ++ wpa.left), found.map (genieEvent memory)⟩

end Model

/-! ## The elements -/

/-- What `bcm_parse_tlvs` is documented to do. -/
def FindsFirst (parseTlvs : (ℕ → UInt8) → ℕ → ℤ → ℕ → Option ℕ) : Prop :=
  ∀ memory ptr (n : ℤ) tag,
    parseTlvs memory ptr n tag =
      (Tlv.positions memory ptr n.toNat).find? fun ie ↦ (memory ie).toNat == tag

def IsRsn (element : Tlv) : Prop := element.tag = 48

/-- A vendor element whose value starts with the OUI and a type. -/
def IsVendor (atLeast : ℕ) (kind : UInt8) (element : Tlv) : Prop :=
  element.tag = 221 ∧ atLeast ≤ element.value.length ∧
    element.value.take 4 = [0x00, 0x50, 0xf2, kind]

def IsWps (element : Tlv) : Prop := IsVendor 4 0x04 element

def IsWpa (element : Tlv) : Prop := IsVendor 6 0x01 element

instance : DecidablePred IsRsn := fun _ ↦ inferInstanceAs (Decidable (_ = _))

instance (atLeast : ℕ) (kind : UInt8) : DecidablePred (IsVendor atLeast kind) :=
  fun _ ↦ inferInstanceAs (Decidable (_ ∧ _))

instance : DecidablePred IsWps := inferInstanceAs (DecidablePred (IsVendor 4 0x04))

instance : DecidablePred IsWpa := inferInstanceAs (DecidablePred (IsVendor 6 0x01))

/-- The first element of each kind, in this order. -/
def shown (elements : List Tlv) : List Tlv :=
  [elements.find? (IsRsn ·), elements.find? (IsWps ·), elements.find? (IsWpa ·)].reduceOption

/-! ## Every search finds the first -/

section Search

variable {parseTlvs : (ℕ → UInt8) → ℕ → ℤ → ℕ → Option ℕ} {memory : ℕ → UInt8}

/-- Every range lies inside the `n` bytes from `ptr` on. -/
def ReadsInside (ptr n : ℕ) (reads : List Range) : Prop :=
  ∀ read ∈ reads, ptr ≤ read.offset ∧ read.offset + read.length ≤ ptr + n

/-- What a search is for. -/
structure Search.Correct (search : Search) (memory : ℕ → UInt8) (atLeast : ℕ) (kind : UInt8)
    (ptr n : ℕ) : Prop where
  inside : ReadsInside ptr n search.reads
  nonneg : ∀ left ∈ search.left, 0 ≤ left
  found : search.found = (Tlv.positions memory ptr n).find? fun ie ↦
    (memory ie).toNat == dot11MngWpaId && isVendorIe memory atLeast kind ie

theorem vendorReads_inside {memory : ℕ → UInt8} {atLeast ie ptr n : ℕ} (hatLeast : 4 ≤ atLeast)
    (hfrom : ptr ≤ ie)
    (hinside : ie + (2 + Tlv.lenAt memory ie) ≤ ptr + n) :
    ReadsInside ptr n (vendorReads memory atLeast ie) := by
  have hlen : Tlv.lenAt memory ie = (memory (ie + 1)).toNat := rfl
  intro read hread
  unfold vendorReads at hread
  split at hread
  next hlong =>
    rcases List.mem_cons.mp hread with rfl | hread
    · dsimp only
      omega
    · obtain rfl := List.mem_singleton.mp hread
      dsimp only
      omega
  next =>
    obtain rfl := List.mem_singleton.mp hread
    dsimp only
    omega

theorem not_wanted_of_tag {atLeast : ℕ} {kind : UInt8} {ie : ℕ}
    (h : ¬((memory ie).toNat == dot11MngWpaId) = true) :
    ¬((memory ie).toNat == dot11MngWpaId && isVendorIe memory atLeast kind ie) = true := by
  rw [Bool.and_eq_true]
  exact fun hwanted ↦ h hwanted.1

/-- Behind an element with the tag and none before it, the search goes on with what is left. -/
theorem Search.Correct.skip {atLeast : ℕ} {kind : UInt8} {ie ptr n : ℕ} {rest : Search}
    {before : List ℕ} {reads : List Range}
    (hsplit : Tlv.positions memory ptr n =
      before ++ ie :: Tlv.positions memory (ie + (2 + Tlv.lenAt memory ie))
        (ptr + n - (ie + (2 + Tlv.lenAt memory ie))))
    (hbefore : ∀ other ∈ before, ¬((memory other).toNat == dot11MngWpaId) = true)
    (hmatch : ¬isVendorIe memory atLeast kind ie = true) (hfrom : ptr ≤ ie)
    (hinside : ie + (2 + Tlv.lenAt memory ie) ≤ ptr + n) (hreads : ReadsInside ptr n reads)
    (hrest : rest.Correct memory atLeast kind (ie + (2 + Tlv.lenAt memory ie))
      (ptr + n - (ie + (2 + Tlv.lenAt memory ie)))) :
    Search.Correct ⟨reads ++ rest.reads, n :: rest.left, rest.found⟩ memory atLeast kind ptr n where
  inside := by
    intro read hread
    rcases List.mem_append.mp hread with hread | hread
    · exact hreads read hread
    · obtain ⟨hoffset, hend⟩ := hrest.inside read hread
      exact ⟨by omega, by omega⟩
  nonneg := List.forall_mem_cons.mpr ⟨Int.natCast_nonneg n, hrest.nonneg⟩
  found := by
    have hskipped := List.find?_eq_none.mpr fun other hother ↦
      @not_wanted_of_tag memory atLeast kind other (hbefore other hother)
    rw [hsplit, List.find?_append, hskipped, Option.none_or, List.find?_cons_of_neg]
    · exact hrest.found
    · rw [Bool.and_eq_true]
      exact fun h ↦ hmatch h.2

/-- With a turn for every second byte, the loop ends at the first such element. -/
theorem searchVendorIe_correct (hparse : FindsFirst parseTlvs) {atLeast : ℕ}
    (hatLeast : 4 ≤ atLeast) (kind : UInt8) {fuel ptr n : ℕ} (hfuel : n / 2 < fuel) :
    ∃ search, searchVendorIe parseTlvs memory atLeast kind fuel ptr n = some search ∧
      search.Correct memory atLeast kind ptr n := by
  induction fuel generalizing ptr n with
  | zero => exact absurd hfuel (Nat.not_lt_zero _)
  | succ fuel ih =>
    have hgiven : ReadsInside ptr n [⟨ptr, n⟩] := by
      rintro read hread
      obtain rfl := List.mem_singleton.mp hread
      exact ⟨Nat.le_refl _, Nat.le_refl _⟩
    have hleft : ∀ left ∈ [(n : ℤ)], 0 ≤ left := by simp
    rw [searchVendorIe, hparse, Int.toNat_natCast]
    cases hfirst : (Tlv.positions memory ptr n).find?
        fun ie ↦ (memory ie).toNat == dot11MngWpaId with
    | none =>
      refine ⟨_, rfl, hgiven, hleft, (List.find?_eq_none.mpr fun ie hie ↦ ?_).symm⟩
      exact not_wanted_of_tag (List.find?_eq_none.mp hfirst ie hie)
    | some ie =>
      obtain ⟨htag, before, after, hsplit, hbefore⟩ := List.find?_eq_some_iff_append.mp hfirst
      obtain ⟨hfrom, hinside, hafter⟩ := Tlv.positions_eq_append hsplit
      have hvendor := vendorReads_inside hatLeast hfrom hinside
      have hothers : ∀ other ∈ before, ¬((memory other).toNat == dot11MngWpaId) = true := by
        intro other hother
        rw [Bool.not_eq_true, ← Bool.not_eq_true']
        exact hbefore other hother
      have hreads : ReadsInside ptr n (⟨ptr, n⟩ :: vendorReads memory atLeast ie) :=
        List.forall_mem_cons.mpr ⟨⟨Nat.le_refl _, Nat.le_refl _⟩, hvendor⟩
      dsimp only
      by_cases hmatch : isVendorIe memory atLeast kind ie = true
      · rw [if_pos hmatch]
        refine ⟨_, rfl, hreads, hleft, ?_⟩
        have hskipped := List.find?_eq_none.mpr fun other hother ↦
          @not_wanted_of_tag memory atLeast kind other (hothers other hother)
        rw [hsplit, List.find?_append, hskipped, Option.none_or, List.find?_cons_of_pos]
        rw [htag, hmatch, Bool.and_true]
      · -- the loop goes on behind the element, with what is left there
        have hnext : ie + (memory (ie + 1)).toNat + 2 = ie + (2 + Tlv.lenAt memory ie) := by
          rw [Tlv.lenAt]
          omega
        have hrest : (n : ℤ) - ((ie + (2 + Tlv.lenAt memory ie) : ℕ) - (ptr : ℤ)) =
            (ptr + n - (ie + (2 + Tlv.lenAt memory ie)) : ℕ) := by
          omega
        have hfewer : (ptr + n - (ie + (2 + Tlv.lenAt memory ie))) / 2 < fuel := by omega
        obtain ⟨rest, hsearch, hcorrect⟩ := @ih (ie + (2 + Tlv.lenAt memory ie)) _ hfewer
        rw [if_neg hmatch, hnext, hrest, hsearch]
        rw [hafter] at hsplit
        exact ⟨_, rfl, hcorrect.skip hsplit hothers hmatch hfrom hinside hreads⟩

/-- The same search without the account of what it reads. -/
theorem findVendorIe_eq {platform : Platform} {atLeast : ℕ} {kind : UInt8} {fuel ptr : ℕ}
    {ptrLen : ℤ} {search : Search}
    (h : searchVendorIe platform.bcmParseTlvs memory atLeast kind fuel ptr ptrLen = some search) :
    findVendorIe platform memory atLeast kind fuel ptr ptrLen = search.found := by
  induction fuel generalizing ptr ptrLen search with
  | zero => cases h
  | succ fuel ih =>
    rw [searchVendorIe] at h
    rw [findVendorIe]
    cases hfirst : platform.bcmParseTlvs memory ptr ptrLen dot11MngWpaId with
    | none =>
      rw [hfirst] at h
      cases h
      rfl
    | some ie =>
      rw [hfirst] at h
      dsimp only at h ⊢
      split at h
      next hmatch =>
        cases h
        rw [if_pos hmatch]
      next hmatch =>
        obtain ⟨rest, hrest, rfl⟩ := Option.map_eq_some_iff.mp h
        have hfound := ih hrest
        rw [if_neg hmatch, hfound]

end Search

/-! ## What is shown -/

section Shown

variable {memory : ℕ → UInt8}

/-- The element that is found in the memory is the one that is found in its bytes. -/
theorem map_find_positions {element : Tlv → Prop} [DecidablePred element] {place : ℕ → Bool}
    (h : ∀ ie, place ie = decide (element (Tlv.ofMemory memory ie))) (ptr n : ℕ) :
    ((Tlv.positions memory ptr n).find? place).map (Tlv.ofMemory memory) =
      (Tlv.scan (slice memory ptr n)).1.find? (element ·) := by
  rw [← Tlv.map_ofMemory_positions, List.find?_map]
  congr 2
  funext ie
  exact h ie

theorem isRsn_ofMemory (ie : ℕ) :
    ((memory ie).toNat == dot11MngRsnId) = decide (IsRsn (Tlv.ofMemory memory ie)) := by
  rw [Bool.eq_iff_iff, beq_iff_eq, decide_eq_true_iff]
  exact UInt8.toNat_inj (b := 48)

theorem isVendor_ofMemory {atLeast : ℕ} (hatLeast : 4 ≤ atLeast) (kind : UInt8) (ie : ℕ) :
    ((memory ie).toNat == dot11MngWpaId && isVendorIe memory atLeast kind ie) =
      decide (IsVendor atLeast kind (Tlv.ofMemory memory ie)) := by
  have htag : (memory ie).toNat = dot11MngWpaId ↔ memory ie = 221 :=
    UInt8.toNat_inj (b := 221)
  have hlength : (Tlv.ofMemory memory ie).value.length = (memory (ie + 1)).toNat :=
    length_slice ..
  rw [Bool.eq_iff_iff, decide_eq_true_iff, Bool.and_eq_true, beq_iff_eq, htag, isVendorIe,
    Bool.and_eq_true, decide_eq_true_iff, beq_iff_eq, IsVendor, hlength]
  refine and_congr_right fun _ ↦ and_congr_right fun hlong ↦ ?_
  have htake : (Tlv.ofMemory memory ie).value.take 4 =
      (List.range 4).map fun i ↦ memory (ie + 2 + i) := by
    change (slice memory (ie + 2) (memory (ie + 1)).toNat).take 4 = _
    rw [slice, ← List.map_take, List.take_range, Nat.min_eq_left (hatLeast.trans hlong)]
  rw [htake]
  rfl

theorem toNat_genieLength (ie : ℕ) :
    (genieLength memory ie).toNat = 2 + Tlv.lenAt memory ie := by
  have hlt := (memory (ie + 1)).toNat_lt
  rw [genieLength, UInt16.toNat_add, UInt8.toNat_toUInt16, Tlv.lenAt]
  change ((memory (ie + 1)).toNat + 2) % 65536 = _
  omega

theorem data_genieEvent (ie : ℕ) :
    (genieEvent memory ie).data = (Tlv.ofMemory memory ie).encode := by
  rw [Tlv.encode_ofMemory, genieEvent, toNat_genieLength]

/-- What an event says about its length is the length of its data. -/
theorem length_genieEvent (ie : ℕ) :
    (genieEvent memory ie).length.toNat = (genieEvent memory ie).data.length :=
  (length_slice ..).symm

theorem genieReads_inside {ptr n ie : ℕ} (h : ie ∈ Tlv.positions memory ptr n) :
    ReadsInside ptr n (genieReads memory ie) := by
  obtain ⟨before, after, hsplit⟩ := List.append_of_mem h
  obtain ⟨hfrom, hinside, -⟩ := Tlv.positions_eq_append hsplit
  intro read hread
  rcases List.mem_pair.mp hread with rfl | rfl
  · dsimp only
    omega
  · dsimp only
    rw [toNat_genieLength]
    omega

end Shown

section Extraction

variable {parseTlvs : (ℕ → UInt8) → ℕ → ℤ → ℕ → Option ℕ} {memory : ℕ → UInt8}

/-- `bi->ie_length`. -/
def ieLength (memory : ℕ → UInt8) (bi : ℕ) : ℕ := load32 memory (bi + ieLengthAt)

/-- The bytes behind the record. -/
def blob (memory : ℕ → UInt8) (bi : ℕ) : List UInt8 :=
  slice memory (bi + wlBssInfoSize) (ieLength memory bi)

theorem toInt_ieLength {bi : ℕ} (h : ieLength memory bi < 2 ^ 31) :
    (BitVec.ofNat 32 (ieLength memory bi)).toInt = ieLength memory bi := by
  rw [BitVec.toInt_eq_toNat_of_lt, BitVec.toNat_ofNat, Nat.mod_eq_of_lt (by omega)]
  rw [BitVec.toNat_ofNat, Nat.mod_eq_of_lt (by omega)]
  omega

/-- What the three searches find, for a record with information elements. -/
theorem handleScanresultsIes_searches (hparse : FindsFirst parseTlvs) {bi fuel : ℕ}
    (hblob : ieLength memory bi < 2 ^ 31) (hfuel : ieLength memory bi / 2 < fuel)
    (hsome : ieLength memory bi ≠ 0) :
    ∃ wps wpa : Search,
      wps.Correct memory 4 0x04 (bi + wlBssInfoSize) (ieLength memory bi) ∧
      wpa.Correct memory 6 0x01 (bi + wlBssInfoSize) (ieLength memory bi) ∧
      searchVendorIe parseTlvs memory 4 0x04 fuel (bi + wlBssInfoSize)
        (ieLength memory bi) = some wps ∧
      searchVendorIe parseTlvs memory 6 0x01 fuel (bi + wlBssInfoSize)
        (ieLength memory bi) = some wpa ∧
      wlIwHandleScanresultsIes parseTlvs memory fuel bi =
        let rsn := (Tlv.positions memory (bi + wlBssInfoSize) (ieLength memory bi)).find?
          fun ie ↦ (memory ie).toNat == dot11MngRsnId
        let found := [rsn, wps.found, wpa.found].reduceOption
        some ⟨⟨bi + wlBssInfoSize, ieLength memory bi⟩ ::
            (wps.reads ++ wpa.reads ++ found.flatMap (genieReads memory)),
          (ieLength memory bi : ℤ) :: (wps.left ++ wpa.left), found.map (genieEvent memory)⟩ := by
  obtain ⟨wps, hwps, hwpsCorrect⟩ :=
    @searchVendorIe_correct parseTlvs memory hparse 4 (by decide) 0x04 fuel (bi + wlBssInfoSize)
      (ieLength memory bi) hfuel
  obtain ⟨wpa, hwpa, hwpaCorrect⟩ :=
    @searchVendorIe_correct parseTlvs memory hparse 6 (by decide) 0x01 fuel (bi + wlBssInfoSize)
      (ieLength memory bi) hfuel
  refine ⟨wps, wpa, hwpsCorrect, hwpaCorrect, hwps, hwpa, ?_⟩
  unfold wlIwHandleScanresultsIes
  rw [← ieLength, if_neg hsome]
  dsimp only
  rw [toInt_ieLength hblob, hwps, hwpa, hparse, Int.toNat_natCast]
  rfl

/-- The blob of a record lies in a buffer of at most 65535 bytes, so its length is positive as an
`int`. Then the loops end, no length becomes negative, all reads stay inside the blob, and the
first RSN, WPS and WPA elements are shown, each with all its bytes. -/
theorem scanIes_shown (hparse : FindsFirst parseTlvs) {bi fuel : ℕ}
    (hblob : ieLength memory bi < 2 ^ 31) (hfuel : ieLength memory bi ≤ fuel) :
    ∃ run, wlIwHandleScanresultsIes parseTlvs memory fuel bi = some run ∧
      (∀ left ∈ run.left, 0 ≤ left) ∧
      ReadsInside (bi + wlBssInfoSize) (ieLength memory bi) run.reads ∧
      run.events.map GenieEvent.data =
        (shown (Tlv.scan (blob memory bi)).1).map Tlv.encode ∧
      ∀ event ∈ run.events, event.length.toNat = event.data.length := by
  by_cases hsome : ieLength memory bi = 0
  · refine ⟨⟨[], [], []⟩, if_pos hsome, List.forall_mem_nil _, List.forall_mem_nil _, ?_,
      List.forall_mem_nil _⟩
    have hempty : blob memory bi = [] := by
      rw [blob, hsome]
      rfl
    rw [hempty, Tlv.scan_of_none rfl]
    rfl
  · obtain ⟨wps, wpa, hwps, hwpa, -, -, hrun⟩ :=
      @handleScanresultsIes_searches parseTlvs memory hparse bi fuel hblob (by omega) hsome
    refine ⟨_, hrun, ?_, ?_, ?_, ?_⟩
    · refine List.forall_mem_cons.mpr ⟨Int.natCast_nonneg _, fun left hleft ↦ ?_⟩
      exact (List.mem_append.mp hleft).elim (hwps.nonneg left) (hwpa.nonneg left)
    · have hfound : ∀ ie ∈ [(Tlv.positions memory (bi + wlBssInfoSize) (ieLength memory bi)).find?
          fun ie ↦ (memory ie).toNat == dot11MngRsnId, wps.found, wpa.found].reduceOption,
          ie ∈ Tlv.positions memory (bi + wlBssInfoSize) (ieLength memory bi) := by
        intro ie hie
        rw [List.reduceOption_mem_iff, hwps.found, hwpa.found] at hie
        rcases List.mem_cons.mp hie with hie | hie
        · exact List.mem_of_find?_eq_some hie.symm
        rcases List.mem_pair.mp hie with hie | hie
        · exact List.mem_of_find?_eq_some hie.symm
        · exact List.mem_of_find?_eq_some hie.symm
      refine List.forall_mem_cons.mpr ⟨⟨Nat.le_refl _, Nat.le_refl _⟩, fun read hread ↦ ?_⟩
      rcases List.mem_append.mp hread with hread | hread
      · exact (List.mem_append.mp hread).elim (hwps.inside read) (hwpa.inside read)
      · obtain ⟨ie, hie, hread⟩ := List.mem_flatMap.mp hread
        exact genieReads_inside (hfound ie hie) read hread
    · dsimp only
      have hdata : GenieEvent.data ∘ genieEvent memory = Tlv.encode ∘ Tlv.ofMemory memory :=
        funext data_genieEvent
      rw [List.map_map, hdata, ← List.map_map, ← List.reduceOption_map, hwps.found, hwpa.found,
        List.map_cons, List.map_cons, List.map_singleton, map_find_positions isRsn_ofMemory,
        map_find_positions (isVendor_ofMemory (by decide) 0x04),
        map_find_positions (isVendor_ofMemory (by decide) 0x01)]
      rfl
    · intro event hevent
      obtain ⟨ie, -, rfl⟩ := List.mem_map.mp hevent
      exact length_genieEvent ie

/-- The pieces of the stream are the events of a run with a turn for every byte. -/
theorem scanresultsPieces_eq {platform : Platform} (hparse : FindsFirst platform.bcmParseTlvs)
    {bi : ℕ} (hblob : ieLength memory bi < 2 ^ 31) :
    ∃ run, wlIwHandleScanresultsIes platform.bcmParseTlvs memory (ieLength memory bi) bi =
        some run ∧
      Iw.wlIwHandleScanresultsIes platform memory bi =
        run.events.map fun event ↦ Piece.point event.length.toNat := by
  by_cases hsome : ieLength memory bi = 0
  · exact ⟨⟨[], [], []⟩, if_pos hsome, if_pos hsome⟩
  · obtain ⟨wps, wpa, -, -, hwps, hwpa, hrun⟩ :=
      @handleScanresultsIes_searches platform.bcmParseTlvs memory hparse bi (ieLength memory bi)
        hblob (by omega) hsome
    refine ⟨_, hrun, ?_⟩
    have hpiece : (fun ie ↦ Piece.point ((memory (ie + 1)).toNat + 2)) =
        (fun event : GenieEvent ↦ Piece.point event.length.toNat) ∘ genieEvent memory := by
      funext ie
      change _ = Piece.point (genieLength memory ie).toNat
      rw [toNat_genieLength, Tlv.lenAt, Nat.add_comm]
    unfold Iw.wlIwHandleScanresultsIes
    rw [← ieLength, if_neg hsome, List.map_map, ← hpiece]
    dsimp only
    rw [toInt_ieLength hblob, findVendorIe_eq hwps, findVendorIe_eq hwpa, hparse,
      Int.toNat_natCast, ← List.reduceOption_map]
    rw [List.reduceOption, List.filterMap_map]
    rfl

/-! ## An example -/

/-- An RSN element, a vendor element of another type, a WPA and a WPS element. -/
def sampleElements : List Tlv :=
  [⟨48, [1, 0], by decide⟩, ⟨221, [0, 0x50, 0xf2, 2, 0], by decide⟩,
    ⟨221, [0, 0x50, 0xf2, 1, 1, 0], by decide⟩, ⟨221, [0, 0x50, 0xf2, 4], by decide⟩]

/-- A record at the start of the memory with these elements. -/
def sampleMemory : ℕ → UInt8 := fun i ↦
  if i = ieLengthAt then 25
  else if wlBssInfoSize ≤ i then
    (sampleElements.flatMap Tlv.encode).getD (i - wlBssInfoSize) 0
  else 0

/-- `bcm_parse_tlvs` as it is documented. -/
def parseFirst (memory : ℕ → UInt8) (ptr : ℕ) (n : ℤ) (tag : ℕ) : Option ℕ :=
  (Tlv.positions memory ptr n.toNat).find? fun ie ↦ (memory ie).toNat == tag

theorem scanIes_shown_sample :
    ∃ run, wlIwHandleScanresultsIes parseFirst sampleMemory 25 0 = some run ∧
      run.events.map GenieEvent.data =
        [[48, 2, 1, 0], [221, 4, 0, 0x50, 0xf2, 4], [221, 6, 0, 0x50, 0xf2, 1, 1, 0]] := by
  obtain ⟨run, hrun, -, -, hdata, -⟩ :=
    @scanIes_shown parseFirst sampleMemory (fun _ _ _ _ ↦ rfl) 0 25 (by decide) (by decide)
  refine ⟨run, hrun, ?_⟩
  have hblob : blob sampleMemory 0 = sampleElements.flatMap Tlv.encode := by decide
  rw [hdata, hblob, Tlv.scan_encode]
  decide

end Extraction

end BroadcomWl.Wext.ScanIes
