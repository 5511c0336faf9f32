import BroadcomWl.Cfg80211.ScanResults
import BroadcomWl.Cfg80211.Priv
import BroadcomWl.Memory.Ledger
import BroadcomWl.Wext.ScanIes

/-!
# The DTIM period of the BSS that was joined

`wl_update_bss_info` looks for the BSS in the list of cfg80211. When it is not there, the firmware
is asked for its record, which comes to lie in `extra_buf` behind a word for the length, and the
record is reported before the BSS is looked up again. The information elements, those of the entry
or those of the record, are then searched for a TIM element.

The function is modelled with the bytes it reads and the resources it takes. `bcm_parse_tlvs` comes
without source; it counts as reading all the bytes it is given.
-/

namespace BroadcomWl.Cfg80211.BssInfoUpdate

open BroadcomWl.Memory BroadcomWl.Formats BroadcomWl.Cfg80211.ScanResults
open BroadcomWl.Wext.ScanIes (FindsFirst parseFirst)

def eio : ℤ := 5
def wlExtraBufMax : ℕ := 2048
def wlanEidTim : ℕ := 5

/-- `wl->extra_buf + 4`. -/
def biAt : ℕ := 4

/-- `data[1]` of a `struct bcm_tlv`. -/
def data1At : ℕ := 3

/-- The information elements of the entry in the list of cfg80211, or what the driver reads. -/
inductive Object where
  | entry
  | driver (object : ScanResults.Object)
deriving DecidableEq

/-- Some bytes of `extra_buf`. -/
def extraBuf (offset length : ℕ) : Access Object := ⟨.driver .results, ⟨offset, length⟩⟩

inductive Resource where
  | rtnl
  | bss
deriving DecidableEq

/-- An entry in the list of cfg80211. -/
structure CfgBss where
  ies : ℕ → UInt8
  iesLen : ℕ
  channel : ℕ

/-- What the function finds: the first answer of `cfg80211_get_bss`, the answer to
`WLC_GET_BSS_INFO` with the contents of `extra_buf` after it, what `wl_inform_single_bss` depends
on, whether the second `cfg80211_get_bss` finds the BSS, and the answer to `WLC_GET_DTIMPRD`. -/
structure Environment where
  bss : Option CfgBss
  bssInfoErr : ℤ
  extraBuf : ℕ → UInt8
  bssid : EtherAddr
  scanRequest : Bool
  kernel : Kernel
  bssAgain : Bool
  dtimPrdErr : ℤ
  dtimPrd : UInt32

def Environment.record (env : Environment) : BssInfo := bssInfo env.extraBuf biAt

/-- `ie` and `ie_len`, with the object that the pointer is into. -/
structure Ies where
  object : Object
  memory : ℕ → UInt8
  ie : ℕ
  ieLen : ℕ

def CfgBss.toIes (bss : CfgBss) : Ies := ⟨.entry, bss.ies, 0, bss.iesLen⟩

def Environment.recordIes (env : Environment) : Ies :=
  ⟨.driver .results, env.extraBuf, biAt + env.record.ieOffset, env.record.ieLength⟩

/-- The length that `bcm_parse_tlvs` is passed: its parameter is an `int`. -/
def Ies.buflen (ies : Ies) : ℤ := (BitVec.ofNat 32 ies.ieLen).toInt

/-- The bytes that `bcm_parse_tlvs` is given. -/
def Ies.given (ies : Ies) : Range := ⟨ies.ie, ies.buflen.toNat⟩

/-- Where the DTIM period is taken from. -/
inductive DtimPeriod where
  | byte (place : ℕ) (value : UInt8)
  | firmware (value : UInt32)
deriving DecidableEq, Repr

/-- The search through the information elements: its reads, its error, and the period. -/
structure Lookup where
  reads : List Range
  err : ℤ
  dtimPeriod : Option DtimPeriod

/-- What the function has read and taken when it returns. -/
structure Update where
  resources : List (Ledger.Event Resource)
  log : List (Access Object)
  lookup : Option (Ies × Lookup)
  err : ℤ
  channel : Option ℕ

section Source

variable (parseTlvs : (ℕ → UInt8) → ℕ → ℤ → ℕ → Option ℕ) (env : Environment)

/-- From the call of `bcm_parse_tlvs` on. -/
def lookupDtimPeriod (ies : Ies) : Lookup :=
  match parseTlvs ies.memory ies.ie ies.buflen wlanEidTim with
  | some tim =>
      { reads := [ies.given, ⟨tim + data1At, 1⟩]
        err := 0
        dtimPeriod := some (.byte (tim + data1At) (ies.memory (tim + data1At))) }
  | none =>
      if env.dtimPrdErr ≠ 0 then ⟨[ies.given], env.dtimPrdErr, none⟩
      else ⟨[ies.given], 0, some (.firmware env.dtimPrd)⟩

def Lookup.log (lookup : Lookup) (ies : Ies) : List (Access Object) :=
  lookup.reads.map (⟨ies.object, ·⟩)

/-- `goto update_bss_info_out` without a BSS. -/
def failed (log : List (Access Object)) (err : ℤ) : Update :=
  ⟨[.acquire .rtnl, .release .rtnl], log, none, err, none⟩

/-- `wl_update_bss_info`. -/
def wlUpdateBssInfo : Update :=
  match env.bss with
  | some bss =>
      let lookup := lookupDtimPeriod parseTlvs env bss.toIes
      { resources := [.acquire .bss, .acquire .rtnl, .release .bss, .release .rtnl]
        log := lookup.log bss.toIes
        lookup := some (bss.toIes, lookup)
        err := lookup.err
        channel := some bss.channel }
  | none =>
      if env.bssInfoErr ≠ 0 then failed [] env.bssInfoErr
      else
        let log := [extraBuf (biAt + bssidAt) 6]
        if env.record.bssid ≠ env.bssid.toList then failed log (-eio)
        else
          let single := wlInformSingleBss env.extraBuf env.scanRequest env.kernel biAt
          let log := log ++ single.log.map fun access ↦ ⟨.driver access.object, access.range⟩
          if single.err ≠ 0 then failed log single.err
          else
            let log := log ++ [extraBuf (biAt + ieOffsetAt) 2, extraBuf (biAt + ieLengthAt) 4]
            if !env.bssAgain then failed log (-einval)
            else
              let lookup := lookupDtimPeriod parseTlvs env env.recordIes
              { resources := [.acquire .rtnl, .acquire .bss, .release .bss, .release .rtnl]
                log := log ++ lookup.log env.recordIes
                lookup := some (env.recordIes, lookup)
                err := lookup.err
                channel := none }

end Source

/-! ## What the search may read -/

/-- The first TIM element that lies wholly inside, if there is one, has a second byte. -/
def Ies.LongEnough (ies : Ies) : Prop :=
  ∀ tim, (Tlv.positions ies.memory ies.ie ies.buflen.toNat).find?
    (fun ie ↦ (ies.memory ie).toNat == wlanEidTim) = some tim → 2 ≤ Tlv.lenAt ies.memory tim

/-- Every byte is inside `ie[0..ie_len)`. -/
def Ies.Holds (ies : Ies) (read : Range) : Prop :=
  ∀ i < read.length, ies.ie ≤ read.offset + i ∧ read.offset + i < ies.ie + ies.ieLen

/-- All reads are inside, and the period is the second byte of a TIM element that has one, or the
firmware's answer. -/
structure Lookup.Correct (env : Environment) (ies : Ies) (lookup : Lookup) : Prop where
  inside : ∀ read ∈ lookup.reads, ies.Holds read
  byte : ∀ place value, lookup.dtimPeriod = some (.byte place value) →
    ∃ tim ∈ Tlv.positions ies.memory ies.ie ies.buflen.toNat,
      (ies.memory tim).toNat = wlanEidTim ∧ 2 ≤ Tlv.lenAt ies.memory tim ∧
        place = tim + data1At ∧ value = ies.memory place
  firmware : ∀ value, lookup.dtimPeriod = some (.firmware value) →
    env.dtimPrdErr = 0 ∧ value = env.dtimPrd

section Lookup

variable {parseTlvs : (ℕ → UInt8) → ℕ → ℤ → ℕ → Option ℕ} {env : Environment} {ies : Ies}

theorem buflen_le (ies : Ies) : ies.buflen.toNat ≤ ies.ieLen := by
  have hmod : ies.ieLen % 2 ^ 32 ≤ ies.ieLen := Nat.mod_le ..
  unfold Ies.buflen
  rw [BitVec.toInt_eq_toNat_cond, BitVec.toNat_ofNat]
  split <;> omega

theorem given_holds (ies : Ies) : ies.Holds ies.given := by
  intro i hi
  have hlength : i < ies.buflen.toNat := hi
  have hle := buflen_le ies
  exact ⟨Nat.le_add_right .., by change ies.ie + i < _; omega⟩

/-- The second byte of an element that has one is inside. -/
theorem data1_inside {tim : ℕ} (hmem : tim ∈ Tlv.positions ies.memory ies.ie ies.buflen.toNat)
    (hlong : 2 ≤ Tlv.lenAt ies.memory tim) :
    ies.ie ≤ tim + data1At ∧ tim + data1At < ies.ie + ies.buflen.toNat := by
  obtain ⟨before, after, hsplit⟩ := List.append_of_mem hmem
  obtain ⟨hfrom, hinside, -⟩ := Tlv.positions_eq_append hsplit
  unfold data1At
  omega

/-- The branches of the search. -/
theorem lookupDtimPeriod_cases (hparse : FindsFirst parseTlvs) (env : Environment) (ies : Ies) :
    (∃ tim, (Tlv.positions ies.memory ies.ie ies.buflen.toNat).find?
        (fun ie ↦ (ies.memory ie).toNat == wlanEidTim) = some tim ∧
      lookupDtimPeriod parseTlvs env ies =
        ⟨[ies.given, ⟨tim + data1At, 1⟩], 0,
          some (.byte (tim + data1At) (ies.memory (tim + data1At)))⟩) ∨
    (Tlv.positions ies.memory ies.ie ies.buflen.toNat).find?
        (fun ie ↦ (ies.memory ie).toNat == wlanEidTim) = none ∧
      (lookupDtimPeriod parseTlvs env ies).reads = [ies.given] ∧
      ∀ period, (lookupDtimPeriod parseTlvs env ies).dtimPeriod = some period →
        env.dtimPrdErr = 0 ∧ period = .firmware env.dtimPrd := by
  unfold lookupDtimPeriod
  rw [hparse]
  cases hfind : (Tlv.positions ies.memory ies.ie ies.buflen.toNat).find?
      (fun ie ↦ (ies.memory ie).toNat == wlanEidTim) with
  | some tim => exact .inl ⟨tim, rfl, rfl⟩
  | none =>
    right
    dsimp only
    by_cases herr : env.dtimPrdErr = 0
    · rw [if_neg (not_not_intro herr)]
      refine ⟨rfl, rfl, fun period hperiod ↦ ⟨herr, ?_⟩⟩
      exact (Option.some.inj hperiod).symm
    · rw [if_pos herr]
      exact ⟨rfl, rfl, nofun⟩

/-- The search is correct exactly when the element that it takes is long enough. -/
theorem lookup_correct_iff (hparse : FindsFirst parseTlvs) :
    (lookupDtimPeriod parseTlvs env ies).Correct env ies ↔ ies.LongEnough := by
  rcases lookupDtimPeriod_cases hparse env ies with ⟨tim, hfind, hlookup⟩ | ⟨hfind, hreads, hperiod⟩
  · rw [hlookup]
    constructor
    · intro h other hother
      obtain rfl : tim = other := Option.some.inj (hfind.symm.trans hother)
      obtain ⟨taken, -, -, hlong, hplace, -⟩ := h.byte _ _ rfl
      obtain rfl : tim = taken := Nat.add_right_cancel hplace
      exact hlong
    · intro h
      have hlong := h tim hfind
      have hmem := List.mem_of_find?_eq_some hfind
      have hinside := data1_inside hmem hlong
      have hle := buflen_le ies
      refine ⟨?_, fun place value hvalue ↦ ?_, nofun⟩
      · rw [List.forall_mem_cons, List.forall_mem_singleton]
        refine ⟨given_holds ies, fun i hi ↦ ?_⟩
        obtain rfl : i = 0 := Nat.lt_one_iff.mp hi
        exact ⟨hinside.1, by change tim + data1At < _; omega⟩
      · obtain ⟨rfl, rfl⟩ := DtimPeriod.byte.inj (Option.some.inj hvalue)
        have htag := List.find?_some hfind
        exact ⟨tim, hmem, beq_iff_eq.mp htag, hlong, rfl, rfl⟩
  · refine iff_of_true ⟨?_, fun place value hvalue ↦ ?_, fun value hvalue ↦ ?_⟩ ?_
    · rw [hreads, List.forall_mem_singleton]
      exact given_holds ies
    · cases (hperiod _ hvalue).2
    · obtain ⟨herr, hfirmware⟩ := hperiod _ hvalue
      exact ⟨herr, DtimPeriod.firmware.inj hfirmware⟩
    · intro tim htim
      rw [hfind] at htim
      cases htim

/-- Its reads stay inside the object when the bytes that are given do. -/
theorem lookup_safe_iff (hparse : FindsFirst parseTlvs) {size : Object → ℕ}
    (hlong : ies.LongEnough) :
    Safe size ((lookupDtimPeriod parseTlvs env ies).log ies) ↔
      ies.given.Inside (size ies.object) := by
  unfold Lookup.log
  rcases lookupDtimPeriod_cases hparse env ies with ⟨tim, hfind, hlookup⟩ | ⟨-, hreads, -⟩
  · have hinside := data1_inside (List.mem_of_find?_eq_some hfind) (hlong tim hfind)
    have hlast : ies.given.Inside (size ies.object) →
        (⟨tim + data1At, 1⟩ : Range).Inside (size ies.object) := by
      intro h i hi
      obtain rfl : i = 0 := Nat.lt_one_iff.mp hi
      have hbyte := h (tim + data1At - ies.ie) (by change _ < ies.buflen.toNat; omega)
      change ies.ie + (tim + data1At - ies.ie) < _ at hbyte
      change tim + data1At < _
      omega
    rw [hlookup, List.map_cons, List.map_singleton, safe_cons, safe_cons]
    exact ⟨And.left, fun h ↦ ⟨h, hlast h, safe_nil⟩⟩
  · rw [hreads, List.map_singleton, safe_cons]
    exact and_iff_left safe_nil

end Lookup

/-! ## What the function may read -/

/-- The sizes of the objects. -/
def sizes (env : Environment) : Object → ℕ
  | .entry => (env.bss.map CfgBss.iesLen).getD 0
  | .driver object => ScanResults.sizes wlExtraBufMax object

/-- Every byte that is read is inside its object, the search is correct, and the lock and the
reference are released. -/
structure Update.Correct (env : Environment) (update : Update) : Prop where
  inside : Safe (sizes env) update.log
  lookup : ∀ ies lookup, update.lookup = some (ies, lookup) → lookup.Correct env ies
  released : Ledger.Accounted update.resources

/-- The firmware is asked for its record, and it is that of the BSS. -/
def Environment.Asked (env : Environment) : Prop :=
  env.bss = none ∧ env.bssInfoErr = 0 ∧ env.record.bssid = env.bssid.toList

/-- The record is reported, and the BSS is found after that. -/
def Environment.Searched (env : Environment) : Prop :=
  env.Asked ∧ Taken env.kernel env.record ∧ env.bssAgain = true

/-- The record lies inside `extra_buf` as far as it is used, and the first TIM element is long
enough. -/
structure Environment.Sound (env : Environment) : Prop where
  entry : ∀ bss, env.bss = some bss → bss.toIes.LongEnough
  record : env.Asked → Fits wlExtraBufMax env.scanRequest env.kernel env.record biAt
  recordIes : env.Searched →
    env.recordIes.given.Inside wlExtraBufMax ∧ env.recordIes.LongEnough

section Update

variable {parseTlvs : (ℕ → UInt8) → ℕ → ℤ → ℕ → Option ℕ} {env : Environment}

theorem locked_accounted : Ledger.Accounted [.acquire Resource.rtnl, .release Resource.rtnl] := by
  have hlocked : Ledger.Holds [.acquire Resource.rtnl] (insert Resource.rtnl ∅) :=
    Ledger.holds_nil.acquire List.not_mem_nil
  exact (hlocked.release_insert (Finset.notMem_empty Resource.rtnl)).accounted

/-- A BSS that is found is released while the lock is held. -/
theorem searched_accounted {taken : List (Ledger.Event Resource)}
    (h : Ledger.Holds taken {.rtnl, .bss}) :
    Ledger.Accounted (taken ++ [.release .bss] ++ [.release .rtnl]) := by
  have hbss : Ledger.Holds (taken ++ [.release .bss]) {.rtnl} := h.release (by decide)
  have hrtnl : Ledger.Holds (taken ++ [.release .bss] ++ [.release .rtnl]) ∅ :=
    hbss.release (by decide)
  exact hrtnl.accounted

theorem extraBuf_inside {offset length : ℕ} (h : offset + length ≤ wlExtraBufMax) :
    (extraBuf offset length).Inside (sizes env) := Range.inside_iff.mpr (.inr h)

/-- Reporting the record reads inside when the record fits `extra_buf`. -/
theorem inform_safe_iff :
    Safe (sizes env)
        ((wlInformSingleBss env.extraBuf env.scanRequest env.kernel biAt).log.map
          fun access ↦ ⟨.driver access.object, access.range⟩) ↔
      Fits wlExtraBufMax env.scanRequest env.kernel env.record biAt := by
  rw [Environment.record, ← wlInformSingleBss_safe_iff]
  exact List.forall_mem_map

/-- The branches of the function: the BSS is in the list, the record is not used, it is not
reported or its BSS not found, or its information elements are searched. -/
theorem wlUpdateBssInfo_cases (parseTlvs : (ℕ → UInt8) → ℕ → ℤ → ℕ → Option ℕ)
    (env : Environment) :
    let update := wlUpdateBssInfo parseTlvs env
    let record := Fits wlExtraBufMax env.scanRequest env.kernel env.record biAt
    (∃ bss, env.bss = some bss ∧
      update.resources = [.acquire .bss, .acquire .rtnl, .release .bss, .release .rtnl] ∧
      update.lookup = some (bss.toIes, lookupDtimPeriod parseTlvs env bss.toIes) ∧
      update.log = (lookupDtimPeriod parseTlvs env bss.toIes).log bss.toIes) ∨
    env.bss = none ∧ ¬env.Asked ∧
      (∃ log err, update = failed log err ∧ Safe (sizes env) log) ∨
    env.Asked ∧ ¬env.Searched ∧
      (∃ log err, update = failed log err ∧ (Safe (sizes env) log ↔ record)) ∨
    env.Searched ∧
      update.resources = [.acquire .rtnl, .acquire .bss, .release .bss, .release .rtnl] ∧
      update.lookup = some (env.recordIes, lookupDtimPeriod parseTlvs env env.recordIes) ∧
      (Safe (sizes env) update.log ↔ record ∧
        Safe (sizes env) ((lookupDtimPeriod parseTlvs env env.recordIes).log env.recordIes)) := by
  intro update record
  have hupdate : update = wlUpdateBssInfo parseTlvs env := rfl
  unfold wlUpdateBssInfo at hupdate
  cases hbss : env.bss with
  | some bss =>
    rw [hbss] at hupdate
    left
    refine ⟨bss, rfl, ?_, ?_, ?_⟩ <;> rw [hupdate]
  | none =>
    rw [hbss] at hupdate
    right
    dsimp only at hupdate
    by_cases herr : env.bssInfoErr = 0
    swap
    · rw [if_pos herr] at hupdate
      exact .inl ⟨rfl, fun h ↦ herr h.2.1, _, _, hupdate, safe_nil⟩
    rw [if_neg (not_not_intro herr)] at hupdate
    have hfirst : (extraBuf (biAt + bssidAt) 6).Inside (sizes env) := extraBuf_inside (by decide)
    have hlast : Safe (sizes env)
        [extraBuf (biAt + ieOffsetAt) 2, extraBuf (biAt + ieLengthAt) 4] := by
      rw [safe_cons, safe_cons]
      exact ⟨extraBuf_inside (by decide), extraBuf_inside (by decide), safe_nil⟩
    by_cases hbssid : env.record.bssid = env.bssid.toList
    swap
    · rw [if_pos hbssid] at hupdate
      exact .inl ⟨rfl, fun h ↦ hbssid h.2.2, _, _, hupdate, safe_cons.mpr ⟨hfirst, safe_nil⟩⟩
    rw [if_neg (not_not_intro hbssid)] at hupdate
    have hasked : env.Asked := ⟨hbss, herr, hbssid⟩
    right
    by_cases htaken : Taken env.kernel env.record
    swap
    · rw [if_pos (mt (wlInformSingleBss_err _ _).mp htaken)] at hupdate
      refine .inl ⟨hasked, fun h ↦ htaken h.2.1, _, _, hupdate, ?_⟩
      rw [safe_append, safe_cons, inform_safe_iff]
      exact and_iff_right ⟨hfirst, safe_nil⟩
    rw [if_neg (not_not_intro ((wlInformSingleBss_err _ _).mpr htaken))] at hupdate
    by_cases hagain : env.bssAgain = true
    swap
    · rw [if_pos (by simpa using hagain)] at hupdate
      refine .inl ⟨hasked, fun h ↦ hagain h.2.2, _, _, hupdate, ?_⟩
      rw [safe_append, safe_append, safe_cons, inform_safe_iff]
      exact ⟨fun h ↦ h.1.2, fun h ↦ ⟨⟨⟨hfirst, safe_nil⟩, h⟩, hlast⟩⟩
    · rw [if_neg (by simpa using hagain)] at hupdate
      refine .inr ⟨⟨hasked, htaken, hagain⟩, ?_, ?_, ?_⟩
      · rw [hupdate]
      · rw [hupdate]
      · rw [hupdate, safe_append, safe_append, safe_append, safe_cons, inform_safe_iff]
        exact ⟨fun h ↦ ⟨h.1.1.2, h.2⟩, fun h ↦ ⟨⟨⟨⟨hfirst, safe_nil⟩, h.1⟩, hlast⟩, h.2⟩⟩

/-- Where information elements are searched, correctness comes down to them and to what was read
before. -/
theorem searched_correct_iff (hparse : FindsFirst parseTlvs) {update : Update} {ies : Ies}
    {before : Prop}
    (hlookup : update.lookup = some (ies, lookupDtimPeriod parseTlvs env ies))
    (hlog : Safe (sizes env) update.log ↔
      before ∧ Safe (sizes env) ((lookupDtimPeriod parseTlvs env ies).log ies))
    (hreleased : Ledger.Accounted update.resources) :
    update.Correct env ↔
      before ∧ ies.given.Inside (sizes env ies.object) ∧ ies.LongEnough := by
  constructor
  · intro h
    have hlong := (lookup_correct_iff hparse).mp (h.lookup _ _ hlookup)
    obtain ⟨hbefore, hreads⟩ := hlog.mp h.inside
    exact ⟨hbefore, (lookup_safe_iff hparse hlong).mp hreads, hlong⟩
  · rintro ⟨hbefore, hgiven, hlong⟩
    refine ⟨hlog.mpr ⟨hbefore, (lookup_safe_iff hparse hlong).mpr hgiven⟩,
      fun other lookup hfound ↦ ?_, hreleased⟩
    obtain ⟨rfl, rfl⟩ := Prod.mk.inj (Option.some.inj (hlookup.symm.trans hfound))
    exact (lookup_correct_iff hparse).mpr hlong

/-- The information elements of an entry are all its own. -/
theorem entry_given_inside {bss : CfgBss} (hbss : env.bss = some bss) :
    bss.toIes.given.Inside (sizes env bss.toIes.object) := by
  have hsize : sizes env bss.toIes.object = bss.iesLen := by simp [sizes, CfgBss.toIes, hbss]
  intro i hi
  have hinside := (given_holds bss.toIes i hi).2
  rwa [hsize, ← Nat.zero_add bss.iesLen]

theorem not_entry_of_none {entry : CfgBss → Prop} (h : env.bss = none) :
    ∀ bss, env.bss = some bss → entry bss := by
  intro bss hbss
  rw [h] at hbss
  cases hbss

/-- Every byte that `wl_update_bss_info` reads is inside, the period is that of a TIM element or of
the firmware, and the lock and the reference are released, if and only if the record lies inside
`extra_buf` and the first TIM element has a second byte. -/
theorem bss_info_update_iff (hparse : FindsFirst parseTlvs) (env : Environment) :
    (wlUpdateBssInfo parseTlvs env).Correct env ↔ env.Sound := by
  rcases wlUpdateBssInfo_cases parseTlvs env with
    ⟨bss, hbss, hresources, hlookup, hlog⟩ | ⟨hbss, hasked, log, err, hupdate, hsafe⟩ |
    ⟨hasked, hsearched, log, err, hupdate, hsafe⟩ | ⟨hsearched, hresources, hlookup, hlog⟩
  · have hheld : Ledger.Holds [.acquire Resource.bss, .acquire .rtnl] {.rtnl, .bss} :=
      (Ledger.holds_nil.acquire (by simp)).acquire (by simp)
    have hasked : ¬env.Asked := fun h ↦ by cases hbss.symm.trans h.1
    have hreads : Safe (sizes env) (wlUpdateBssInfo parseTlvs env).log ↔ True ∧
        Safe (sizes env) ((lookupDtimPeriod parseTlvs env bss.toIes).log bss.toIes) := by
      rw [hlog, true_and]
    rw [searched_correct_iff hparse hlookup hreads (hresources ▸ searched_accounted hheld)]
    constructor
    · rintro ⟨-, -, hlong⟩
      refine ⟨fun other hother ↦ ?_, fun h ↦ absurd h hasked, fun h ↦ absurd h.1 hasked⟩
      obtain rfl : bss = other := Option.some.inj (hbss.symm.trans hother)
      exact hlong
    · intro h
      exact ⟨trivial, entry_given_inside hbss, h.entry bss hbss⟩
  · rw [hupdate]
    exact iff_of_true ⟨hsafe, nofun, locked_accounted⟩
      ⟨not_entry_of_none hbss, fun h ↦ absurd h hasked, fun h ↦ absurd h.1 hasked⟩
  · rw [hupdate]
    constructor
    · intro h
      exact ⟨not_entry_of_none hasked.1, fun _ ↦ hsafe.mp h.inside, fun h ↦ absurd h hsearched⟩
    · intro h
      exact ⟨hsafe.mpr (h.record hasked), nofun, locked_accounted⟩
  · have hheld : Ledger.Holds [.acquire Resource.rtnl, .acquire .bss] {.rtnl, .bss} := by
      rw [Finset.pair_comm]
      exact (Ledger.holds_nil.acquire (by simp)).acquire (by simp)
    rw [searched_correct_iff hparse hlookup hlog (hresources ▸ searched_accounted hheld)]
    constructor
    · rintro ⟨hfits, hies⟩
      exact ⟨not_entry_of_none hsearched.1.1, fun _ ↦ hfits, fun _ ↦ hies⟩
    · intro h
      exact ⟨h.record hsearched.1, h.recordIes hsearched⟩

end Update

/-! ## A TIM element without a second byte -/

/-- The list of cfg80211 has the BSS, with these information elements. -/
def listed (ies : List UInt8) : Environment where
  bss := some ⟨(ies.getD · 0), ies.length, 6⟩
  bssInfoErr := 0
  extraBuf := fun _ ↦ 0
  bssid := Vector.replicate 6 0
  scanRequest := false
  kernel := willing
  bssAgain := true
  dtimPrdErr := 0
  dtimPrd := 3

/-- An SSID and a TIM element with four bytes. -/
theorem bss_info_update_tim :
    (wlUpdateBssInfo parseFirst (listed [0, 1, 97, 5, 4, 0, 3, 0, 0])).Correct
      (listed [0, 1, 97, 5, 4, 0, 3, 0, 0]) := by
  refine (bss_info_update_iff (fun _ _ _ _ ↦ rfl) _).mpr ⟨fun bss hbss tim htim ↦ ?_, ?_, ?_⟩
  · cases hbss
    rw [Tlv.positions, if_pos (by decide), List.find?_cons_of_neg (by decide), Tlv.positions,
      if_pos (by decide), List.find?_cons_of_pos (by decide)] at htim
    cases htim
    decide
  · exact fun h ↦ by cases h.1
  · exact fun h ↦ by cases h.1.1

/-- The information elements end with a TIM element of length 0. -/
def emptyTim : CfgBss := ⟨([5, 0].getD · 0), 2, 6⟩

theorem lookup_emptyTim : lookupDtimPeriod parseFirst (listed [5, 0]) emptyTim.toIes =
    ⟨[⟨0, 2⟩, ⟨3, 1⟩], 0, some (.byte 3 0)⟩ := by
  have hbuflen : emptyTim.toIes.buflen = 2 := by decide
  have hfind : parseFirst emptyTim.ies 0 2 wlanEidTim = some 0 := by
    rw [parseFirst, Tlv.positions, if_pos (by decide), List.find?_cons_of_pos (by decide)]
  unfold lookupDtimPeriod
  rw [hbuflen, CfgBss.toIes, hfind]
  rfl

theorem emptyTim_not_correct :
    (wlUpdateBssInfo parseFirst (listed [5, 0])).log =
        [⟨.entry, ⟨0, 2⟩⟩, ⟨.entry, ⟨3, 1⟩⟩] ∧
      ¬(wlUpdateBssInfo parseFirst (listed [5, 0])).Correct (listed [5, 0]) := by
  have hlog : (wlUpdateBssInfo parseFirst (listed [5, 0])).log =
      [⟨.entry, ⟨0, 2⟩⟩, ⟨.entry, ⟨3, 1⟩⟩] :=
    congrArg (fun lookup : Lookup ↦ lookup.log emptyTim.toIes) lookup_emptyTim
  refine ⟨hlog, fun h ↦ ?_⟩
  have hinside := h.inside
  rw [hlog, safe_cons, safe_cons] at hinside
  exact absurd hinside.2.1 (by decide)

end BroadcomWl.Cfg80211.BssInfoUpdate
