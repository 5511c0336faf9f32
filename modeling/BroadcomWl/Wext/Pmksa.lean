import BroadcomWl.Cfg80211.PmksaMap
import BroadcomWl.Systems.Machine

/-!
# The PMK list of the wireless extensions

`wl_iw_set_pmksa` keeps a list of its own, the global `pmkid_list`: an unsigned count and
`MAXPMKID` slots. The slots behind them stand for the memory behind the list. Every request is
made of the list and of the cache of cfg80211 in turn, to compare both.

An addition appends without looking for the BSSID or for room, and a removal takes one from
the count whether it found the BSSID or not. So the two agree as long as only new BSSIDs are
added and only known ones removed, and the list is never full when that happens.
-/

namespace BroadcomWl.Wext.Pmksa

open BroadcomWl.Memory BroadcomWl.Systems BroadcomWl.Cfg80211.Pmksa
open BroadcomWl.Cfg80211 (EtherAddr)

def iwPmksaAdd : UInt32 := 1
def iwPmksaRemove : UInt32 := 2
def iwPmksaFlush : UInt32 := 3

/-- `struct iw_pmksa`. -/
structure IwPmksa where
  cmd : UInt32
  bssid : EtherAddr
  pmkid : Vector UInt8 16
deriving DecidableEq

/-- The global `pmkid_list`. -/
structure PmkidList where
  npmkid : UInt32
  pmkid : ℕ → Pmkid

/-- The announced entries as those of the cache. -/
def PmkidList.view (list : PmkidList) : PmkList := ⟨list.npmkid.toNat, list.pmkid⟩

/-- The global list, and the list of `REMOVE` on the stack. -/
inductive Table where
  | pmkidList
  | localPmkid
deriving DecidableEq, Repr

/-- An entry that is read or written. -/
structure Access where
  table : Table
  slot : ℕ
deriving DecidableEq, Repr

/-- `MAXPMKID` slots, or the one that `REMOVE` fills. -/
def Table.slots : Table → ℕ
  | .pmkidList => maxpmkid
  | .localPmkid => 1

/-- `bzero` of the whole list; it has the layout of the cache. -/
def flushList (list : PmkidList) : PmkidList × List Access :=
  (⟨0, list.view.zeroed.pmkid⟩, (List.range maxpmkid).map (⟨.pmkidList, ·⟩))

/-- The loop that moves `count` entries down, from slot `i` on. -/
def shiftDown : ℕ → ℕ → (ℕ → Pmkid) → (ℕ → Pmkid) × List Access
  | 0, _, pmkid => (pmkid, [])
  | count + 1, i, pmkid =>
      let (shifted, accesses) := shiftDown count (i + 1) (Function.update pmkid i (pmkid (i + 1)))
      (shifted, ⟨.pmkidList, i + 1⟩ :: ⟨.pmkidList, i⟩ :: accesses)

/-- `IW_PMKSA_REMOVE`: fill the local list, search, move the entries behind down, and count one
less. -/
def removePmkid (bssid : EtherAddr) (list : PmkidList) : PmkidList × List Access :=
  let i := list.view.search bssid
  let searched := (List.range (min (i + 1) list.npmkid.toNat)).map (⟨.pmkidList, ·⟩)
  let (shifted, accesses) := shiftDown (list.npmkid.toNat - i) i list.pmkid
  (⟨list.npmkid - 1, shifted⟩, ⟨.localPmkid, 0⟩ :: searched ++ accesses)

/-- `IW_PMKSA_ADD`: fill the slot behind the last one and count one more. -/
def addPmkid (bssid : EtherAddr) (pmkid : Vector UInt8 16) (list : PmkidList) :
    PmkidList × List Access :=
  (⟨list.npmkid + 1, Function.update list.pmkid list.npmkid.toNat ⟨bssid, pmkid⟩⟩,
    [⟨.pmkidList, list.npmkid.toNat⟩])

/-- `wl_iw_set_pmksa` returns 0 with this list, which it sends as `pmkid_info`. The entries it
copied or compared are listed. -/
def wlIwSetPmksa (iwpmksa : IwPmksa) (list : PmkidList) : PmkidList × List Access :=
  if iwpmksa.cmd = iwPmksaFlush then flushList list
  else if iwpmksa.cmd = iwPmksaRemove then removePmkid iwpmksa.bssid list
  else if iwpmksa.cmd = iwPmksaAdd then addPmkid iwpmksa.bssid iwpmksa.pmkid list
  else (list, [])

/-! ## Both interfaces in turn -/

/-- The call of cfg80211 for the request. -/
def IwPmksa.call (iwpmksa : IwPmksa) (answer : ℤ) : Option Call :=
  if iwpmksa.cmd = iwPmksaFlush then some (.flush answer)
  else if iwpmksa.cmd = iwPmksaRemove then some (.del iwpmksa.bssid iwpmksa.pmkid answer)
  else if iwpmksa.cmd = iwPmksaAdd then some (.set iwpmksa.bssid iwpmksa.pmkid answer)
  else none

/-- The list of the wireless extensions and the cache of cfg80211. -/
structure Both where
  list : PmkidList
  cache : Cfg80211.Pmksa.State

/-- One request, with the firmware's answer to the call of cfg80211. -/
structure Request where
  iwpmksa : IwPmksa
  answer : ℤ

/-- The cache after the request. -/
def Request.apply (request : Request) (cache : Cfg80211.Pmksa.State) : Cfg80211.Pmksa.State :=
  ((request.iwpmksa.call request.answer).map (Cfg80211.Pmksa.apply cache)).getD cache

/-- The zeroed list, and a cache fresh from `kzalloc`. -/
def machine : Machine Both Request where
  initial both := both.list.npmkid = 0 ∧ ∃ memory, both.cache = allocated memory
  step both request :=
    some ⟨(wlIwSetPmksa request.iwpmksa both.list).1, request.apply both.cache⟩

/-- After the request the list is a bounded map with the entries of the cache, a removal has
deleted the entry of its BSSID and no other, and no entry outside the tables was touched. -/
structure Agrees (both : Both) (request : Request) : Prop where
  bounded : (wlIwSetPmksa request.iwpmksa both.list).1.npmkid.toNat ≤ maxpmkid
  distinct : (wlIwSetPmksa request.iwpmksa both.list).1.view.bssids.Nodup
  entries : (wlIwSetPmksa request.iwpmksa both.list).1.view.entries =
    (request.apply both.cache).list.entries
  removed : request.iwpmksa.cmd = iwPmksaRemove →
    (wlIwSetPmksa request.iwpmksa both.list).1.view.entries =
      both.list.view.entries.filter fun entry ↦ entry.1 ≠ request.iwpmksa.bssid
  inside : ∀ access ∈ (wlIwSetPmksa request.iwpmksa both.list).2,
    access.slot < access.table.slots

/-- Only new BSSIDs are added and only known ones removed, while a slot is free. -/
def Cautious (both : Both) (request : Request) : Prop :=
  (request.iwpmksa.cmd = iwPmksaAdd →
      request.iwpmksa.bssid ∉ both.list.view.bssids ∧ both.list.npmkid.toNat < maxpmkid) ∧
    (request.iwpmksa.cmd = iwPmksaRemove →
      request.iwpmksa.bssid ∈ both.list.view.bssids ∧ both.list.npmkid.toNat < maxpmkid)

/-- The list and the cache refine the same map. -/
def Matching (both : Both) : Prop :=
  ∃ map : PmkMap, Refines both.list.view map ∧ Refines both.cache.list map

/-! ## The loop of `REMOVE` -/

theorem shiftDown_pmkid (count i : ℕ) (pmkid : ℕ → Pmkid) (j : ℕ) :
    (shiftDown count i pmkid).1 j = if i ≤ j ∧ j < i + count then pmkid (j + 1) else pmkid j := by
  induction count generalizing i pmkid with
  | zero => rw [shiftDown, if_neg (by omega)]
  | succ count ih =>
    rw [shiftDown]
    dsimp only
    rw [ih]
    by_cases hplace : j = i
    · subst hplace
      rw [if_neg (by omega), if_pos (by omega), Function.update_self]
    · by_cases hbehind : i + 1 ≤ j ∧ j < i + 1 + count
      · rw [if_pos hbehind, if_pos (by omega), Function.update_of_ne (by omega)]
      · rw [if_neg hbehind, if_neg (by omega), Function.update_of_ne hplace]

/-- The loop touches the slots from `i` to `i + count`. -/
theorem shiftDown_accesses (count i : ℕ) (pmkid : ℕ → Pmkid) :
    (∀ access ∈ (shiftDown count i pmkid).2,
        access.table = .pmkidList ∧ access.slot ≤ i + count) ∧
      (0 < count → ⟨.pmkidList, i + count⟩ ∈ (shiftDown count i pmkid).2) := by
  induction count generalizing i pmkid with
  | zero => exact ⟨fun _ hmem ↦ absurd hmem List.not_mem_nil, fun h ↦ absurd h (by decide)⟩
  | succ count ih =>
    obtain ⟨hslots, hlast⟩ := ih (i + 1) (Function.update pmkid i (pmkid (i + 1)))
    rw [shiftDown]
    dsimp only
    constructor
    · intro access hmem
      rcases List.mem_cons.mp hmem with rfl | hmem
      · exact ⟨rfl, by dsimp only; omega⟩
      · rcases List.mem_cons.mp hmem with rfl | hmem
        · exact ⟨rfl, by dsimp only; omega⟩
        · obtain ⟨htable, hslot⟩ := hslots access hmem
          exact ⟨htable, by omega⟩
    · intro _
      rcases Nat.eq_zero_or_pos count with rfl | hpos
      · exact List.mem_cons_self
      · have hmem := hlast hpos
        rw [Nat.add_right_comm, Nat.add_assoc] at hmem
        exact List.mem_cons_of_mem _ (List.mem_cons_of_mem _ hmem)

theorem npmkid_le_of_refines {list : PmkidList} {map : PmkMap} (h : Refines list.view map) :
    list.npmkid.toNat ≤ maxpmkid :=
  le_of_eq_of_le h.npmkid map.length_le

/-! ## One request -/

section Request

variable {both : Both} {request : Request} {map : PmkMap}

/-- An addition with a free slot appends the entry. -/
theorem addPmkid_entries {list : PmkidList} (hroom : list.npmkid.toNat < maxpmkid)
    (bssid : EtherAddr) (pmkid : Vector UInt8 16) :
    (addPmkid bssid pmkid list).1.view.entries = list.view.entries ++ [(bssid, pmkid)] := by
  have hcount : (list.npmkid + 1).toNat = list.npmkid.toNat + 1 := by
    have hsmall : list.npmkid.toNat + 1 < 2 ^ 32 :=
      Nat.lt_trans (Nat.succ_lt_succ hroom) (by decide)
    rw [UInt32.toNat_add]
    exact Nat.mod_eq_of_lt hsmall
  have hstore : (addPmkid bssid pmkid list).1.view =
      list.view.store list.view.npmkid ⟨bssid, pmkid⟩ := by
    refine PmkList.ext ?_ rfl
    rw [PmkList.store, if_pos rfl]
    exact hcount
  rw [hstore, PmkList.entries_store_npmkid]

/-- A removal that finds its BSSID deletes the entry. -/
theorem removePmkid_entries {list : PmkidList} {bssid : EtherAddr}
    (hnodup : list.view.bssids.Nodup) (hmem : bssid ∈ list.view.bssids) :
    (removePmkid bssid list).1.view.entries =
      list.view.entries.filter fun entry ↦ entry.1 ≠ bssid := by
  have hfound : list.view.search bssid < list.npmkid.toNat := PmkList.search_lt_iff.mpr hmem
  have hcount : (list.npmkid - 1).toNat = list.npmkid.toNat - 1 := by
    refine UInt32.toNat_sub_of_le _ _ ?_
    rw [UInt32.le_iff_toNat_le]
    exact Nat.one_le_of_lt hfound
  rw [← PmkList.entries_delete hnodup hfound]
  unfold PmkList.entries
  have hdeleted : (removePmkid bssid list).1.view.npmkid =
      (list.view.delete (list.view.search bssid)).npmkid := hcount
  rw [hdeleted]
  refine List.map_congr_left fun j hj ↦ ?_
  have hj : j < list.npmkid.toNat - 1 := List.mem_range.mp hj
  have hshifted : (removePmkid bssid list).1.view.pmkid j =
      (shiftDown (list.npmkid.toNat - list.view.search bssid) (list.view.search bssid)
        list.pmkid).1 j := rfl
  have hfound : list.view.search bssid < list.view.npmkid := hfound
  have hdelete : (list.view.delete (list.view.search bssid)).pmkid j =
      if list.view.search bssid ≤ j then list.pmkid (j + 1) else list.pmkid j := by
    dsimp only [PmkList.delete]
    by_cases hbehind : list.view.search bssid ≤ j
    · rw [if_pos ⟨hbehind, hj⟩, if_pos hbehind]
      rfl
    · rw [if_neg fun h ↦ hbehind h.1, if_neg (by omega), if_neg hbehind]
      rfl
  rw [hshifted, shiftDown_pmkid, hdelete]
  by_cases hbehind : list.view.search bssid ≤ j
  · rw [if_pos ⟨hbehind, by omega⟩, if_pos hbehind]
  · rw [if_neg fun h ↦ hbehind h.1, if_neg hbehind]

/-- A removal that finds nothing takes one from the count all the same. -/
theorem removePmkid_length (bssid : EtherAddr) (list : PmkidList) :
    (removePmkid bssid list).1.view.entries.length ≠ list.view.entries.length := by
  rw [PmkList.length_entries, PmkList.length_entries]
  have hcount : (removePmkid bssid list).1.view.npmkid = (list.npmkid - 1).toNat := rfl
  rw [hcount]
  exact fun heq ↦ absurd (UInt32.toNat_inj.mp heq) (by grind)

/-- The slots of a removal lie in the tables exactly when the loop does not reach the last
slot. -/
theorem removePmkid_inside {list : PmkidList} {bssid : EtherAddr}
    (hmem : bssid ∈ list.view.bssids) :
    (∀ access ∈ (removePmkid bssid list).2, access.slot < access.table.slots) ↔
      list.npmkid.toNat < maxpmkid := by
  have hfound : list.view.search bssid < list.npmkid.toNat := PmkList.search_lt_iff.mpr hmem
  obtain ⟨hslots, hlast⟩ := shiftDown_accesses (list.npmkid.toNat - list.view.search bssid)
    (list.view.search bssid) list.pmkid
  have hend : list.view.search bssid + (list.npmkid.toNat - list.view.search bssid) =
      list.npmkid.toNat := by omega
  rw [hend] at hslots hlast
  unfold removePmkid
  constructor
  · intro hinside
    exact hinside _ (List.mem_cons_of_mem _ (List.mem_append_right _ (hlast (by omega))))
  · intro hroom access haccess
    rcases List.mem_cons.mp haccess with rfl | haccess
    · decide
    · rcases List.mem_append.mp haccess with hsearched | hshifted
      · obtain ⟨slot, hslot, rfl⟩ := List.mem_map.mp hsearched
        have hslot := List.mem_range.mp hslot
        dsimp only [Table.slots]
        omega
      · obtain ⟨htable, hslot⟩ := hslots access hshifted
        rw [htable]
        exact Nat.lt_of_le_of_lt hslot hroom

theorem Request.apply_of_call {call : Call} (h : request.iwpmksa.call request.answer = some call)
    (cache : Cfg80211.Pmksa.State) : request.apply cache = Cfg80211.Pmksa.apply cache call := by
  rw [Request.apply, h]
  rfl

/-- What the request leaves behind when it agrees: both refine the updated map. -/
theorem matching_of_agrees (hmatch : Matching both) (hagrees : Agrees both request) :
    Matching ⟨(wlIwSetPmksa request.iwpmksa both.list).1, request.apply both.cache⟩ := by
  obtain ⟨map, _, hcache⟩ := hmatch
  have hrefines : ∃ next, Refines (request.apply both.cache).list next := by
    unfold Request.apply
    cases request.iwpmksa.call request.answer with
    | none => exact ⟨map, hcache⟩
    | some call => exact ⟨call.update map, hcache.apply call⟩
  obtain ⟨next, hnext⟩ := hrefines
  exact ⟨next, hagrees.entries.trans hnext, hnext⟩

/-- Where the list and the cache refine the same map again, only the removed entry and the accesses
are left to look at. -/
theorem agrees_of_refines {next : PmkMap}
    (hlist : Refines (wlIwSetPmksa request.iwpmksa both.list).1.view next)
    (hcache : Refines (request.apply both.cache).list next)
    (hremoved : request.iwpmksa.cmd = iwPmksaRemove →
      (wlIwSetPmksa request.iwpmksa both.list).1.view.entries =
        both.list.view.entries.filter fun entry ↦ entry.1 ≠ request.iwpmksa.bssid)
    (hinside : ∀ access ∈ (wlIwSetPmksa request.iwpmksa both.list).2,
      access.slot < access.table.slots) : Agrees both request :=
  ⟨npmkid_le_of_refines hlist, hlist.nodup, hlist.trans hcache.symm, hremoved, hinside⟩

theorem agrees_iff_add (hmatch : Matching both) (hcmd : request.iwpmksa.cmd = iwPmksaAdd) :
    Agrees both request ↔
      request.iwpmksa.bssid ∉ both.list.view.bssids ∧ both.list.npmkid.toNat < maxpmkid := by
  obtain ⟨map, hlist, hcache⟩ := hmatch
  have hnew : wlIwSetPmksa request.iwpmksa both.list =
      addPmkid request.iwpmksa.bssid request.iwpmksa.pmkid both.list := by
    unfold wlIwSetPmksa
    rw [hcmd]
    rfl
  have hcall : request.iwpmksa.call request.answer =
      some (.set request.iwpmksa.bssid request.iwpmksa.pmkid request.answer) := by
    unfold IwPmksa.call
    rw [hcmd]
    rfl
  have hbssids : both.list.npmkid.toNat < maxpmkid →
      (wlIwSetPmksa request.iwpmksa both.list).1.view.bssids =
        both.list.view.bssids ++ [request.iwpmksa.bssid] := by
    intro hroom
    rw [hnew, PmkList.bssids_eq, addPmkid_entries hroom, PmkList.bssids_eq, List.map_append]
    rfl
  constructor
  · intro hagrees
    have hroom : both.list.npmkid.toNat < maxpmkid :=
      hagrees.inside ⟨.pmkidList, both.list.npmkid.toNat⟩ (by rw [hnew]; exact List.mem_cons_self)
    have hdistinct := hagrees.distinct
    rw [hbssids hroom] at hdistinct
    exact ⟨fun hmem ↦ (List.nodup_append.mp hdistinct).2.2 _ hmem _ List.mem_cons_self rfl, hroom⟩
  · rintro ⟨habsent, hroom⟩
    have hkeys : request.iwpmksa.bssid ∉ map.keys := hlist.bssids ▸ habsent
    have hspace : map.entries.length < maxpmkid := hlist.npmkid ▸ hroom
    obtain ⟨next, hput, hentries⟩ :=
      BoundedMap.put_of_notMem request.iwpmksa.pmkid hkeys hspace
    have hstored := hcache.apply (.set request.iwpmksa.bssid request.iwpmksa.pmkid request.answer)
    rw [← Request.apply_of_call hcall, Call.update, Call.perform, hput] at hstored
    have hrefines : (wlIwSetPmksa request.iwpmksa both.list).1.view.entries = next.entries := by
      rw [hnew, addPmkid_entries hroom, hlist, hentries]
    refine agrees_of_refines hrefines hstored ?_ ?_
    · intro hremove
      exact absurd (hcmd.symm.trans hremove) (by decide)
    · intro access haccess
      rw [hnew] at haccess
      rw [List.mem_singleton.mp haccess]
      exact hroom

theorem agrees_iff_remove (hmatch : Matching both) (hcmd : request.iwpmksa.cmd = iwPmksaRemove) :
    Agrees both request ↔
      request.iwpmksa.bssid ∈ both.list.view.bssids ∧ both.list.npmkid.toNat < maxpmkid := by
  obtain ⟨map, hlist, hcache⟩ := hmatch
  have hnew : wlIwSetPmksa request.iwpmksa both.list =
      removePmkid request.iwpmksa.bssid both.list := by
    unfold wlIwSetPmksa
    rw [hcmd]
    rfl
  have hcall : request.iwpmksa.call request.answer =
      some (.del request.iwpmksa.bssid request.iwpmksa.pmkid request.answer) := by
    unfold IwPmksa.call
    rw [hcmd]
    rfl
  have happlied := hcache.apply (.del request.iwpmksa.bssid request.iwpmksa.pmkid request.answer)
  rw [← Request.apply_of_call hcall, Call.update, Call.perform] at happlied
  constructor
  · intro hagrees
    have hmem : request.iwpmksa.bssid ∈ both.list.view.bssids := by
      by_contra habsent
      have hkeys : request.iwpmksa.bssid ∉ map.keys := hlist.bssids ▸ habsent
      rw [BoundedMap.remove_eq_none_iff.mpr hkeys] at happlied
      have hentries := hagrees.entries
      rw [hnew] at hentries
      exact removePmkid_length request.iwpmksa.bssid both.list
        (congrArg List.length (hentries.trans (happlied.trans hlist.symm)))
    refine ⟨hmem, (removePmkid_inside hmem).mp ?_⟩
    rw [← hnew]
    exact hagrees.inside
  · rintro ⟨hmem, hroom⟩
    have hkeys : request.iwpmksa.bssid ∈ map.keys := hlist.bssids ▸ hmem
    obtain ⟨next, hremove, hentries⟩ := BoundedMap.remove_of_mem hkeys
    rw [hremove] at happlied
    have hfiltered := removePmkid_entries hlist.nodup hmem
    have hrefines : (wlIwSetPmksa request.iwpmksa both.list).1.view.entries = next.entries := by
      rw [hnew, hfiltered, hlist, hentries]
    refine agrees_of_refines hrefines happlied ?_ ?_
    · intro _
      rw [hnew]
      exact hfiltered
    · rw [hnew]
      exact (removePmkid_inside hmem).mpr hroom

/-- A request that neither adds nor removes always agrees. -/
theorem agrees_of_other (hmatch : Matching both) (hadd : request.iwpmksa.cmd ≠ iwPmksaAdd)
    (hremove : request.iwpmksa.cmd ≠ iwPmksaRemove) : Agrees both request := by
  obtain ⟨map, hlist, hcache⟩ := hmatch
  by_cases hflush : request.iwpmksa.cmd = iwPmksaFlush
  · have hnew : wlIwSetPmksa request.iwpmksa both.list = flushList both.list := by
      rw [wlIwSetPmksa, if_pos hflush]
    have hcall : request.iwpmksa.call request.answer = some (.flush request.answer) := by
      rw [IwPmksa.call, if_pos hflush]
    have happlied := hcache.apply (.flush request.answer)
    rw [← Request.apply_of_call hcall] at happlied
    refine agrees_of_refines ?_ happlied (fun h ↦ absurd h hremove) ?_
    · rw [hnew]
      rfl
    · intro access haccess
      rw [hnew] at haccess
      obtain ⟨slot, hslot, rfl⟩ := List.mem_map.mp haccess
      exact List.mem_range.mp hslot
  · have hnew : wlIwSetPmksa request.iwpmksa both.list = (both.list, []) := by
      rw [wlIwSetPmksa, if_neg hflush, if_neg hremove, if_neg hadd]
    have hcall : request.iwpmksa.call request.answer = none := by
      rw [IwPmksa.call, if_neg hflush, if_neg hremove, if_neg hadd]
    have happly : request.apply both.cache = both.cache := by
      rw [Request.apply, hcall]
      rfl
    refine agrees_of_refines ?_ (happly.symm ▸ hcache) (fun h ↦ absurd h hremove) ?_
    · rw [hnew]
      exact hlist
    · rw [hnew]
      exact fun _ hmem ↦ absurd hmem List.not_mem_nil

theorem agrees_iff_cautious (hmatch : Matching both) :
    Agrees both request ↔ Cautious both request := by
  unfold Cautious
  by_cases hadd : request.iwpmksa.cmd = iwPmksaAdd
  · have hremove : request.iwpmksa.cmd ≠ iwPmksaRemove := by
      rw [hadd]
      decide
    rw [agrees_iff_add hmatch hadd]
    exact ⟨fun h ↦ ⟨fun _ ↦ h, fun h' ↦ absurd h' hremove⟩, fun h ↦ h.1 hadd⟩
  · by_cases hremove : request.iwpmksa.cmd = iwPmksaRemove
    · rw [agrees_iff_remove hmatch hremove]
      exact ⟨fun h ↦ ⟨fun h' ↦ absurd h' hadd, fun _ ↦ h⟩, fun h ↦ h.2 hremove⟩
    · exact iff_of_true (agrees_of_other hmatch hadd hremove)
        ⟨fun h ↦ absurd h hadd, fun h ↦ absurd h hremove⟩

end Request

/-! ## Every sequence of requests -/

/-- From the zeroed list on, every request of a sequence agrees with cfg80211 if and only if every
request is cautious. -/
theorem wext_pmksa_agrees_iff {both : Both} (hinitial : machine.initial both)
    (requests : List Request) :
    machine.Along Agrees both requests ↔ machine.Along Cautious both requests := by
  have hmatching : Matching both := by
    obtain ⟨hzero, memory, hcache⟩ := hinitial
    refine ⟨.empty, ?_, ?_⟩
    · have hcount : both.list.view.npmkid = 0 := congrArg UInt32.toNat hzero
      rw [Refines, PmkList.entries, hcount]
      rfl
    · rw [hcache]
      exact refines_calls memory []
  refine @Machine.along_congr _ _ _ Matching _ _ ?_ ?_ _ _ hmatching
  · exact fun both request hmatch ↦ agrees_iff_cautious hmatch
  · rintro both request _ hmatch hagrees ⟨⟩
    exact matching_of_agrees hmatch hagrees

def noMemory : PmkList := ⟨0, fun _ ↦ ⟨.replicate 6 0, .replicate 16 0⟩⟩

/-- The zeroed list and a fresh cache. -/
def start : Both := ⟨⟨0, noMemory.pmkid⟩, allocated noMemory⟩

def accessPoint : EtherAddr := #v[2, 0, 0, 0, 0, 7]

def request (cmd : UInt32) : Request := ⟨⟨cmd, accessPoint, .replicate 16 1⟩, 0⟩

/-- Adding a network and removing it again is cautious. -/
theorem wext_pmksa_agrees_add_remove :
    machine.Along Agrees start [request iwPmksaAdd, request iwPmksaRemove] := by
  refine (@wext_pmksa_agrees_iff start ⟨rfl, noMemory, rfl⟩ _).mpr ⟨⟨?_, ?_⟩, ?_⟩
  · exact fun _ ↦ by decide
  · exact fun h ↦ absurd h (by decide)
  · rintro _ ⟨⟩
    refine ⟨⟨fun h ↦ absurd h (by decide), fun _ ↦ by decide⟩, fun _ _ ↦ trivial⟩

/-- Removing from the zeroed list makes the count wrap; adding a network twice stores it twice. -/
theorem wext_pmksa_disagrees :
    (wlIwSetPmksa (request iwPmksaRemove).iwpmksa start.list).1.npmkid = 0xFFFFFFFF ∧
      ¬machine.Along Agrees start [request iwPmksaRemove] ∧
      ¬machine.Along Agrees start [request iwPmksaAdd, request iwPmksaAdd] := by
  refine ⟨by decide, fun halong ↦ ?_, fun halong ↦ ?_⟩
  · exact absurd halong.1.bounded (by decide)
  · exact absurd (halong.2 _ rfl).1.distinct (by decide)

end BroadcomWl.Wext.Pmksa
