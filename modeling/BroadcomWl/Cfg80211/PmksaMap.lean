import BroadcomWl.Cfg80211.Pmksa
import BroadcomWl.Memory.BoundedMap

/-!
# The PMK cache as a finite map

The announced entries of `wl->pmk_list` refine a map from BSSIDs to PMKIDs with room for
`MAXPMKID` of them. Every call of cfg80211 either performs the operation of the map, and
returns the firmware's answer, or is refused by the map, and then leaves the list alone and
returns `-EINVAL`.
-/

namespace BroadcomWl.Cfg80211.Pmksa

open BroadcomWl.Memory

attribute [ext] PmkList

/-- What the cache is for. -/
abbrev PmkMap := BoundedMap EtherAddr (Vector UInt8 16) maxpmkid

/-- The operation of the map that a call asks for; `none` when the map refuses it. -/
def Call.perform (map : PmkMap) : Call → Option PmkMap
  | .set bssid pmkid _ => map.put bssid pmkid
  | .del bssid _ _ => map.remove bssid
  | .flush _ => some .empty

/-- The map after a call. -/
def Call.update (map : PmkMap) (call : Call) : PmkMap := (call.perform map).getD map

def Call.answer : Call → ℤ
  | .set _ _ answer => answer
  | .del _ _ answer => answer
  | .flush answer => answer

/-- A call with its return value. -/
def execute (state : State) : Call → ℤ × State
  | .set bssid pmkid answer => wlCfg80211SetPmksa bssid pmkid answer state
  | .del bssid _ answer => wlCfg80211DelPmksa bssid answer state
  | .flush answer => wlCfg80211FlushPmksa answer state

theorem apply_eq_execute (state : State) (call : Call) :
    apply state call = (execute state call).2 := by
  cases call with
  | set | del | flush => rfl

/-! ## The announced entries -/

def Pmkid.entry (pmkid : Pmkid) : EtherAddr × Vector UInt8 16 := (pmkid.BSSID, pmkid.PMKID)

/-- The first `npmkid` entries. -/
def PmkList.entries (list : PmkList) : List (EtherAddr × Vector UInt8 16) :=
  (List.range list.npmkid).map fun i ↦ (list.pmkid i).entry

theorem PmkList.bssids_eq (list : PmkList) : list.bssids = list.entries.map Prod.fst := by
  unfold PmkList.bssids PmkList.entries
  rw [List.map_map]
  rfl

@[simp]
theorem PmkList.length_entries (list : PmkList) : list.entries.length = list.npmkid := by
  simp [PmkList.entries]

/-- Distinct entries have distinct BSSIDs. -/
theorem PmkList.eq_of_bssid_eq {list : PmkList} (hnodup : list.bssids.Nodup) {i j : ℕ}
    (hi : i < list.npmkid) (hj : j < list.npmkid)
    (h : (list.pmkid i).BSSID = (list.pmkid j).BSSID) : i = j :=
  List.inj_on_of_nodup_map hnodup (List.mem_range.mpr hi) (List.mem_range.mpr hj) h

/-- Storing under a known BSSID overwrites its entry in place. -/
theorem PmkList.entries_store_of_lt {list : PmkList} (hnodup : list.bssids.Nodup)
    {bssid : EtherAddr} (h : list.search bssid < list.npmkid) (pmkid : Vector UInt8 16) :
    (list.store (list.search bssid) ⟨bssid, pmkid⟩).entries =
      BoundedMap.overwrite bssid pmkid list.entries := by
  have hfound := PmkList.bssid_search h
  unfold PmkList.store PmkList.entries BoundedMap.overwrite
  rw [if_neg (Nat.ne_of_lt h), List.map_map]
  refine List.map_congr_left fun i hi ↦ ?_
  by_cases hplace : i = list.search bssid
  · simp [hplace, hfound, Pmkid.entry]
  · have hother : (list.pmkid i).BSSID ≠ bssid := fun heq ↦
      hplace (PmkList.eq_of_bssid_eq hnodup (List.mem_range.mp hi) h (heq.trans hfound.symm))
    simp [hplace, hother, Pmkid.entry]

/-- Storing behind the last entry appends an entry. -/
theorem PmkList.entries_store_npmkid (list : PmkList) (bssid : EtherAddr)
    (pmkid : Vector UInt8 16) :
    (list.store list.npmkid ⟨bssid, pmkid⟩).entries = list.entries ++ [(bssid, pmkid)] := by
  unfold PmkList.store PmkList.entries
  rw [if_pos rfl]
  exact map_range_succ_update Pmkid.entry list.pmkid list.npmkid ⟨bssid, pmkid⟩

/-! ## Deletion -/

theorem moveDown_npmkid (count i : ℕ) (state : State) :
    (moveDown count i state).list.npmkid = state.list.npmkid := by
  induction count generalizing i state with
  | zero => rfl
  | succ count ih =>
    rw [moveDown, ih]
    rfl

/-- The loop moves the entries behind `i` down by one place. -/
theorem moveDown_pmkid (count i : ℕ) (state : State) (j : ℕ) :
    (moveDown count i state).list.pmkid j =
      if i ≤ j ∧ j < i + count then state.list.pmkid (j + 1) else state.list.pmkid j := by
  induction count generalizing i state with
  | zero => rw [moveDown, if_neg (by omega)]
  | succ count ih =>
    have hread : (copyBssid i (state.list.pmkid (i + 1)).BSSID state).list.pmkid (i + 1) =
        state.list.pmkid (i + 1) := by
      simp [copyBssid, State.setEntry, State.write]
    rw [moveDown, hread, copyPmkid_copyBssid, ih]
    dsimp only [State.setEntry]
    by_cases hplace : j = i
    · subst hplace
      simp
    · by_cases hbehind : i + 1 ≤ j ∧ j < i + 1 + count
      · rw [if_pos hbehind, if_pos (by omega), Function.update_of_ne (by omega)]
      · rw [if_neg hbehind, if_neg (by omega), Function.update_of_ne hplace]

/-- The list after a deletion in place `i`: the entries behind it have moved down. -/
def PmkList.delete (list : PmkList) (i : ℕ) : PmkList where
  npmkid := list.npmkid - 1
  pmkid j :=
    if i ≤ j ∧ j < list.npmkid - 1 then list.pmkid (j + 1)
    else if j = i then ⟨Vector.replicate 6 0, Vector.replicate 16 0⟩ else list.pmkid j

/-- `wl_cfg80211_del_pmksa` of a known BSSID. -/
theorem wlCfg80211DelPmksa_of_lt {bssid : EtherAddr} {state : State}
    (h : state.list.search bssid < state.list.npmkid) (answer : ℤ) :
    (wlCfg80211DelPmksa bssid answer state).1 = answer ∧
      (wlCfg80211DelPmksa bssid answer state).2.list =
        state.list.delete (state.list.search bssid) := by
  have hlocal : (fillLocal state).list = state.list := rfl
  unfold wlCfg80211DelPmksa
  dsimp only
  rw [hlocal, if_pos ⟨Nat.zero_lt_of_lt h, h⟩]
  refine ⟨rfl, ?_⟩
  rw [wlUpdatePmklist_list]
  refine PmkList.ext (congrArg (· - 1) (moveDown_npmkid ..)) (funext fun j ↦ ?_)
  have hend : state.list.search bssid + (state.list.npmkid - 1 - state.list.search bssid) =
      state.list.npmkid - 1 := by omega
  dsimp only [PmkList.delete]
  rw [moveDown_pmkid, hend]
  by_cases hbehind : state.list.search bssid ≤ j ∧ j < state.list.npmkid - 1
  · rw [if_pos hbehind, if_pos hbehind]
    exact Function.update_of_ne (by omega) ..
  · rw [if_neg hbehind, if_neg hbehind]
    exact Function.update_apply ..

/-- The entries before a place, in it, and behind it. -/
theorem PmkList.entries_eq {list : PmkList} {place behind : ℕ}
    (hcount : list.npmkid = place + 1 + behind) :
    list.entries =
      (List.range place).map (fun i ↦ (list.pmkid i).entry) ++ [(list.pmkid place).entry] ++
        (List.range behind).map fun i ↦ (list.pmkid (place + 1 + i)).entry := by
  unfold PmkList.entries
  rw [hcount, List.range_add, List.range_succ, List.map_append, List.map_append,
    List.map_singleton, List.map_map]
  rfl

/-- A deletion leaves out the entry in the place. -/
theorem PmkList.entries_delete_eq {list : PmkList} {place behind : ℕ}
    (hcount : list.npmkid = place + 1 + behind) :
    (list.delete place).entries =
      (List.range place).map (fun i ↦ (list.pmkid i).entry) ++
        (List.range behind).map fun i ↦ (list.pmkid (place + 1 + i)).entry := by
  have hdeleted : (list.delete place).npmkid = place + behind := by
    calc
      list.npmkid - 1 = place + 1 + behind - 1 := by rw [hcount]
      _ = place + behind := by omega
  unfold PmkList.entries
  rw [hdeleted, List.range_add, List.map_append, List.map_map]
  congr 1
  · refine List.map_congr_left fun i hi ↦ ?_
    rw [List.mem_range] at hi
    dsimp only [PmkList.delete]
    rw [if_neg (by omega), if_neg (by omega)]
  · refine List.map_congr_left fun i hi ↦ ?_
    rw [List.mem_range] at hi
    dsimp only [PmkList.delete, Function.comp]
    rw [if_pos (by omega), Nat.add_right_comm]

theorem PmkList.filter_eq_self {list : PmkList} {bssid : EtherAddr} {places : List ℕ}
    {place : ℕ → ℕ} (h : ∀ i ∈ places, (list.pmkid (place i)).BSSID ≠ bssid) :
    (places.map fun i ↦ (list.pmkid (place i)).entry).filter (fun entry ↦ entry.1 ≠ bssid) =
      places.map fun i ↦ (list.pmkid (place i)).entry := by
  refine List.filter_eq_self.mpr fun entry hentry ↦ ?_
  obtain ⟨i, hi, rfl⟩ := List.mem_map.mp hentry
  exact decide_eq_true (h i hi)

/-- Deleting removes the one entry with the BSSID. -/
theorem PmkList.entries_delete {list : PmkList} (hnodup : list.bssids.Nodup)
    {bssid : EtherAddr} (h : list.search bssid < list.npmkid) :
    (list.delete (list.search bssid)).entries =
      list.entries.filter fun entry ↦ entry.1 ≠ bssid := by
  have hfound := PmkList.bssid_search h
  have hkept : ∀ i < list.npmkid, i ≠ list.search bssid → (list.pmkid i).BSSID ≠ bssid :=
    fun i hi hne heq ↦ hne (PmkList.eq_of_bssid_eq hnodup hi h (heq.trans hfound.symm))
  generalize list.search bssid = place at h hfound hkept ⊢
  obtain ⟨behind, hcount⟩ : ∃ behind, list.npmkid = place + 1 + behind :=
    ⟨list.npmkid - (place + 1), by omega⟩
  have hbefore : ∀ i ∈ List.range place, (list.pmkid i).BSSID ≠ bssid := by
    intro i hi
    rw [List.mem_range] at hi
    exact hkept i (by omega) (by omega)
  have hafter : ∀ i ∈ List.range behind, (list.pmkid (place + 1 + i)).BSSID ≠ bssid := by
    intro i hi
    rw [List.mem_range] at hi
    exact hkept (place + 1 + i) (by omega) (by omega)
  have hremoved : [(list.pmkid place).entry].filter (fun entry ↦ entry.1 ≠ bssid) = [] := by
    rw [List.filter_singleton]
    simp [Pmkid.entry, hfound]
  rw [PmkList.entries_delete_eq hcount, PmkList.entries_eq hcount, List.filter_append,
    List.filter_append, PmkList.filter_eq_self hbefore, hremoved, PmkList.filter_eq_self hafter,
    List.append_nil]

/-! ## Refinement -/

/-- The announced entries are those of the map. -/
def Refines (list : PmkList) (map : PmkMap) : Prop := list.entries = map.entries

theorem Refines.npmkid {list : PmkList} {map : PmkMap} (h : Refines list map) :
    list.npmkid = map.entries.length := by
  rw [← list.length_entries, h]

theorem Refines.bssids {list : PmkList} {map : PmkMap} (h : Refines list map) :
    list.bssids = map.keys := by
  rw [list.bssids_eq, h]
  rfl

theorem Refines.nodup {list : PmkList} {map : PmkMap} (h : Refines list map) :
    list.bssids.Nodup :=
  h.bssids ▸ map.nodup

theorem Refines.search_lt_iff {list : PmkList} {map : PmkMap} (h : Refines list map)
    {bssid : EtherAddr} : list.search bssid < list.npmkid ↔ bssid ∈ map.keys := by
  rw [PmkList.search_lt_iff, h.bssids]

section Execute

variable {state : State} {map next : PmkMap} {bssid : EtherAddr} {pmkid : Vector UInt8 16}
  {call : Call}

theorem Refines.set (h : Refines state.list map) (hput : map.put bssid pmkid = some next)
    (answer : ℤ) :
    (wlCfg80211SetPmksa bssid pmkid answer state).1 = answer ∧
      Refines (wlCfg80211SetPmksa bssid pmkid answer state).2.list next := by
  have hcount : state.list.npmkid ≤ maxpmkid := h.npmkid ▸ map.length_le
  by_cases hmem : bssid ∈ map.keys
  · have hfound := h.search_lt_iff.mpr hmem
    obtain ⟨stored, hstored, hentries⟩ := BoundedMap.put_of_mem pmkid hmem
    obtain rfl : stored = next := Option.some.inj (hstored.symm.trans hput)
    rw [wlCfg80211SetPmksa_of_lt (lt_of_lt_of_le hfound hcount), wlUpdatePmklist_list]
    refine ⟨rfl, ?_⟩
    calc
      (state.list.store (state.list.search bssid) ⟨bssid, pmkid⟩).entries
          = BoundedMap.overwrite bssid pmkid state.list.entries :=
        PmkList.entries_store_of_lt h.nodup hfound pmkid
      _ = stored.entries := by rw [h, hentries]
  · have hnew : state.list.search bssid = state.list.npmkid :=
      Nat.le_antisymm (state.list.search_le bssid)
        (Nat.le_of_not_lt (mt h.search_lt_iff.mp hmem))
    have hroom : map.entries.length < maxpmkid := by
      refine Nat.lt_of_le_of_ne map.length_le fun hfull ↦ ?_
      rw [BoundedMap.put_eq_none_iff.mpr ⟨hfull, hmem⟩] at hput
      cases hput
    obtain ⟨stored, hstored, hentries⟩ := BoundedMap.put_of_notMem pmkid hmem hroom
    obtain rfl : stored = next := Option.some.inj (hstored.symm.trans hput)
    have hlt : state.list.search bssid < wlNumPmkidsMax := by
      rw [hnew, h.npmkid]
      exact hroom
    rw [wlCfg80211SetPmksa_of_lt hlt, wlUpdatePmklist_list]
    refine ⟨rfl, ?_⟩
    calc
      (state.list.store (state.list.search bssid) ⟨bssid, pmkid⟩).entries
          = state.list.entries ++ [(bssid, pmkid)] := by
        rw [hnew, PmkList.entries_store_npmkid]
      _ = stored.entries := by rw [h, hentries]

theorem Refines.del (h : Refines state.list map) (hremove : map.remove bssid = some next)
    (answer : ℤ) :
    (wlCfg80211DelPmksa bssid answer state).1 = answer ∧
      Refines (wlCfg80211DelPmksa bssid answer state).2.list next := by
  have hmem : bssid ∈ map.keys := by
    by_contra hnot
    rw [BoundedMap.remove_eq_none_iff.mpr hnot] at hremove
    cases hremove
  have hfound := h.search_lt_iff.mpr hmem
  obtain ⟨removed, hremoved, hentries⟩ := BoundedMap.remove_of_mem hmem
  obtain rfl : removed = next := Option.some.inj (hremoved.symm.trans hremove)
  obtain ⟨hresult, hlist⟩ := wlCfg80211DelPmksa_of_lt hfound answer
  refine ⟨hresult, ?_⟩
  rw [hlist]
  calc
    (state.list.delete (state.list.search bssid)).entries
        = state.list.entries.filter fun entry ↦ entry.1 ≠ bssid :=
      PmkList.entries_delete h.nodup hfound
    _ = removed.entries := by rw [h, hentries]

/-- A call that the map performs is performed on the list and returns the firmware's answer. -/
theorem Refines.execute_of_some (h : Refines state.list map)
    (hperform : call.perform map = some next) :
    (execute state call).1 = call.answer ∧ Refines (execute state call).2.list next := by
  cases call with
  | set bssid pmkid answer => exact h.set hperform answer
  | del bssid pmkid answer => exact h.del hperform answer
  | flush answer =>
    cases hperform
    exact ⟨rfl, rfl⟩

/-- A call that the map refuses leaves the list alone and returns `-EINVAL`. -/
theorem Refines.execute_of_none (h : Refines state.list map)
    (hperform : call.perform map = none) :
    (execute state call).1 = -einval ∧ (execute state call).2.list = state.list := by
  cases call with
  | set bssid pmkid answer =>
    obtain ⟨hfull, hnew⟩ := BoundedMap.put_eq_none_iff.mp hperform
    have hplace : ¬state.list.search bssid < wlNumPmkidsMax := by
      have hge := mt h.search_lt_iff.mp hnew
      rw [h.npmkid, hfull] at hge
      exact hge
    rw [execute, wlCfg80211SetPmksa, if_neg hplace]
    exact ⟨rfl, rfl⟩
  | del bssid pmkid answer =>
    have hnew := mt h.search_lt_iff.mp (BoundedMap.remove_eq_none_iff.mp hperform)
    have hplace : ¬(0 < (fillLocal state).list.npmkid ∧
        (fillLocal state).list.search bssid < (fillLocal state).list.npmkid) :=
      fun hboth ↦ hnew hboth.2
    rw [execute, wlCfg80211DelPmksa, if_neg hplace]
    exact ⟨rfl, rfl⟩
  | flush answer => cases hperform

theorem Refines.apply (h : Refines state.list map) (call : Call) :
    Refines (Pmksa.apply state call).list (call.update map) := by
  rw [apply_eq_execute, Call.update]
  cases hperform : call.perform map with
  | none =>
    rw [(h.execute_of_none hperform).2]
    exact h
  | some next => exact (h.execute_of_some hperform).2

end Execute

theorem refines_foldl {state : State} {map : PmkMap} (h : Refines state.list map)
    (calls : List Call) :
    Refines (calls.foldl apply state).list (calls.foldl Call.update map) := by
  induction calls generalizing state map with
  | nil => exact h
  | cons call calls ih => exact ih (h.apply call)

/-- The map that a sequence of calls leaves behind. -/
def pmkMap (calls : List Call) : PmkMap := calls.foldl Call.update .empty

theorem refines_calls (memory : PmkList) (calls : List Call) :
    Refines (calls.foldl apply (allocated memory)).list (pmkMap calls) := by
  have hempty : Refines (allocated memory).list .empty := rfl
  exact refines_foldl hempty calls

/-- After every sequence of calls, with any firmware answers, the count is at most `MAXPMKID`,
the announced BSSIDs are distinct, and the announced entries are those of the map. A call that
the map performs returns the firmware's answer; a call that it refuses returns `-EINVAL` and
leaves the list alone. When the firmware accepts, this happens to `wl_cfg80211_set_pmksa`
exactly when the list is full and the BSSID new, and to `wl_cfg80211_del_pmksa` exactly when
the BSSID is absent. -/
theorem pmksa_refines_map (memory : PmkList) (calls : List Call) :
    let state := calls.foldl apply (allocated memory)
    state.list.npmkid ≤ maxpmkid ∧ state.list.bssids.Nodup ∧
      Refines state.list (pmkMap calls) ∧
      (∀ call next, call.perform (pmkMap calls) = some next →
        (execute state call).1 = call.answer) ∧
      (∀ call, call.perform (pmkMap calls) = none →
        (execute state call).1 = -einval ∧ (execute state call).2.list = state.list) ∧
      (∀ bssid pmkid,
        (wlCfg80211SetPmksa bssid pmkid 0 state).1 = -einval ∧
            (wlCfg80211SetPmksa bssid pmkid 0 state).2.list = state.list ↔
          state.list.npmkid = maxpmkid ∧ bssid ∉ state.list.bssids) ∧
      ∀ bssid,
        (wlCfg80211DelPmksa bssid 0 state).1 = -einval ∧
            (wlCfg80211DelPmksa bssid 0 state).2.list = state.list ↔
          bssid ∉ state.list.bssids := by
  intro state
  have h : Refines state.list (pmkMap calls) := refines_calls memory calls
  have hrefused : ∀ call : Call, call.answer = 0 →
      ((execute state call).1 = -einval ∧ (execute state call).2.list = state.list ↔
        call.perform (pmkMap calls) = none) := by
    intro call hanswer
    refine ⟨fun hresult ↦ ?_, h.execute_of_none⟩
    cases hperform : call.perform (pmkMap calls) with
    | none => rfl
    | some next =>
      have hzero : (0 : ℤ) = -einval :=
        hanswer.symm.trans ((h.execute_of_some hperform).1.symm.trans hresult.1)
      exact absurd hzero (by decide)
  refine ⟨h.npmkid ▸ (pmkMap calls).length_le, h.nodup, h,
    fun call next hperform ↦ (h.execute_of_some hperform).1,
    fun call ↦ h.execute_of_none, fun bssid pmkid ↦ ?_, fun bssid ↦ ?_⟩
  · calc
      _ ↔ (pmkMap calls).put bssid pmkid = none := hrefused (.set bssid pmkid 0) rfl
      _ ↔ _ := by rw [BoundedMap.put_eq_none_iff, h.npmkid, h.bssids]
  · calc
      _ ↔ (pmkMap calls).remove bssid = none := hrefused (.del bssid (.replicate 16 0) 0) rfl
      _ ↔ _ := by rw [BoundedMap.remove_eq_none_iff, h.bssids]

end BroadcomWl.Cfg80211.Pmksa
