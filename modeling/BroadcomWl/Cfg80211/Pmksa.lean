import BroadcomWl.Cfg80211.Priv
import BroadcomWl.Memory.Layout
import Mathlib.Data.Finset.Card

/-!
# The PMK cache

`wl->pmk_list` is one allocation of `sizeof(struct wl_cfg80211_pmk_list)` bytes: a count,
a flexible array of entries, and `MAXPMKID - 1` entries of storage behind it. The three
cfg80211 operations search, overwrite, append, remove and clear entries, and send the
allocation to the firmware as the `pmkid_info` iovar. `wl_cfg80211_del_pmksa` also fills
one entry of a local `struct _pmkid_list`.

Every copy into an entry is recorded with its offset and length, which are computed from
the declarations. Entries are numbered beyond the allocation as well: such an entry
stands for the bytes that lie behind it.
-/

namespace BroadcomWl.Cfg80211.Pmksa

open BroadcomWl.Memory

def maxpmkid : ℕ := 16

def wlNumPmkidsMax : ℕ := maxpmkid

def einval : ℤ := 22

/-! ## Layout -/

def uint8 : Extent := ⟨1, 1⟩

def uint32 : Extent := ⟨4, 4⟩

/-- `struct ether_addr`. -/
def etherAddr : Extent := .struct [uint8.array 6]

/-- `pmkid_t`. -/
def pmkidT : Extent := .struct [etherAddr, uint8.array 16]

/-- `pmkid_list_t`. -/
def pmkidListT : Extent := .struct [uint32, pmkidT.flexible]

/-- `struct wl_cfg80211_pmk_list`. -/
def wlCfg80211PmkList : Extent := .struct [pmkidListT, pmkidT.array (maxpmkid - 1)]

/-- The objects the operations write entries into. -/
inductive Object where
  | pmkList
  | localPmkid
deriving DecidableEq, Repr

def Object.size : Object → ℕ
  | .pmkList => wlCfg80211PmkList.size
  | .localPmkid => pmkidListT.size

/-- Offset of `pmkid[i]` in either object. -/
def entryOffset (i : ℕ) : ℕ := Extent.offsetAfter [uint32] pmkidT.flexible + i * pmkidT.size

/-- Offset of the field `PMKID` in an entry. -/
def pmkidOffset : ℕ := Extent.offsetAfter [etherAddr] (uint8.array 16)

/-! ## The cache -/

structure Pmkid where
  BSSID : EtherAddr
  PMKID : Vector UInt8 16
deriving DecidableEq

structure PmkList where
  npmkid : ℕ
  pmkid : ℕ → Pmkid

structure Write where
  object : Object
  range : Range
deriving DecidableEq

/-- One `pmkid_info` iovar: the list as it was, the length of the buffer, and the answer. -/
structure Sent where
  list : PmkList
  length : ℕ
  answer : ℤ

/-- The cache with the history of entry writes and of what was sent. -/
structure State where
  list : PmkList
  writes : List Write
  sent : List Sent

def State.write (state : State) (object : Object) (offset length : ℕ) : State :=
  { state with writes := state.writes ++ [⟨object, offset, length⟩] }

def State.setEntry (state : State) (i : ℕ) (entry : Pmkid) : State :=
  { state with list := { state.list with pmkid := Function.update state.list.pmkid i entry } }

/-- `memcpy` into `pmkid[i].BSSID`. -/
def copyBssid (i : ℕ) (bssid : EtherAddr) (state : State) : State :=
  (state.setEntry i { state.list.pmkid i with BSSID := bssid }).write .pmkList (entryOffset i) 6

/-- `memcpy` into `pmkid[i].PMKID`. -/
def copyPmkid (i : ℕ) (pmkid : Vector UInt8 16) (state : State) : State :=
  (state.setEntry i { state.list.pmkid i with PMKID := pmkid }).write .pmkList
    (entryOffset i + pmkidOffset) 16

/-- Zero those bytes of the field that lie in the allocation; `offset` is the field's. -/
def zeroField {n : ℕ} (offset : ℕ) (field : Vector UInt8 n) : Vector UInt8 n :=
  Vector.ofFn fun k ↦ if offset + k < wlCfg80211PmkList.size then 0 else field.get k

/-- `memset` of the whole allocation. -/
def PmkList.zeroed (list : PmkList) : PmkList where
  npmkid := 0
  pmkid i :=
    { BSSID := zeroField (entryOffset i) (list.pmkid i).BSSID
      PMKID := zeroField (entryOffset i + pmkidOffset) (list.pmkid i).PMKID }

/-- The search loop: the first entry with this BSSID, or `npmkid`. -/
def PmkList.search (list : PmkList) (bssid : EtherAddr) : ℕ :=
  (List.range list.npmkid).findIdx fun i ↦ (list.pmkid i).BSSID == bssid

/-- `wl_update_pmklist`; `answer` is the firmware's. -/
def wlUpdatePmklist (answer err : ℤ) (state : State) : ℤ × State :=
  if err = 0 then
    (answer, { state with sent := state.sent ++ [⟨state.list, wlCfg80211PmkList.size, answer⟩] })
  else (err, state)

/-- `wl_cfg80211_set_pmksa`. -/
def wlCfg80211SetPmksa (bssid : EtherAddr) (pmkid : Vector UInt8 16) (answer : ℤ)
    (state : State) : ℤ × State :=
  let i := state.list.search bssid
  if i < wlNumPmkidsMax then
    let state := copyPmkid i pmkid (copyBssid i bssid state)
    let state :=
      if i = state.list.npmkid then
        { state with list := { state.list with npmkid := state.list.npmkid + 1 } }
      else state
    wlUpdatePmklist answer 0 state
  else wlUpdatePmklist answer (-einval) state

/-- The loop of `wl_cfg80211_del_pmksa` that moves `count` entries down, from `i` on. -/
def moveDown : ℕ → ℕ → State → State
  | 0, _, state => state
  | count + 1, i, state =>
      let state := copyBssid i (state.list.pmkid (i + 1)).BSSID state
      moveDown count (i + 1) (copyPmkid i (state.list.pmkid (i + 1)).PMKID state)

/-- `memset` of `pmkid[i]`. -/
def zeroEntry (i : ℕ) (state : State) : State :=
  (state.setEntry i ⟨Vector.replicate 6 0, Vector.replicate 16 0⟩).write .pmkList (entryOffset i)
    pmkidT.size

/-- The copies into the local `struct _pmkid_list`. -/
def fillLocal (state : State) : State :=
  (state.write .localPmkid (entryOffset 0) 6).write .localPmkid (entryOffset 0 + pmkidOffset) 16

/-- `wl_cfg80211_del_pmksa`. -/
def wlCfg80211DelPmksa (bssid : EtherAddr) (answer : ℤ) (state : State) : ℤ × State :=
  let state := fillLocal state
  let i := state.list.search bssid
  if 0 < state.list.npmkid ∧ i < state.list.npmkid then
    let state := moveDown (state.list.npmkid - 1 - i) i (zeroEntry i state)
    wlUpdatePmklist answer 0
      { state with list := { state.list with npmkid := state.list.npmkid - 1 } }
  else wlUpdatePmklist answer (-einval) state

/-- `wl_cfg80211_flush_pmksa`. -/
def wlCfg80211FlushPmksa (answer : ℤ) (state : State) : ℤ × State :=
  wlUpdatePmklist answer 0
    ({ state with list := state.list.zeroed }.write .pmkList 0 wlCfg80211PmkList.size)

/-- One call of cfg80211, with the firmware's answer to the iovar. -/
inductive Call where
  | set (bssid : EtherAddr) (pmkid : Vector UInt8 16) (answer : ℤ)
  | del (bssid : EtherAddr) (pmkid : Vector UInt8 16) (answer : ℤ)
  | flush (answer : ℤ)

def apply (state : State) : Call → State
  | .set bssid pmkid answer => (wlCfg80211SetPmksa bssid pmkid answer state).2
  | .del bssid _ answer => (wlCfg80211DelPmksa bssid answer state).2
  | .flush answer => (wlCfg80211FlushPmksa answer state).2

/-- The cache after `kzalloc`; `memory` is what was there before. -/
def allocated (memory : PmkList) : State := ⟨memory.zeroed, [], []⟩

/-- Every entry write lies in its object, and every buffer that was sent holds all the entries
its count announces. -/
structure Safe (state : State) : Prop where
  writes : ∀ w ∈ state.writes, w.range.Within w.object.size
  sent : ∀ s ∈ state.sent, entryOffset s.list.npmkid ≤ s.length

/-- What a sequence of calls must look like for the storage to suffice: nothing is deleted, and
never more than `MAXPMKID - 1` different BSSIDs are set without a flush. `present` are the BSSIDs
set so far. -/
def FitsStorage (present : Finset EtherAddr) : List Call → Prop
  | [] => True
  | .set bssid _ _ :: calls =>
      (insert bssid present).card ≤ maxpmkid - 1 ∧ FitsStorage (insert bssid present) calls
  | .del _ _ _ :: _ => False
  | .flush _ :: calls => FitsStorage ∅ calls

/-! ## Bounds from the declarations -/

/-- The storage behind the flexible array begins where the array does, so it holds
`MAXPMKID - 1` entries. -/
theorem entry_within {i : ℕ} (hi : i < maxpmkid - 1) :
    entryOffset i + pmkidT.size ≤ wlCfg80211PmkList.size := by
  have hstorage : Extent.offsetAfter [uint32] pmkidT.flexible =
      Extent.offsetAfter [pmkidListT] (pmkidT.array (maxpmkid - 1)) := rfl
  have hmember := Extent.member_within [pmkidListT] [] (pmkidT.array (maxpmkid - 1)) (by decide)
  have helement := Extent.element_within pmkidT hi
  rw [entryOffset, hstorage, Nat.add_assoc]
  exact le_trans (Nat.add_le_add_left helement _) hmember

theorem bssid_within {i : ℕ} (hi : i < maxpmkid - 1) :
    entryOffset i + 6 ≤ wlCfg80211PmkList.size := by
  have hentry := entry_within hi
  have hfield : 6 ≤ pmkidT.size := by decide
  omega

theorem pmkid_within {i : ℕ} (hi : i < maxpmkid - 1) :
    entryOffset i + pmkidOffset + 16 ≤ wlCfg80211PmkList.size := by
  have hentry := entry_within hi
  have hfield : pmkidOffset + 16 ≤ pmkidT.size := by decide
  omega

/-- The last of the `MAXPMKID` entries begins in the allocation and ends behind it. -/
theorem last_bssid_outside : wlCfg80211PmkList.size < entryOffset (maxpmkid - 1) + 6 := by
  decide

theorem entries_within {n : ℕ} (hn : n ≤ maxpmkid - 1) :
    entryOffset n ≤ wlCfg80211PmkList.size := by
  have hlast : entryOffset (maxpmkid - 1) ≤ wlCfg80211PmkList.size := by decide
  have hmul := Nat.mul_le_mul_right pmkidT.size hn
  unfold entryOffset at *
  omega

/-! ## Searching -/

/-- The BSSIDs of the announced entries, in order. -/
def PmkList.bssids (list : PmkList) : List EtherAddr :=
  (List.range list.npmkid).map fun i ↦ (list.pmkid i).BSSID

theorem PmkList.search_le (list : PmkList) (bssid : EtherAddr) :
    list.search bssid ≤ list.npmkid := by
  have hle := @List.findIdx_le_length _ (fun i ↦ (list.pmkid i).BSSID == bssid)
    (List.range list.npmkid)
  rwa [List.length_range] at hle

theorem PmkList.search_lt_iff {list : PmkList} {bssid : EtherAddr} :
    list.search bssid < list.npmkid ↔ bssid ∈ list.bssids := by
  have hlt := @List.findIdx_lt_length _ (fun i ↦ (list.pmkid i).BSSID == bssid)
    (List.range list.npmkid)
  rw [List.length_range] at hlt
  unfold PmkList.search PmkList.bssids
  rw [hlt, List.mem_map]
  exact exists_congr fun i ↦ and_congr_right fun _ ↦ beq_iff_eq

theorem PmkList.bssid_search {list : PmkList} {bssid : EtherAddr}
    (h : list.search bssid < list.npmkid) : (list.pmkid (list.search bssid)).BSSID = bssid := by
  have hlt : (List.range list.npmkid).findIdx (fun i ↦ (list.pmkid i).BSSID == bssid) <
      (List.range list.npmkid).length := by rwa [List.length_range]
  have hfound := @List.findIdx_getElem _ (fun i ↦ (list.pmkid i).BSSID == bssid)
    (List.range list.npmkid) hlt
  rw [List.getElem_range] at hfound
  exact beq_iff_eq.mp hfound

/-- The announced entries have the distinct BSSIDs `present`. -/
structure Tracks (list : PmkList) (present : Finset EtherAddr) : Prop where
  nodup : list.bssids.Nodup
  present : list.bssids.toFinset = present

theorem Tracks.card {list : PmkList} {present : Finset EtherAddr} (h : Tracks list present) :
    list.npmkid = present.card := by
  rw [← h.present, List.toFinset_card_of_nodup h.nodup]
  simp [PmkList.bssids]

/-! ## What the calls do -/

/-- Two copies into one entry replace it. -/
theorem copyPmkid_copyBssid (i : ℕ) (bssid : EtherAddr) (pmkid : Vector UInt8 16)
    (state : State) :
    copyPmkid i pmkid (copyBssid i bssid state) =
      { state.setEntry i ⟨bssid, pmkid⟩ with
        writes := state.writes ++ [⟨.pmkList, entryOffset i, 6⟩,
          ⟨.pmkList, entryOffset i + pmkidOffset, 16⟩] } := by
  simp [copyPmkid, copyBssid, State.setEntry, State.write]

theorem wlUpdatePmklist_list (answer err : ℤ) (state : State) :
    (wlUpdatePmklist answer err state).2.list = state.list := by
  unfold wlUpdatePmklist
  split <;> rfl

theorem wlUpdatePmklist_writes (answer err : ℤ) (state : State) :
    (wlUpdatePmklist answer err state).2.writes = state.writes := by
  unfold wlUpdatePmklist
  split <;> rfl

theorem wlUpdatePmklist_zero (answer : ℤ) (state : State) :
    (wlUpdatePmklist answer 0 state).2.sent =
      state.sent ++ [⟨state.list, wlCfg80211PmkList.size, answer⟩] := rfl

/-- The list after `wl_cfg80211_set_pmksa` has found the place `i` for the BSSID. -/
def PmkList.store (list : PmkList) (i : ℕ) (entry : Pmkid) : PmkList where
  npmkid := if i = list.npmkid then list.npmkid + 1 else list.npmkid
  pmkid := Function.update list.pmkid i entry

/-- `wl_cfg80211_set_pmksa` with a place among the `MAXPMKID` entries. -/
theorem wlCfg80211SetPmksa_of_lt {bssid : EtherAddr} {state : State}
    (h : state.list.search bssid < wlNumPmkidsMax) (pmkid : Vector UInt8 16) (answer : ℤ) :
    wlCfg80211SetPmksa bssid pmkid answer state =
      wlUpdatePmklist answer 0
        { state with
          list := state.list.store (state.list.search bssid) ⟨bssid, pmkid⟩
          writes := state.writes ++ [⟨.pmkList, entryOffset (state.list.search bssid), 6⟩,
            ⟨.pmkList, entryOffset (state.list.search bssid) + pmkidOffset, 16⟩] } := by
  rw [wlCfg80211SetPmksa, if_pos h, copyPmkid_copyBssid]
  by_cases hnew : state.list.search bssid = state.list.npmkid
  · simp [State.setEntry, PmkList.store, hnew]
  · simp [State.setEntry, PmkList.store, hnew]

/-- What is read off a table that has one more entry. -/
theorem map_range_succ_update {Entry Value : Type*} (read : Entry → Value) (table : ℕ → Entry)
    (n : ℕ) (entry : Entry) :
    (List.range (n + 1)).map (fun i ↦ read (Function.update table n entry i)) =
      (List.range n).map (fun i ↦ read (table i)) ++ [read entry] := by
  rw [List.range_succ, List.map_append, List.map_singleton, Function.update_self]
  congr 1
  apply List.map_congr_left
  intro i hi
  rw [Function.update_of_ne (Nat.ne_of_lt (List.mem_range.mp hi))]

theorem Tracks.store {list : PmkList} {present : Finset EtherAddr} (h : Tracks list present)
    (bssid : EtherAddr) (pmkid : Vector UInt8 16) :
    Tracks (list.store (list.search bssid) ⟨bssid, pmkid⟩) (insert bssid present) := by
  by_cases hknown : list.search bssid < list.npmkid
  · have hbssids : (list.store (list.search bssid) ⟨bssid, pmkid⟩).bssids = list.bssids := by
      unfold PmkList.store PmkList.bssids
      rw [if_neg (Nat.ne_of_lt hknown)]
      refine List.map_congr_left fun i _ ↦ ?_
      dsimp only
      by_cases hi : i = list.search bssid
      · rw [hi, Function.update_self, PmkList.bssid_search hknown]
      · rw [Function.update_of_ne hi]
    have hmem : bssid ∈ present := by
      rw [← h.present, List.mem_toFinset]
      exact PmkList.search_lt_iff.mp hknown
    exact ⟨hbssids ▸ h.nodup, by rw [hbssids, h.present, Finset.insert_eq_of_mem hmem]⟩
  · have hnew : list.search bssid = list.npmkid :=
      Nat.le_antisymm (list.search_le bssid) (Nat.le_of_not_lt hknown)
    have hbssids : (list.store (list.search bssid) ⟨bssid, pmkid⟩).bssids =
        list.bssids ++ [bssid] := by
      unfold PmkList.store PmkList.bssids
      rw [if_pos hnew, hnew]
      exact map_range_succ_update Pmkid.BSSID list.pmkid list.npmkid ⟨bssid, pmkid⟩
    have hnot : bssid ∉ list.bssids := fun hmem ↦ hknown (PmkList.search_lt_iff.mpr hmem)
    constructor
    · rw [hbssids, ← List.concat_eq_append]
      exact h.nodup.concat hnot
    · rw [hbssids, List.toFinset_append, h.present, Finset.union_comm]
      simp

/-! ## Safe calls -/

/-- The writes and buffers of a call stay in the history. -/
structure Extends (state next : State) : Prop where
  writes : state.writes <+: next.writes
  sent : state.sent <+: next.sent

theorem Extends.refl (state : State) : Extends state state :=
  ⟨List.prefix_refl _, List.prefix_refl _⟩

theorem Extends.trans {first second third : State} (h : Extends first second)
    (h' : Extends second third) : Extends first third :=
  ⟨h.writes.trans h'.writes, h.sent.trans h'.sent⟩

theorem Extends.safe {state next : State} (h : Extends state next) (hsafe : Safe next) :
    Safe state :=
  ⟨fun w hw ↦ hsafe.writes w (h.writes.subset hw), fun s hs ↦ hsafe.sent s (h.sent.subset hs)⟩

theorem extends_wlUpdatePmklist (answer err : ℤ) (state : State) :
    Extends state (wlUpdatePmklist answer err state).2 := by
  unfold wlUpdatePmklist
  split
  · exact ⟨List.prefix_refl _, List.prefix_append _ _⟩
  · exact .refl _

theorem extends_copyBssid (i : ℕ) (bssid : EtherAddr) (state : State) :
    Extends state (copyBssid i bssid state) := ⟨List.prefix_append _ _, List.prefix_refl _⟩

theorem extends_copyPmkid (i : ℕ) (pmkid : Vector UInt8 16) (state : State) :
    Extends state (copyPmkid i pmkid state) := ⟨List.prefix_append _ _, List.prefix_refl _⟩

theorem extends_moveDown (count i : ℕ) (state : State) :
    Extends state (moveDown count i state) := by
  induction count generalizing i state with
  | zero => exact .refl _
  | succ count ih =>
    have hbssid := extends_copyBssid i (state.list.pmkid (i + 1)).BSSID state
    exact (hbssid.trans (extends_copyPmkid i _ _)).trans (ih _ _)

theorem extends_wlCfg80211SetPmksa (bssid : EtherAddr) (pmkid : Vector UInt8 16) (answer : ℤ)
    (state : State) : Extends state (wlCfg80211SetPmksa bssid pmkid answer state).2 := by
  by_cases hlt : state.list.search bssid < wlNumPmkidsMax
  · rw [wlCfg80211SetPmksa_of_lt hlt]
    refine Extends.trans ?_ (extends_wlUpdatePmklist ..)
    exact ⟨List.prefix_append _ _, List.prefix_refl _⟩
  · rw [wlCfg80211SetPmksa, if_neg hlt]
    exact extends_wlUpdatePmklist ..

theorem extends_wlCfg80211DelPmksa (bssid : EtherAddr) (answer : ℤ) (state : State) :
    Extends (fillLocal state) (wlCfg80211DelPmksa bssid answer state).2 := by
  unfold wlCfg80211DelPmksa
  dsimp only
  split
  · refine Extends.trans ?_ (extends_wlUpdatePmklist ..)
    have hzero : Extends (fillLocal state)
        (zeroEntry ((fillLocal state).list.search bssid) (fillLocal state)) :=
      ⟨List.prefix_append _ _, List.prefix_refl _⟩
    exact ⟨(hzero.trans (extends_moveDown ..)).writes, (hzero.trans (extends_moveDown ..)).sent⟩
  · exact extends_wlUpdatePmklist ..

theorem extends_apply (state : State) (call : Call) : Extends state (apply state call) := by
  cases call with
  | set bssid pmkid answer => exact extends_wlCfg80211SetPmksa bssid pmkid answer state
  | del bssid pmkid answer =>
    have hlocal : Extends state (fillLocal state) :=
      ⟨(List.prefix_append _ _).trans (List.prefix_append _ _), List.prefix_refl _⟩
    exact hlocal.trans (extends_wlCfg80211DelPmksa bssid answer state)
  | flush answer =>
    have hzeroed : Extends state ({ state with list := state.list.zeroed }.write .pmkList 0
        wlCfg80211PmkList.size) := ⟨List.prefix_append _ _, List.prefix_refl _⟩
    exact hzeroed.trans (extends_wlUpdatePmklist ..)

theorem extends_foldl_apply (state : State) (calls : List Call) :
    Extends state (calls.foldl apply state) := by
  induction calls generalizing state with
  | nil => exact .refl _
  | cons call calls ih => exact (extends_apply state call).trans (ih _)

/-- The local list has no room for an entry. -/
theorem not_safe_del (bssid : EtherAddr) (pmkid : Vector UInt8 16) (answer : ℤ) (state : State) :
    ¬Safe (apply state (.del bssid pmkid answer)) := by
  intro hsafe
  have hlocal := (extends_wlCfg80211DelPmksa bssid answer state).safe hsafe
  have hwrite := hlocal.writes ⟨.localPmkid, entryOffset 0, 6⟩ (by simp [fillLocal, State.write])
  exact absurd hwrite (by decide)

theorem safe_flush {state : State} (h : Safe state) (answer : ℤ) :
    Safe (apply state (.flush answer)) := by
  refine ⟨fun w hw ↦ ?_, fun s hs ↦ ?_⟩
  · change w ∈ (wlUpdatePmklist answer 0 _).2.writes at hw
    rw [wlUpdatePmklist_writes] at hw
    rcases List.mem_append.mp hw with hw | hw
    · exact h.writes w hw
    · rw [List.mem_singleton.mp hw]
      decide
  · change s ∈ (wlUpdatePmklist answer 0 _).2.sent at hs
    rw [wlUpdatePmklist_zero] at hs
    rcases List.mem_append.mp hs with hs | hs
    · exact h.sent s hs
    · rw [List.mem_singleton.mp hs]
      exact entries_within (Nat.zero_le _)

section Set

variable {state : State} {present : Finset EtherAddr}

/-- While the cache tracks fewer than `MAXPMKID` BSSIDs there is a place for every other one. -/
theorem Tracks.search_lt (h : Tracks state.list present) (hcard : present.card ≤ maxpmkid - 1)
    (bssid : EtherAddr) : state.list.search bssid < wlNumPmkidsMax := by
  have hle := state.list.search_le bssid
  rw [h.card] at hle
  exact Nat.lt_of_le_of_lt (le_trans hle hcard) (by decide)

theorem Tracks.set (h : Tracks state.list present) (hcard : present.card ≤ maxpmkid - 1)
    (bssid : EtherAddr) (pmkid : Vector UInt8 16) (answer : ℤ) :
    Tracks (apply state (.set bssid pmkid answer)).list (insert bssid present) := by
  rw [apply, wlCfg80211SetPmksa_of_lt (h.search_lt hcard bssid), wlUpdatePmklist_list]
  exact h.store bssid pmkid

/-- Storing an entry is safe when the entries still fit. -/
theorem safe_set (hsafe : Safe state) (h : Tracks state.list present)
    (hcard : present.card ≤ maxpmkid - 1) {bssid : EtherAddr} (pmkid : Vector UInt8 16)
    (answer : ℤ) (hinsert : (insert bssid present).card ≤ maxpmkid - 1) :
    Safe (apply state (.set bssid pmkid answer)) := by
  have hnext := h.store bssid pmkid
  have hplace : state.list.search bssid < maxpmkid - 1 := by
    have hle := state.list.search_le bssid
    have hcount := hnext.card
    simp only [PmkList.store] at hcount
    split at hcount
    · omega
    · rw [← hcount] at hinsert
      omega
  rw [apply, wlCfg80211SetPmksa_of_lt (h.search_lt hcard bssid)]
  refine ⟨fun w hw ↦ ?_, fun s hs ↦ ?_⟩
  · rw [wlUpdatePmklist_writes] at hw
    rcases List.mem_append.mp hw with hw | hw
    · exact hsafe.writes w hw
    · rcases List.mem_pair.mp hw with rfl | rfl
      · exact bssid_within hplace
      · exact pmkid_within hplace
  · rw [wlUpdatePmklist_zero] at hs
    rcases List.mem_append.mp hs with hs | hs
    · exact hsafe.sent s hs
    · rw [List.mem_singleton.mp hs]
      exact entries_within (le_of_eq_of_le hnext.card hinsert)

/-- The entry that makes the cache full is written behind the allocation. -/
theorem card_le_of_safe_set (h : Tracks state.list present)
    (hcard : present.card ≤ maxpmkid - 1) {bssid : EtherAddr} {pmkid : Vector UInt8 16}
    {answer : ℤ} (hsafe : Safe (apply state (.set bssid pmkid answer))) :
    (insert bssid present).card ≤ maxpmkid - 1 := by
  by_contra hfull
  have hinsert := Finset.card_insert_le bssid present
  have hle := state.list.search_le bssid
  have hcount := (h.store bssid pmkid).card
  have hbefore := h.card
  have hplace : state.list.search bssid = maxpmkid - 1 := by
    simp only [PmkList.store] at hcount
    split at hcount
    · omega
    · omega
  rw [apply, wlCfg80211SetPmksa_of_lt (h.search_lt hcard bssid)] at hsafe
  have hwrite := hsafe.writes ⟨.pmkList, entryOffset (state.list.search bssid), 6⟩ (by
    rw [wlUpdatePmklist_writes]
    simp)
  rw [hplace] at hwrite
  exact absurd hwrite (Nat.not_le_of_lt last_bssid_outside)

theorem safe_foldl_iff (hsafe : Safe state) (h : Tracks state.list present)
    (hcard : present.card ≤ maxpmkid - 1) (calls : List Call) :
    Safe (calls.foldl apply state) ↔ FitsStorage present calls := by
  induction calls generalizing state present with
  | nil => exact iff_of_true hsafe trivial
  | cons call calls ih =>
    have hextends := extends_foldl_apply (apply state call) calls
    cases call with
    | set bssid pmkid answer =>
      constructor
      · intro hfinal
        have hinsert := card_le_of_safe_set h hcard (hextends.safe hfinal)
        have hnext := safe_set hsafe h hcard pmkid answer hinsert
        exact ⟨hinsert, (ih hnext (h.set hcard bssid pmkid answer) hinsert).mp hfinal⟩
      · intro hfits
        have hnext := safe_set hsafe h hcard pmkid answer hfits.1
        exact (ih hnext (h.set hcard bssid pmkid answer) hfits.1).mpr hfits.2
    | del bssid pmkid answer =>
      exact iff_of_false (fun hfinal ↦ not_safe_del bssid pmkid answer state
        (hextends.safe hfinal)) id
    | flush answer =>
      have hempty : Tracks (apply state (.flush answer)).list ∅ := ⟨List.nodup_nil, rfl⟩
      exact ih (safe_flush hsafe answer) hempty (Nat.zero_le _)

end Set

/-- For every sequence of calls, with any firmware answers, all entry writes stay in their
objects and all buffers that were sent are complete exactly when nothing was deleted and the
distinct BSSIDs set between two flushes fit into the storage. -/
theorem pmksa_layout_iff (memory : PmkList) (calls : List Call) :
    Safe (calls.foldl apply (allocated memory)) ↔ FitsStorage ∅ calls := by
  have hsafe : Safe (allocated memory) :=
    ⟨fun w hw ↦ absurd hw List.not_mem_nil, fun s hs ↦ absurd hs List.not_mem_nil⟩
  have htracks : Tracks (allocated memory).list ∅ := ⟨List.nodup_nil, rfl⟩
  exact safe_foldl_iff hsafe htracks (Nat.zero_le _) calls

def sixteenSets : List Call :=
  (List.range 16).map fun n ↦
    .set (Vector.replicate 6 (UInt8.ofNat n)) (Vector.replicate 16 0) 0

def zeroMemory : PmkList := ⟨0, fun _ ↦ ⟨Vector.replicate 6 0, Vector.replicate 16 0⟩⟩

/-- One deletion from the empty cache writes outside the local list. Sixteen different BSSIDs
write outside the allocation and are announced in a buffer that is too short. -/
theorem pmksa_writes_outside :
    (∃ w ∈ ([Call.del (Vector.replicate 6 0) (Vector.replicate 16 0) 0].foldl apply
        (allocated zeroMemory)).writes, ¬w.range.Within w.object.size) ∧
      (∃ w ∈ (sixteenSets.foldl apply (allocated zeroMemory)).writes,
        w.object = .pmkList ∧ ¬w.range.Within w.object.size) ∧
      ∃ s ∈ (sixteenSets.foldl apply (allocated zeroMemory)).sent,
        ¬entryOffset s.list.npmkid ≤ s.length := by
  decide +kernel

end BroadcomWl.Cfg80211.Pmksa
