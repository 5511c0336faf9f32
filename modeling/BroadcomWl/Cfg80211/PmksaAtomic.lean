import BroadcomWl.Cfg80211.PmksaMap
import BroadcomWl.Systems.Machine

/-!
# Changes of the PMK cache that the firmware rejects

Every operation of cfg80211 edits `wl->pmk_list` in place and then sends it to the firmware. There
is no way back: when `pmkid_info` fails, the operation returns the error and the list stays edited.
The buffer that is sent has `sizeof(struct wl_cfg80211_pmk_list)` bytes, whatever the count says.
-/

namespace BroadcomWl.Cfg80211.Pmksa

open BroadcomWl.Systems

/-! ## What the firmware holds -/

/-- The entries that a buffer holds whole. -/
def entriesIn (length : ℕ) : ℕ := (length - entryOffset 0) / pmkidT.size

/-- The announced entries that reach the firmware. -/
def Sent.entries (sent : Sent) : List (EtherAddr × Vector UInt8 16) :=
  sent.list.entries.take (entriesIn sent.length)

/-- The list that the firmware accepted last; `given` is what it held before. -/
def accepted (given : List (EtherAddr × Vector UInt8 16)) (sent : List Sent) :
    List (EtherAddr × Vector UInt8 16) :=
  ((sent.filter fun buffer ↦ buffer.answer = 0).map Sent.entries).getLastD given

variable {given : List (EtherAddr × Vector UInt8 16)}

theorem accepted_of_zero (sent : List Sent) (list : PmkList) (length : ℕ) :
    accepted given (sent ++ [⟨list, length, 0⟩]) = list.entries.take (entriesIn length) := by
  unfold accepted
  rw [List.filter_append, List.map_append, List.getLastD_eq_getLast?]
  exact congrArg (Option.getD · given) List.getLast?_concat

theorem accepted_of_ne_zero (sent : List Sent) {buffer : Sent} (h : buffer.answer ≠ 0) :
    accepted given (sent ++ [buffer]) = accepted given sent := by
  have hnone : [buffer].filter (fun buffer ↦ decide (buffer.answer = 0)) = [] :=
    List.filter_eq_nil_iff.mpr (by simpa using h)
  unfold accepted
  rw [List.filter_append, hnone, List.append_nil]

/-! ## One call -/

/-- The list that a call makes of `wl->pmk_list`; `none` when it returns `-EINVAL` instead. -/
def Call.edit (list : PmkList) : Call → Option PmkList
  | .set bssid pmkid _ =>
      if list.search bssid < wlNumPmkidsMax then
        some (list.store (list.search bssid) ⟨bssid, pmkid⟩)
      else none
  | .del bssid _ _ =>
      if list.search bssid < list.npmkid then some (list.delete (list.search bssid)) else none
  | .flush _ => some list.zeroed

theorem moveDown_sent (count i : ℕ) (state : State) :
    (moveDown count i state).sent = state.sent := by
  induction count generalizing i state with
  | zero => rfl
  | succ count ih =>
    rw [moveDown, ih]
    rfl

/-- `wl_cfg80211_del_pmksa` sends the list that it leaves behind. -/
theorem wlCfg80211DelPmksa_sent {bssid : EtherAddr} {state : State}
    (h : state.list.search bssid < state.list.npmkid) (answer : ℤ) :
    (wlCfg80211DelPmksa bssid answer state).2.sent =
      state.sent ++ [⟨(wlCfg80211DelPmksa bssid answer state).2.list, wlCfg80211PmkList.size,
        answer⟩] := by
  have hlocal : (fillLocal state).list = state.list := rfl
  unfold wlCfg80211DelPmksa
  dsimp only
  rw [hlocal, if_pos ⟨Nat.zero_lt_of_lt h, h⟩, wlUpdatePmklist_zero, moveDown_sent]
  rfl

/-- The buffer is sent, and the firmware's answer is returned. -/
theorem execute_of_edit {state : State} {call : Call} {next : PmkList}
    (h : call.edit state.list = some next) :
    (execute state call).1 = call.answer ∧ (execute state call).2.list = next ∧
      (execute state call).2.sent =
        state.sent ++ [⟨next, wlCfg80211PmkList.size, call.answer⟩] := by
  cases call with
  | set bssid pmkid answer =>
    obtain ⟨hplace, hnext⟩ := Option.ite_none_right_eq_some.mp h
    obtain rfl := Option.some.inj hnext
    rw [execute, wlCfg80211SetPmksa_of_lt hplace]
    exact ⟨rfl, rfl, rfl⟩
  | del bssid pmkid answer =>
    obtain ⟨hfound, hnext⟩ := Option.ite_none_right_eq_some.mp h
    obtain rfl := Option.some.inj hnext
    obtain ⟨hanswer, hlist⟩ := wlCfg80211DelPmksa_of_lt hfound answer
    refine ⟨hanswer, hlist, ?_⟩
    rw [← hlist]
    exact wlCfg80211DelPmksa_sent hfound answer
  | flush answer =>
    cases h
    exact ⟨rfl, rfl, rfl⟩

/-- Nothing is edited or sent. -/
theorem execute_of_no_edit {state : State} {call : Call} (h : call.edit state.list = none) :
    (execute state call).1 = -einval ∧ (execute state call).2.list = state.list ∧
      (execute state call).2.sent = state.sent := by
  cases call with
  | set bssid pmkid answer =>
    have hplace : ¬state.list.search bssid < wlNumPmkidsMax := fun hplace ↦ by
      rw [Call.edit, if_pos hplace] at h
      cases h
    rw [execute, wlCfg80211SetPmksa, if_neg hplace]
    exact ⟨rfl, rfl, rfl⟩
  | del bssid pmkid answer =>
    have hplace : ¬(0 < (fillLocal state).list.npmkid ∧
        (fillLocal state).list.search bssid < (fillLocal state).list.npmkid) := by
      rintro ⟨-, hfound : state.list.search bssid < state.list.npmkid⟩
      rw [Call.edit, if_pos hfound] at h
      cases h
    rw [execute, wlCfg80211DelPmksa, if_neg hplace]
    exact ⟨rfl, rfl, rfl⟩
  | flush answer => cases h

/-! ## Which calls are atomic -/

/-- After an error the announced entries are what they were; without one the firmware has accepted
the same entries. -/
structure ChangesAtomically (given : List (EtherAddr × Vector UInt8 16)) (state : State)
    (call : Call) : Prop where
  rejected : (execute state call).1 ≠ 0 →
    (execute state call).2.list.entries = state.list.entries
  accepted : (execute state call).1 = 0 →
    (execute state call).2.list.entries = accepted given (execute state call).2.sent

/-- The buffer has room for one entry less than the list. -/
theorem take_entries_eq_iff (list : PmkList) :
    list.entries = list.entries.take (entriesIn wlCfg80211PmkList.size) ↔
      list.npmkid < maxpmkid := by
  have hroom : entriesIn wlCfg80211PmkList.size = 15 := by decide
  have hmax : maxpmkid = 16 := rfl
  rw [hroom, hmax, eq_comm, List.take_eq_self_iff, PmkList.length_entries]
  omega

/-- An accepted edit has to reach the firmware whole, a rejected one must not have changed
anything. -/
theorem changesAtomically_of_edit {state : State} {call : Call} {next : PmkList}
    (h : call.edit state.list = some next) :
    ChangesAtomically given state call ↔
      if call.answer = 0 then next.npmkid < maxpmkid
      else next.entries = state.list.entries := by
  obtain ⟨hreturn, hlist, hsent⟩ := execute_of_edit h
  by_cases hanswer : call.answer = 0
  · rw [if_pos hanswer, ← take_entries_eq_iff, ← @accepted_of_zero given state.sent, ← hanswer,
      ← hsent, ← hlist]
    constructor
    · intro hatomic
      exact hatomic.accepted (hreturn.trans hanswer)
    · intro haccepted
      exact ⟨fun hne ↦ absurd (hreturn.trans hanswer) hne, fun _ ↦ haccepted⟩
  · rw [if_neg hanswer, ← hlist]
    constructor
    · intro hatomic
      exact hatomic.rejected fun hzero ↦ hanswer (hreturn.symm.trans hzero)
    · intro hsame
      exact ⟨fun _ ↦ hsame, fun hzero ↦ absurd (hreturn.symm.trans hzero) hanswer⟩

theorem changesAtomically_of_no_edit {state : State} {call : Call}
    (h : call.edit state.list = none) : ChangesAtomically given state call := by
  obtain ⟨hreturn, hlist, -⟩ := execute_of_no_edit h
  refine ⟨fun _ ↦ by rw [hlist], fun hzero ↦ ?_⟩
  rw [hreturn] at hzero
  exact absurd hzero (by decide)

/-- The host refuses the call, or the firmware accepts at most 15 entries, or it rejects an edit
that changes nothing. -/
def Call.Kept (list : PmkList) : Call → Prop
  | .set bssid pmkid answer =>
      wlNumPmkidsMax ≤ list.search bssid ∨
        if answer = 0 then list.npmkid < maxpmkid ∧ list.search bssid < maxpmkid - 1
        else list.search bssid < list.npmkid ∧ (list.pmkid (list.search bssid)).PMKID = pmkid
  | .del bssid _ answer =>
      list.npmkid ≤ list.search bssid ∨ answer = 0 ∧ list.npmkid ≤ maxpmkid
  | .flush answer => answer = 0 ∨ list.npmkid = 0

/-- Only the PMKID of a known BSSID can change. -/
theorem entries_store_eq_iff {list : PmkList} {bssid : EtherAddr}
    (h : list.search bssid < list.npmkid) (pmkid : Vector UInt8 16) :
    (list.store (list.search bssid) ⟨bssid, pmkid⟩).entries = list.entries ↔
      (list.pmkid (list.search bssid)).PMKID = pmkid := by
  have hfound := PmkList.bssid_search h
  unfold PmkList.entries PmkList.store
  rw [if_neg (Nat.ne_of_lt h)]
  constructor
  · intro hentries
    have hplace := List.map_inj_left.mp hentries _ (List.mem_range.mpr h)
    dsimp only at hplace
    rw [Function.update_self] at hplace
    exact (congrArg Prod.snd hplace).symm
  · intro hpmkid
    refine List.map_congr_left fun i _ ↦ ?_
    dsimp only
    by_cases hi : i = list.search bssid
    · rw [hi, Function.update_self, Pmkid.entry, Pmkid.entry, hfound, hpmkid]
    · rw [Function.update_of_ne hi]

theorem npmkid_store_lt_iff {list : PmkList} {bssid : EtherAddr} {entry : Pmkid} :
    (list.store (list.search bssid) entry).npmkid < maxpmkid ↔
      list.npmkid < maxpmkid ∧ list.search bssid < maxpmkid - 1 := by
  have hle := list.search_le bssid
  have hmax : maxpmkid = 16 := rfl
  unfold PmkList.store
  dsimp only
  split
  · omega
  · omega

/-- A list that loses or gains an entry is another one. -/
theorem entries_ne_of_npmkid_ne {list next : PmkList} (h : next.npmkid ≠ list.npmkid) :
    next.entries ≠ list.entries := by
  intro hentries
  have hlength := congrArg List.length hentries
  rw [PmkList.length_entries, PmkList.length_entries] at hlength
  exact h hlength

theorem changesAtomically_set_iff (state : State) (bssid : EtherAddr) (pmkid : Vector UInt8 16)
    (answer : ℤ) :
    ChangesAtomically given state (.set bssid pmkid answer) ↔
      Call.Kept state.list (.set bssid pmkid answer) := by
  rw [Call.Kept]
  by_cases hplace : state.list.search bssid < wlNumPmkidsMax
  · have hedit : Call.edit state.list (.set bssid pmkid answer) =
        some (state.list.store (state.list.search bssid) ⟨bssid, pmkid⟩) := if_pos hplace
    rw [changesAtomically_of_edit hedit, Call.answer, or_iff_right (Nat.not_le.mpr hplace),
      npmkid_store_lt_iff]
    by_cases hanswer : answer = 0
    · rw [if_pos hanswer, if_pos hanswer]
    · rw [if_neg hanswer, if_neg hanswer]
      by_cases hfound : state.list.search bssid < state.list.npmkid
      · rw [entries_store_eq_iff hfound, and_iff_right hfound]
      · have hnew : state.list.search bssid = state.list.npmkid :=
          Nat.le_antisymm (state.list.search_le bssid) (Nat.not_lt.mp hfound)
        have hcount : (state.list.store (state.list.search bssid) ⟨bssid, pmkid⟩).npmkid ≠
            state.list.npmkid := by
          rw [hnew, PmkList.store, if_pos rfl]
          exact Nat.succ_ne_self _
        exact iff_of_false (entries_ne_of_npmkid_ne hcount) fun hkept ↦ hfound hkept.1
  · have hedit : Call.edit state.list (.set bssid pmkid answer) = none := if_neg hplace
    exact iff_of_true (changesAtomically_of_no_edit hedit) (.inl (Nat.not_lt.mp hplace))

theorem changesAtomically_del_iff (state : State) (bssid : EtherAddr) (pmkid : Vector UInt8 16)
    (answer : ℤ) :
    ChangesAtomically given state (.del bssid pmkid answer) ↔
      Call.Kept state.list (.del bssid pmkid answer) := by
  rw [Call.Kept]
  by_cases hfound : state.list.search bssid < state.list.npmkid
  · have hedit : Call.edit state.list (.del bssid pmkid answer) =
        some (state.list.delete (state.list.search bssid)) := if_pos hfound
    have hcount : (state.list.delete (state.list.search bssid)).npmkid =
        state.list.npmkid - 1 := rfl
    have hpos : 0 < state.list.npmkid := Nat.zero_lt_of_lt hfound
    rw [changesAtomically_of_edit hedit, Call.answer, or_iff_right (Nat.not_le.mpr hfound)]
    by_cases hanswer : answer = 0
    · rw [if_pos hanswer, and_iff_right hanswer, hcount]
      omega
    · rw [if_neg hanswer]
      have hless : (state.list.delete (state.list.search bssid)).npmkid ≠ state.list.npmkid := by
        rw [hcount]
        omega
      exact iff_of_false (entries_ne_of_npmkid_ne hless) fun hkept ↦ hanswer hkept.1
  · have hedit : Call.edit state.list (.del bssid pmkid answer) = none := if_neg hfound
    exact iff_of_true (changesAtomically_of_no_edit hedit) (.inl (Nat.not_lt.mp hfound))

theorem changesAtomically_flush_iff (state : State) (answer : ℤ) :
    ChangesAtomically given state (.flush answer) ↔ Call.Kept state.list (.flush answer) := by
  have hedit : Call.edit state.list (.flush answer) = some state.list.zeroed := rfl
  have hzeroed : state.list.zeroed.npmkid = 0 := rfl
  have hempty : state.list.zeroed.entries = [] := rfl
  rw [Call.Kept]
  rw [changesAtomically_of_edit hedit, Call.answer, hzeroed, hempty]
  by_cases hanswer : answer = 0
  · rw [if_pos hanswer]
    exact iff_of_true (by decide) (.inl hanswer)
  · rw [if_neg hanswer, or_iff_right hanswer, eq_comm, ← List.length_eq_zero_iff,
      PmkList.length_entries]

theorem changesAtomically_iff (state : State) (call : Call) :
    ChangesAtomically given state call ↔ call.Kept state.list := by
  cases call with
  | set bssid pmkid answer => exact changesAtomically_set_iff state bssid pmkid answer
  | del bssid pmkid answer => exact changesAtomically_del_iff state bssid pmkid answer
  | flush answer => exact changesAtomically_flush_iff state answer

/-! ## Runs -/

/-- Every call is possible in every state. -/
def cache : Machine State Call where
  initial _ := True
  step state call := some (apply state call)

def InSync (given : List (EtherAddr × Vector UInt8 16)) (state : State) : Prop :=
  state.list.entries = accepted given state.sent

/-- Every call is atomic, and when host and firmware start with the same entries they have the same
entries after every call. -/
structure AtomicRun (given : List (EtherAddr × Vector UInt8 16)) (start : State)
    (calls : List Call) : Prop where
  changes : cache.Along (ChangesAtomically given) start calls
  inSync : InSync given start → ∀ before, before <+: calls →
    InSync given (before.foldl apply start)

theorem ChangesAtomically.inSync {state : State} {call : Call}
    (h : ChangesAtomically given state call) (hsync : InSync given state) :
    InSync given (apply state call) := by
  unfold InSync
  rw [apply_eq_execute]
  by_cases hreturn : (execute state call).1 = 0
  · exact h.accepted hreturn
  · rw [h.rejected hreturn, hsync]
    cases hedit : call.edit state.list with
    | none => rw [(execute_of_no_edit hedit).2.2]
    | some next =>
      obtain ⟨hanswer, -, hsent⟩ := execute_of_edit hedit
      rw [hsent, accepted_of_ne_zero]
      exact fun hzero ↦ hreturn (hanswer.trans hzero)

theorem inSync_of_along {start : State} {calls before : List Call}
    (h : cache.Along (ChangesAtomically given) start calls) (hsync : InSync given start)
    (hbefore : before <+: calls) : InSync given (before.foldl apply start) := by
  induction before generalizing start calls with
  | nil => exact hsync
  | cons call before ih =>
    obtain ⟨rest, rfl⟩ := hbefore
    obtain ⟨hcall, hrest⟩ := Machine.along_cons_iff.mp h
    exact ih (hrest _ rfl) (hcall.inSync hsync) (List.prefix_append before rest)

/-- From any list, a run of calls is atomic if and only if every call is refused by the host, or
accepted by the firmware with at most 15 entries, or rejected without having changed anything. -/
theorem pmk_changes_atomic_iff (given : List (EtherAddr × Vector UInt8 16)) (start : State)
    (calls : List Call) :
    AtomicRun given start calls ↔
      cache.Along (fun state call ↦ call.Kept state.list) start calls := by
  have halong : cache.Along (ChangesAtomically given) start calls ↔
      cache.Along (fun state call ↦ call.Kept state.list) start calls :=
    @Machine.along_congr _ _ cache (fun _ ↦ True) _ _
      (fun state call _ ↦ changesAtomically_iff state call) (fun _ _ _ _ _ _ ↦ trivial) start
      calls trivial
  rw [← halong]
  constructor
  · intro hatomic
    exact hatomic.changes
  · intro hchanges
    exact ⟨hchanges, fun hsync before hbefore ↦ inSync_of_along hchanges hsync hbefore⟩

/-- One entry is set, and the firmware rejects the flush that follows. -/
def rejectedFlush : List Call :=
  [.set (Vector.replicate 6 1) (Vector.replicate 16 2) 0, .flush (-5)]

/-- The flush returns an error, the host list is empty, and the firmware keeps the entry. -/
theorem rejectedFlush_not_atomic :
    (rejectedFlush.foldl apply (allocated zeroMemory)).list.entries = [] ∧
      accepted [] (rejectedFlush.foldl apply (allocated zeroMemory)).sent =
        [(Vector.replicate 6 1, Vector.replicate 16 2)] ∧
      ¬AtomicRun [] (allocated zeroMemory) rejectedFlush := by
  have hempty : (rejectedFlush.foldl apply (allocated zeroMemory)).list.entries = [] := by decide
  have hkept : accepted [] (rejectedFlush.foldl apply (allocated zeroMemory)).sent =
      [(Vector.replicate 6 1, Vector.replicate 16 2)] := by decide +kernel
  refine ⟨hempty, hkept, fun h ↦ ?_⟩
  have hsync : InSync [] (rejectedFlush.foldl apply (allocated zeroMemory)) :=
    h.inSync rfl rejectedFlush (List.prefix_refl _)
  rw [InSync, hempty, hkept] at hsync
  cases hsync

end BroadcomWl.Cfg80211.Pmksa
