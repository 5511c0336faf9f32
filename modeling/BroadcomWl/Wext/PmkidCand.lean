import BroadcomWl.Wext.IwEvent

/-!
# PMKID candidates

For `WLC_E_PMKID_CACHE` the loop of `wl_iw_event` sends one event for every candidate. The tail of
the switch then sends what the loop has left in `extra` once more, so there is always one event
too many. The number of candidates comes from the data and is not compared with its length.
-/

namespace BroadcomWl.Wext.Event

open BroadcomWl.Memory

/-- What a candidate says. -/
structure Candidate where
  bssid : List UInt8
  preauth : Bool
deriving DecidableEq

/-- The `pmkid_cand_t` at a position of the data. -/
def candidateAt (data : ℕ → UInt8) (pmkidcand : ℕ) : Candidate :=
  ⟨slice data pmkidcand etherAddrLen, decide (data (pmkidcand + preauthAt) ≠ 0)⟩

/-- The candidates of a list, as many as it announces. -/
def candidates (data : ℕ → UInt8) : List Candidate :=
  (List.range (ntoh32Ua data)).map fun i ↦ candidateAt data (pmkidCandAt + pmkidCandSize * i)

/-- The whole list lies in the data. -/
def WellFormed (data : ℕ → UInt8) (datalen : ℕ) : Prop :=
  pmkidCandAt + pmkidCandSize * ntoh32Ua data ≤ datalen

instance (data : ℕ → UInt8) (datalen : ℕ) : Decidable (WellFormed data datalen) :=
  inferInstanceAs (Decidable (_ ≤ _))

/-- The `struct iw_pmkid_cand` in what `extra` holds. -/
def sentCandidate (extra : List Store) : Candidate :=
  ⟨slice (content extra) bssidAt etherAddrLen,
    decide (load32 (content extra) 0 &&& iwPmkidCandPreauth ≠ 0)⟩

/-- The candidates that are sent, in order. -/
def State.candidates (state : State) : List Candidate :=
  (state.sent.filter (·.cmd = .iwevpmkidcand)).map fun sent ↦ sentCandidate (sent.extra.getD [])

/-- A well-formed list is sent candidate by candidate, and nothing is read outside the data. -/
structure OnePerCandidate (e : WlEvent) (state : State) : Prop where
  sent : ∀ data, e.data = some data → WellFormed data e.datalen.toNat →
    state.candidates = candidates data
  reads : ∀ range ∈ state.reads, range.Inside e.datalen.toNat

section Loop

variable {state : State} {data : ℕ → UInt8}

theorem State.candidates_send_pmkidcand (extra : List Store) :
    (state.send .iwevpmkidcand (some extra)).candidates =
      state.candidates ++ [sentCandidate extra] := by
  unfold State.candidates State.send
  rw [List.filter_append, List.map_append]
  rfl

theorem State.candidates_send_custom (extra : List Store) :
    (state.send .iwevcustom (some extra)).candidates = state.candidates := by
  unfold State.candidates State.send
  rw [List.filter_append, List.map_append]
  exact List.append_nil _

/-- The flags are zero until the candidate sets them. -/
theorem holds_flags (extra : List Store) :
    Holds (extra ++ [⟨0, List.replicate iwPmkidCandSize 0⟩]) 0 (le32 0) :=
  have hholds := (Holds.single 0 (List.replicate iwPmkidCandSize 0)).prepend extra
  @Holds.left _ _ (le32 0) (List.replicate 20 0) hholds

/-- The address is stored behind the flags. -/
theorem sentCandidate_bssid {extra : List Store} {flags : ℕ} (h : Holds extra 0 (le32 flags))
    (pmkidcand : ℕ) :
    sentCandidate (extra ++ [⟨bssidAt, slice data pmkidcand etherAddrLen⟩]) =
      ⟨slice data pmkidcand etherAddrLen,
        decide (flags % 4294967296 &&& iwPmkidCandPreauth ≠ 0)⟩ := by
  have hbssid := (Holds.single bssidAt (slice data pmkidcand etherAddrLen)).prepend extra
  have hflags : Holds (extra ++ [⟨bssidAt, slice data pmkidcand etherAddrLen⟩]) 0
      (le32 flags ++ []) := by
    rw [List.append_nil]
    have hsize : 0 + (le32 flags).length ≤ bssidAt := show 0 + 4 ≤ 10 by decide
    exact h.append hsize fun i hi ↦ (covered_singleton.mp hi).1
  have hslice := hbssid.slice fun _ ↦ 0
  rw [length_slice] at hslice
  rw [sentCandidate, content, hslice, Holds.load32 hflags]

/-- The stores of a candidate hold it. -/
theorem sentCandidate_storeCandidate (pmkidcand : ℕ) :
    sentCandidate (storeCandidate data pmkidcand state).extra = candidateAt data pmkidcand := by
  have hflags := holds_flags state.extra
  unfold storeCandidate
  dsimp only
  by_cases hpreauth : data (pmkidcand + preauthAt) ≠ 0
  · rw [if_pos hpreauth]
    have hset := Holds.single 0 (le32 (load32 (content (state.extra ++
      [⟨0, List.replicate iwPmkidCandSize 0⟩])) 0 ||| iwPmkidCandPreauth))
    refine (sentCandidate_bssid (hset.prepend _) pmkidcand).trans ?_
    have hzero : load32 (content (state.extra ++ [⟨0, List.replicate iwPmkidCandSize 0⟩])) 0 =
        0 % 4294967296 := @Holds.load32 _ 0 0 [] hflags _
    rw [hzero, candidateAt, decide_eq_true hpreauth]
    rfl
  · rw [if_neg hpreauth]
    refine (sentCandidate_bssid hflags pmkidcand).trans ?_
    rw [candidateAt, decide_eq_false hpreauth]
    rfl

/-- What is stored and read sends nothing. -/
theorem storeCandidate_sent (pmkidcand : ℕ) :
    (storeCandidate data pmkidcand state).sent = state.sent := by
  unfold storeCandidate
  dsimp only
  split <;> rfl

/-- The loop sends its candidates, one after the other. -/
theorem pmkidLoop_candidates (count pmkidcand : ℕ) :
    (pmkidLoop data count pmkidcand state).candidates =
      state.candidates ++
        (List.range count).map fun i ↦ candidateAt data (pmkidcand + pmkidCandSize * i) := by
  induction count generalizing pmkidcand state with
  | zero => exact (List.append_nil _).symm
  | succ count ih =>
    have hfirst : (pmkidCandidate data pmkidcand state).candidates =
        state.candidates ++ [candidateAt data pmkidcand] := by
      rw [pmkidCandidate, State.candidates_send_pmkidcand, sentCandidate_storeCandidate,
        State.candidates, storeCandidate_sent]
      rfl
    rw [pmkidLoop, ih, hfirst, List.append_assoc, List.range_succ_eq_map, List.map_cons,
      List.map_map]
    refine congrArg (state.candidates ++ candidateAt data pmkidcand :: ·) ?_
    refine List.map_congr_left fun i _ ↦ congrArg (candidateAt data) ?_
    rw [Nat.mul_succ]
    omega

end Loop

/-! ## The event -/

section Event

variable {code : EventType → UInt8} {e : WlEvent} {data : ℕ → UInt8}

theorem sendConnFail_candidates (e : WlEvent) (state : State) :
    (sendConnFail e state).candidates = state.candidates := by
  unfold sendConnFail
  split
  · rfl
  · exact State.candidates_send_custom _

theorem sendConnFail_reads (e : WlEvent) (state : State) :
    (sendConnFail e state).reads = state.reads := by
  unfold sendConnFail
  split <;> rfl

theorem sendCase_candidates (state : State) :
    (sendCase (some .iwevpmkidcand, state)).candidates =
      state.candidates ++ [sentCandidate state.extra] := State.candidates_send_pmkidcand _

theorem sendCase_reads (state : State) :
    (sendCase (some .iwevpmkidcand, state)).reads = state.reads := rfl

/-- Before the loop. -/
def beforeLoop (e : WlEvent) : State := ((start e).read ⟨0, 4⟩).setLength iwPmkidCandSize

/-- The event is the loop, the tail of the switch, and a test that finds no failure. -/
theorem wlIwEvent_pmkidCache (hkind : e.eventType = .pmkidCache) (hdata : e.data = some data) :
    wlIwEvent code e = sendConnFail e
      (sendCase (some .iwevpmkidcand,
        pmkidLoop data (ntoh32Ua data) pmkidCandAt (beforeLoop e))) := by
  rw [wlIwEvent, eventCase, hkind]
  dsimp only
  rw [hdata]
  rfl

/-- Every candidate is sent, and then what the loop has left. -/
theorem pmkidCache_candidates (hkind : e.eventType = .pmkidCache) (hdata : e.data = some data) :
    (wlIwEvent code e).candidates = candidates data ++
      [sentCandidate (pmkidLoop data (ntoh32Ua data) pmkidCandAt (beforeLoop e)).extra] := by
  have hbefore : (beforeLoop e).candidates = [] := rfl
  rw [wlIwEvent_pmkidCache hkind hdata, sendConnFail_candidates, sendCase_candidates,
    pmkidLoop_candidates, hbefore, List.nil_append, candidates]

/-- Every read of the event lies inside exactly when its list does. -/
theorem pmkidCache_reads_iff (hkind : e.eventType = .pmkidCache) (hdata : e.data = some data) :
    (∀ range ∈ (wlIwEvent code e).reads, range.Inside e.datalen.toNat) ↔
      WellFormed data e.datalen.toNat := by
  have hreads : (wlIwEvent code e).reads =
      (pmkidLoop data (ntoh32Ua data) pmkidCandAt (beforeLoop e)).reads := by
    rw [wlIwEvent_pmkidCache hkind hdata, sendConnFail_reads, sendCase_reads]
  have hlength : (beforeLoop e).wrqu.length.toNat = iwPmkidCandSize :=
    show (UInt16.ofNat iwPmkidCandSize).toNat = iwPmkidCandSize by decide
  have hbefore : ∀ size, (beforeLoop e).Bounded size ↔ 0 + 4 ≤ size := fun size ↦ by
    rw [beforeLoop, bounded_setLength, bounded_read, and_iff_right (start_bounded e)]
    exact Range.inside_iff_within (by decide)
  have hloop : ∀ size, (pmkidLoop data (ntoh32Ua data) pmkidCandAt (beforeLoop e)).Bounded size ↔
      WellFormed data size := fun size ↦ by
    rw [bounded_pmkidLoop _ _ hlength, hbefore, WellFormed, pmkidCandAt, pmkidCandSize]
    omega
  rw [hreads]
  constructor
  · intro hinside
    -- the stores and the events do not depend on the length of the data
    have hlarge := (hloop (pmkidCandAt + pmkidCandSize * ntoh32Ua data)).mpr le_rfl
    exact (hloop _).mp ⟨hinside, hlarge.writes, hlarge.sent⟩
  · intro hwell
    exact ((hloop _).mpr hwell).reads

/-- There is one event for each candidate only when there is no data at all. -/
theorem pmkid_one_per_candidate_iff (code : EventType → UInt8) {e : WlEvent}
    (hkind : e.eventType = .pmkidCache) :
    OnePerCandidate e (wlIwEvent code e) ↔ e.data = none := by
  constructor
  · intro h
    by_contra hdata
    obtain ⟨data, hdata⟩ := Option.ne_none_iff_exists'.mp hdata
    have hwell := (pmkidCache_reads_iff hkind hdata).mp h.reads
    have hlength := congrArg List.length (h.sent data hdata hwell)
    rw [pmkidCache_candidates hkind hdata, List.length_append, List.length_singleton] at hlength
    omega
  · intro hnull
    have hevent : wlIwEvent code e = sendConnFail e (start e) := by
      rw [wlIwEvent, eventCase, hkind]
      dsimp only
      rw [hnull]
      rfl
    refine ⟨fun data hdata ↦ ?_, ?_⟩
    · rw [hnull] at hdata
      cases hdata
    · rw [hevent, sendConnFail_reads]
      exact List.forall_mem_nil _

end Event

/-- A list of one candidate with preauthentication. -/
def oneCandidate : WlEvent where
  eventType := .pmkidCache
  flags := 0
  status := 0
  reason := 0
  addr := Vector.replicate 6 0
  datalen := 11
  data := some fun
    | 3 => 1
    | 4 => 2
    | 10 => 1
    | _ => 0
  datalen_of_null := nofun

theorem pmkid_one_per_candidate_oneCandidate :
    OnePerCandidate oneCandidate (wlIwEvent (fun _ ↦ 0) oneCandidate) ↔
      oneCandidate.data = none :=
  pmkid_one_per_candidate_iff (fun _ ↦ 0) rfl

/-- The candidate is sent twice. -/
theorem oneCandidate_sent_twice :
    (wlIwEvent (fun _ ↦ 0) oneCandidate).candidates =
        [⟨[2, 0, 0, 0, 0, 0], true⟩, ⟨[2, 0, 0, 0, 0, 0], true⟩] ∧
      ¬OnePerCandidate oneCandidate (wlIwEvent (fun _ ↦ 0) oneCandidate) := by
  have htwice : (wlIwEvent (fun _ ↦ 0) oneCandidate).candidates =
      [⟨[2, 0, 0, 0, 0, 0], true⟩, ⟨[2, 0, 0, 0, 0, 0], true⟩] := by decide
  refine ⟨htwice, fun h ↦ ?_⟩
  have hone := h.sent _ rfl (by decide)
  rw [htwice] at hone
  exact absurd (congrArg List.length hone) (by decide)

end BroadcomWl.Wext.Event
