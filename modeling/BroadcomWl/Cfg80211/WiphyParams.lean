import BroadcomWl.Systems.Machine
import Mathlib.Data.Int.Order.Basic
import Mathlib.Data.List.Nodup
import Mathlib.Logic.Function.Basic
import Mathlib.Tactic.Common

/-!
# Wiphy parameters and their cache

`wl_cfg80211_set_wiphy_params` keeps the last requested thresholds and retry limits in
`wl->conf` and writes a parameter to the firmware only when the request differs from the
cached value. The four branches are alike: the cache is updated first, then the firmware
is asked, and the function returns as soon as a write succeeds.

The firmware is a store that accepts or rejects each write; a call carries its answers.
The module states exactly which calls leave the firmware and the cache as promised.
-/

namespace BroadcomWl.Cfg80211.WiphyParams

open BroadcomWl.Systems

/-- The parameters that the function knows. -/
inductive Param where
  | rtsThreshold
  | fragThreshold
  | retryLong
  | retryShort
deriving DecidableEq, Repr

/-- The bits `WIPHY_PARAM_*` of `changed`. -/
def Param.bit : Param → UInt32
  | .rtsThreshold => 8
  | .fragThreshold => 4
  | .retryLong => 2
  | .retryShort => 1

/-- The fields of `struct wiphy` that are read. -/
structure Wiphy where
  rtsThreshold : UInt32
  fragThreshold : UInt32
  retryLong : UInt8
  retryShort : UInt8
deriving DecidableEq, Repr

def Wiphy.value (wiphy : Wiphy) : Param → UInt32
  | .rtsThreshold => wiphy.rtsThreshold
  | .fragThreshold => wiphy.fragThreshold
  | .retryLong => wiphy.retryLong.toUInt32
  | .retryShort => wiphy.retryShort.toUInt32

/-- The cached values in `wl->conf`, what the firmware holds, and which parameters some call has
tried to set. -/
structure State where
  conf : Param → UInt32
  firmware : Param → UInt32
  tried : Param → Bool

/-- One call: its arguments, and the firmware's answer to a write of each parameter. -/
structure Call where
  changed : UInt32
  wiphy : Wiphy
  answer : Param → ℤ

def Call.flagged (call : Call) (p : Param) : Bool := call.changed &&& p.bit != 0

/-- The firmware stores the value when it answers zero. -/
def writeFirmware (p : Param) (value : UInt32) (answer : ℤ) (state : State) : ℤ × State :=
  (answer,
    if answer = 0 then { state with firmware := Function.update state.firmware p value }
    else state)

/-- `wl_set_rts`. -/
def wlSetRts : UInt32 → ℤ → State → ℤ × State := writeFirmware .rtsThreshold

/-- `wl_set_frag`. -/
def wlSetFrag : UInt32 → ℤ → State → ℤ × State := writeFirmware .fragThreshold

/-- `wl_set_retry`; `l` selects the long limit. -/
def wlSetRetry (l : Bool) : UInt32 → ℤ → State → ℤ × State :=
  writeFirmware (if l then .retryLong else .retryShort)

/-- The write that the branch of a parameter makes. -/
def wlSetParam : Param → UInt32 → ℤ → State → ℤ × State
  | .rtsThreshold => wlSetRts
  | .fragThreshold => wlSetFrag
  | .retryLong => wlSetRetry true
  | .retryShort => wlSetRetry false

/-- The assignment to the cache at the start of a branch. -/
def State.cache (state : State) (p : Param) (value : UInt32) : State :=
  { state with
    conf := Function.update state.conf p value
    tried := Function.update state.tried p true }

/-- The branches for the given parameters, in order, and the result of the function. -/
def setParams (call : Call) : List Param → ℤ → State → ℤ × State
  | [], err, state => (err, state)
  | p :: ps, err, state =>
      if call.flagged p ∧ state.conf p ≠ call.wiphy.value p then
        let (err, state) :=
          wlSetParam p (call.wiphy.value p) (call.answer p) (state.cache p (call.wiphy.value p))
        if err = 0 then (err, state) else setParams call ps err state
      else setParams call ps err state

/-- The order of the branches. -/
def branches : List Param := [.rtsThreshold, .fragThreshold, .retryLong, .retryShort]

/-- `wl_cfg80211_set_wiphy_params`. -/
def wlCfg80211SetWiphyParams (call : Call) (state : State) : ℤ × State :=
  setParams call branches 0 state

/-- `wl_init_conf` sets every cached value to `(u32)-1`; the firmware may hold anything. -/
def initialized (firmware : Param → UInt32) : State where
  conf _ := 0xFFFFFFFF
  firmware := firmware
  tried _ := false

def machine : Machine State Call where
  initial state := ∃ firmware, state = initialized firmware
  step state call := some (wlCfg80211SetWiphyParams call state).2

/-- Every cached value that some call has set is the firmware's. -/
def Coherent (state : State) : Prop :=
  ∀ p, state.tried p = true → state.conf p = state.firmware p

/-- What a call is to achieve: when it returns zero every flagged parameter has its value in the
firmware, and in any case the cache is coherent afterwards. -/
def Sound (state : State) (call : Call) : Prop :=
  ((wlCfg80211SetWiphyParams call state).1 = 0 →
      ∀ p, call.flagged p = true →
        (wlCfg80211SetWiphyParams call state).2.firmware p = call.wiphy.value p) ∧
    Coherent (wlCfg80211SetWiphyParams call state).2

/-- A flagged parameter whose cached value differs from the request. -/
def needsWrite (state : State) (call : Call) (p : Param) : Bool :=
  call.flagged p && state.conf p != call.wiphy.value p

/-- The first parameter that needs a write which the firmware accepts. -/
def firstAccepted (state : State) (call : Call) : Option Param :=
  branches.find? fun p ↦ needsWrite state call p && call.answer p == 0

/-- The calls that achieve it. A flagged parameter is already right in the firmware, or it is the
first one that is written with success, or the firmware rejects everything the call has to write
and this parameter is not among it. -/
def Covered (state : State) (call : Call) : Prop :=
  ∀ p, call.flagged p = true →
    state.firmware p = call.wiphy.value p ∨ firstAccepted state call = some p ∨
      (firstAccepted state call = none ∧ (∃ q, needsWrite state call q = true) ∧
        needsWrite state call p = false)

/-! ## What a call does -/

theorem wlSetParam_eq (p : Param) : wlSetParam p = writeFirmware p := by
  cases p <;> rfl

/-- The parameters among `ps` that are written: those that need it, up to the first success. -/
def attempts (call : Call) (needs : Param → Bool) : List Param → List Param
  | [] => []
  | p :: ps =>
      if needs p then p :: if call.answer p = 0 then [] else attempts call needs ps
      else attempts call needs ps

/-- The first success among `ps`. -/
def accepted (call : Call) (needs : Param → Bool) (ps : List Param) : Option Param :=
  ps.find? fun p ↦ needs p && call.answer p == 0

theorem attempts_needs {call : Call} {needs : Param → Bool} {ps : List Param} {p : Param}
    (h : p ∈ attempts call needs ps) : needs p = true := by
  induction ps with
  | nil => cases h
  | cons q ps ih =>
    unfold attempts at h
    split at h
    · rcases List.mem_cons.mp h with rfl | h
      · assumption
      · split at h
        · cases h
        · exact ih h
    · exact ih h

theorem mem_attempts_of_accepted {call : Call} {needs : Param → Bool} {ps : List Param}
    {p : Param} (h : accepted call needs ps = some p) : p ∈ attempts call needs ps := by
  induction ps with
  | nil => cases h
  | cons q ps ih =>
    unfold accepted at h
    by_cases hneeds : needs q = true
    · by_cases hanswer : call.answer q = 0
      · rw [List.find?_cons_of_pos (by simp [hneeds, hanswer])] at h
        cases h
        simp [attempts, hneeds]
      · rw [List.find?_cons_of_neg (by simp [hanswer])] at h
        simp [attempts, hneeds, hanswer, ih h]
    · rw [List.find?_cons_of_neg (by simp [hneeds])] at h
      simp [attempts, hneeds, ih h]

/-- Without a success everything that needs a write is attempted. -/
theorem mem_attempts_of_accepted_eq_none {call : Call} {needs : Param → Bool} {ps : List Param}
    {p : Param} (h : accepted call needs ps = none) (hp : p ∈ ps) (hneeds : needs p = true) :
    p ∈ attempts call needs ps := by
  induction ps with
  | nil => cases hp
  | cons q ps ih =>
    have hnone := List.find?_eq_none.mp h
    have hq := hnone q List.mem_cons_self
    have hrest : accepted call needs ps = none :=
      List.find?_eq_none.mpr fun r hr ↦ hnone r (List.mem_cons_of_mem _ hr)
    rcases List.mem_cons.mp hp with rfl | hp
    · simp [attempts, hneeds]
    · by_cases hneedsq : needs q = true
      · have hanswer : call.answer q ≠ 0 := by simpa [hneedsq] using hq
        simp [attempts, hneedsq, hanswer, ih hrest hp]
      · simp [attempts, hneedsq, ih hrest hp]

/-- What the branches `ps` do, when `needs` says which parameters need a write. -/
structure Outcome (call : Call) (needs : Param → Bool) (ps : List Param) (err : ℤ)
    (before : State) (result : ℤ × State) : Prop where
  firmware : result.2.firmware =
    match accepted call needs ps with
    | none => before.firmware
    | some p => Function.update before.firmware p (call.wiphy.value p)
  conf : ∀ p, result.2.conf p =
    if p ∈ attempts call needs ps then call.wiphy.value p else before.conf p
  tried : ∀ p, result.2.tried p = true ↔ before.tried p = true ∨ p ∈ attempts call needs ps
  err : result.1 = 0 ↔
    accepted call needs ps ≠ none ∨ (err = 0 ∧ attempts call needs ps = [])

section Branches

variable {call : Call} {needs : Param → Bool} {q : Param} {ps : List Param} {err : ℤ}
  {state : State}

/-- The write succeeds and the function returns. -/
theorem outcome_of_accepted (hneeds : needs q = true)
    (hwrite : call.flagged q ∧ state.conf q ≠ call.wiphy.value q) (hanswer : call.answer q = 0) :
    Outcome call needs (q :: ps) err state (setParams call (q :: ps) err state) := by
  have hresult : setParams call (q :: ps) err state =
      (0, { state.cache q (call.wiphy.value q) with
        firmware := Function.update state.firmware q (call.wiphy.value q) }) := by
    rw [setParams, if_pos hwrite, wlSetParam_eq, writeFirmware]
    simp [hanswer, State.cache]
  have haccepted : accepted call needs (q :: ps) = some q :=
    List.find?_cons_of_pos (by simp [hneeds, hanswer])
  have hattempts : attempts call needs (q :: ps) = [q] := by simp [attempts, hneeds, hanswer]
  rw [hresult]
  refine ⟨by rw [haccepted], fun p ↦ ?_, fun p ↦ ?_, by simp [haccepted]⟩
  · by_cases hp : p = q
    · simp [hattempts, State.cache, hp]
    · simp [hattempts, State.cache, hp]
  · by_cases hp : p = q
    · simp [hattempts, State.cache, hp]
    · simp [hattempts, State.cache, hp]

/-- The write is rejected, but the cache keeps the new value. -/
theorem outcome_of_rejected (hneeds : needs q = true)
    (hwrite : call.flagged q ∧ state.conf q ≠ call.wiphy.value q) (hanswer : call.answer q ≠ 0)
    (hrest : Outcome call needs ps (call.answer q) (state.cache q (call.wiphy.value q))
      (setParams call ps (call.answer q) (state.cache q (call.wiphy.value q)))) :
    Outcome call needs (q :: ps) err state (setParams call (q :: ps) err state) := by
  have hresult : setParams call (q :: ps) err state =
      setParams call ps (call.answer q) (state.cache q (call.wiphy.value q)) := by
    rw [setParams, if_pos hwrite, wlSetParam_eq, writeFirmware]
    simp [hanswer]
  have haccepted : accepted call needs (q :: ps) = accepted call needs ps :=
    List.find?_cons_of_neg (by simp [hanswer])
  have hattempts : attempts call needs (q :: ps) = q :: attempts call needs ps := by
    simp [attempts, hneeds, hanswer]
  rw [hresult]
  refine ⟨by rw [haccepted]; exact hrest.firmware, fun p ↦ ?_, fun p ↦ ?_, ?_⟩
  · rw [hrest.conf, hattempts]
    by_cases hp : p = q
    · simp [State.cache, hp]
    · simp [State.cache, hp]
  · rw [hrest.tried, hattempts]
    by_cases hp : p = q
    · simp [State.cache, hp]
    · simp [State.cache, hp]
  · rw [hrest.err, haccepted, hattempts]
    simp [hanswer]

theorem outcome_of_skipped (hneeds : ¬needs q = true)
    (hwrite : ¬(call.flagged q ∧ state.conf q ≠ call.wiphy.value q))
    (hrest : Outcome call needs ps err state (setParams call ps err state)) :
    Outcome call needs (q :: ps) err state (setParams call (q :: ps) err state) := by
  have hresult : setParams call (q :: ps) err state = setParams call ps err state := by
    rw [setParams, if_neg hwrite]
  have haccepted : accepted call needs (q :: ps) = accepted call needs ps :=
    List.find?_cons_of_neg (by simp [hneeds])
  have hattempts : attempts call needs (q :: ps) = attempts call needs ps := by
    simp [attempts, hneeds]
  rw [hresult]
  exact ⟨haccepted ▸ hrest.firmware, hattempts ▸ hrest.conf, hattempts ▸ hrest.tried,
    by rw [haccepted, hattempts]; exact hrest.err⟩

end Branches

theorem setParams_outcome (call : Call) {needs : Param → Bool} {ps : List Param} (err : ℤ)
    {state : State} (hnodup : ps.Nodup)
    (hneeds : ∀ p ∈ ps, needs p = true ↔ call.flagged p ∧ state.conf p ≠ call.wiphy.value p) :
    Outcome call needs ps err state (setParams call ps err state) := by
  induction ps generalizing err state with
  | nil => exact ⟨rfl, fun p ↦ rfl, fun p ↦ by simp [setParams, attempts], by
      simp [setParams, attempts, accepted]⟩
  | cons q ps ih =>
    obtain ⟨hq, hnodup⟩ := List.nodup_cons.mp hnodup
    have hqneeds := hneeds q List.mem_cons_self
    have hrest : ∀ p ∈ ps, needs p = true ↔ call.flagged p ∧ state.conf p ≠ call.wiphy.value p :=
      fun p hp ↦ hneeds p (List.mem_cons_of_mem _ hp)
    by_cases hneedsq : needs q = true
    · have hwrite := hqneeds.mp hneedsq
      by_cases hanswer : call.answer q = 0
      · exact outcome_of_accepted hneedsq hwrite hanswer
      · refine outcome_of_rejected hneedsq hwrite hanswer (ih _ hnodup fun p hp ↦ ?_)
        have hpq : p ≠ q := fun heq ↦ hq (heq ▸ hp)
        rw [hrest p hp]
        simp [State.cache, hpq]
    · exact outcome_of_skipped hneedsq (mt hqneeds.mpr hneedsq) (ih err hnodup hrest)

theorem mem_branches (p : Param) : p ∈ branches := by
  cases p <;> decide

theorem call_outcome (state : State) (call : Call) :
    Outcome call (needsWrite state call) branches 0 state (wlCfg80211SetWiphyParams call state) :=
  setParams_outcome call 0 (by decide) fun p _ ↦ by simp [needsWrite]

/-! ## Exactly the covered calls are sound -/

variable {state : State} {call : Call}

theorem needsWrite_flagged {p : Param} (h : needsWrite state call p = true) :
    call.flagged p = true :=
  (Bool.and_eq_true_iff.mp h).1

/-- A parameter that no write changes keeps its value in the firmware. -/
theorem firmware_of_not_accepted {p : Param} (h : firstAccepted state call ≠ some p) :
    (wlCfg80211SetWiphyParams call state).2.firmware p = state.firmware p := by
  have hfirmware := (call_outcome state call).firmware
  change accepted call (needsWrite state call) branches ≠ some p at h
  rw [hfirmware]
  split
  · rfl
  · rename_i q hq
    exact Function.update_of_ne (fun heq ↦ h (by rw [heq, hq])) ..

theorem firmware_of_accepted {p : Param} (h : firstAccepted state call = some p) :
    (wlCfg80211SetWiphyParams call state).2.firmware p = call.wiphy.value p := by
  have hfirmware := (call_outcome state call).firmware
  change accepted call (needsWrite state call) branches = some p at h
  rw [hfirmware, h]
  exact Function.update_self ..

/-- The call returns zero when a write succeeded or nothing needed one. -/
theorem returns_zero_iff :
    (wlCfg80211SetWiphyParams call state).1 = 0 ↔
      firstAccepted state call ≠ none ∨ ∀ p, needsWrite state call p = false := by
  rw [(call_outcome state call).err]
  refine or_congr_right' fun haccepted ↦ ?_
  have hnone : accepted call (needsWrite state call) branches = none := not_not.mp haccepted
  constructor
  · intro h p
    rw [← Bool.not_eq_true]
    intro hneeds
    have hmem := mem_attempts_of_accepted_eq_none hnone (mem_branches p) hneeds
    rw [h.2] at hmem
    cases hmem
  · intro h
    refine ⟨rfl, List.eq_nil_iff_forall_not_mem.mpr fun p hp ↦ ?_⟩
    have hneeds := attempts_needs hp
    rw [h p] at hneeds
    cases hneeds

/-- A flagged parameter of a sound call is covered. -/
theorem Sound.covered (h : Sound state call) : Covered state call := by
  intro p hflagged
  by_cases haccepted : firstAccepted state call = some p
  · exact .inr (.inl haccepted)
  have hsame := firmware_of_not_accepted haccepted
  by_cases hzero : (wlCfg80211SetWiphyParams call state).1 = 0
  · exact .inl (hsame ▸ h.1 hzero p hflagged)
  obtain ⟨hnone, hsome⟩ := not_or.mp (mt returns_zero_iff.mpr hzero)
  have hnone : firstAccepted state call = none := not_not.mp hnone
  cases hneeds : needsWrite state call p with
  | false => exact .inr (.inr ⟨hnone, by simpa using hsome, rfl⟩)
  | true =>
    have hmem := mem_attempts_of_accepted_eq_none hnone (mem_branches p) hneeds
    have hconf := (call_outcome state call).conf p
    rw [if_pos hmem] at hconf
    have htried := ((call_outcome state call).tried p).mpr (.inr hmem)
    exact .inl (by rw [← hsame, ← h.2 p htried, hconf])

theorem Covered.sound (h : Covered state call) (hcoherent : Coherent state) :
    Sound state call := by
  have hright : ∀ p, call.flagged p = true → needsWrite state call p = true ∨
      (wlCfg80211SetWiphyParams call state).1 = 0 →
      (wlCfg80211SetWiphyParams call state).2.firmware p = call.wiphy.value p := by
    intro p hflagged hcase
    by_cases haccepted : firstAccepted state call = some p
    · exact firmware_of_accepted haccepted
    rw [firmware_of_not_accepted haccepted]
    rcases h p hflagged with hfirmware | hsome | ⟨hnone, ⟨q, hq⟩, hneeds⟩
    · exact hfirmware
    · exact absurd hsome haccepted
    · rcases hcase with hneeds' | hzero
      · rw [hneeds] at hneeds'
        cases hneeds'
      · rcases returns_zero_iff.mp hzero with hsome | hall
        · exact absurd hnone hsome
        · rw [hall q] at hq
          cases hq
  refine ⟨fun hzero p hflagged ↦ hright p hflagged (.inr hzero), fun p htried ↦ ?_⟩
  have hconf := (call_outcome state call).conf p
  by_cases hmem : p ∈ attempts call (needsWrite state call) branches
  · have hneeds := attempts_needs hmem
    rw [if_pos hmem] at hconf
    rw [hconf, hright p (needsWrite_flagged hneeds) (.inl hneeds)]
  · have hbefore := (((call_outcome state call).tried p).mp htried).resolve_right hmem
    have haccepted : firstAccepted state call ≠ some p := fun hsome ↦
      hmem (mem_attempts_of_accepted hsome)
    rw [if_neg hmem] at hconf
    rw [hconf, firmware_of_not_accepted haccepted, hcoherent p hbefore]

/-- For every sequence of calls and every firmware: all calls do what they are to achieve exactly
when all of them are covered. -/
theorem wiphy_params_coherent_iff (firmware : Param → UInt32) (calls : List Call) :
    machine.Along Sound (initialized firmware) calls ↔
      machine.Along Covered (initialized firmware) calls := by
  have hcondition : ∀ state call, Coherent state → (Sound state call ↔ Covered state call) :=
    fun state call hcoherent ↦ ⟨Sound.covered, fun hcovered ↦ hcovered.sound hcoherent⟩
  have hstep : ∀ state call next, Coherent state → Sound state call →
      machine.step state call = some next → Coherent next := by
    intro state call next _ hsound hnext
    cases hnext
    exact hsound.2
  have hstart : Coherent (initialized firmware) := fun p htried ↦ nomatch htried
  exact Machine.along_congr hcondition hstep hstart

/-- Two thresholds change in one call. The first write succeeds, the call returns zero, and the
second threshold never reaches the firmware. -/
def twoThresholds : Call := ⟨12, ⟨500, 600, 7, 4⟩, fun _ ↦ 0⟩

/-- The only write is rejected. The cache holds a value that the firmware does not. -/
def rejectedThreshold : Call := ⟨8, ⟨500, 600, 7, 4⟩, fun _ ↦ -1⟩

theorem wiphy_params_not_coherent :
    ¬Sound (initialized fun _ ↦ 0) twoThresholds ∧
      ¬Sound (initialized fun _ ↦ 0) rejectedThreshold := by
  constructor
  · intro hsound
    exact absurd (hsound.1 (by decide) .fragThreshold (by decide)) (by decide)
  · intro hsound
    exact absurd (hsound.2 .rtsThreshold (by decide)) (by decide)

end BroadcomWl.Cfg80211.WiphyParams
