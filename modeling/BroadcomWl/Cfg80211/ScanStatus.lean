import BroadcomWl.Cfg80211.ScanResults
import BroadcomWl.Memory.Ledger
import Mathlib.Algebra.Ring.Nat

/-!
# Fetching the scan results

`wl_notify_scan_status` allocates a buffer, lets the firmware fill it, and doubles it as long as the
firmware finds it too small. The loop has no bound of its own: it ends because the allocator has
one. All exits share an epilogue that completes the pending scan request and drops the rtnl lock.

A trace records the resources, the buffers handed to the firmware and the completed requests. The
rtnl lock is one of the resources. The firmware and the allocator answer every round anew.
-/

namespace BroadcomWl.Cfg80211.ScanStatus

open BroadcomWl.Memory.Ledger
open BroadcomWl.Cfg80211.ScanResults (Kernel e2big einval bssInfo wlBssInfoMax wlInformSingleBss
  version wlBssInfoVersion count wlApMax bssInfoAt wlInformBss willing)

/-- What one `kmalloc` of the loop returned, with the size that it was asked for. -/
structure Block where
  round : ℕ
  size : UInt32
deriving DecidableEq, Repr

/-- What is acquired; `notif_bss_info` belongs to one record of the walk. -/
inductive Resource where
  | rtnl
  | bssList (block : Block)
  | notifBssInfo (i : ℕ)
deriving DecidableEq, Repr

inductive Call where
  | ledger (event : Event Resource)
  | scanResults (block : Block) (buflen : UInt32)
  | scanDone (request : ℕ)
deriving DecidableEq, Repr

/-- The firmware writes to the buffer that it is given. -/
def Call.event : Call → Option (Event Resource)
  | .ledger event => some event
  | .scanResults block _ => some (.access (.bssList block))
  | .scanDone _ => none

/-- The request that `cfg80211_scan_done` completes. -/
def Call.request : Call → Option ℕ
  | .scanDone request => some request
  | _ => none

def ledger (trace : List Call) : List (Event Resource) := trace.filterMap Call.event

def completed (trace : List Call) : List ℕ := trace.filterMap Call.request

def acquire (resource : Resource) (trace : List Call) : List Call :=
  trace ++ [.ledger (.acquire resource)]

def access (resource : Resource) (trace : List Call) : List Call :=
  trace ++ [.ledger (.access resource)]

def release (resource : Resource) (trace : List Call) : List Call :=
  trace ++ [.ledger (.release resource)]

/-- The answer to `WLC_GET_CHANNEL`, and for every round those of the allocator and of
`WLC_SCAN_RESULTS` with what it leaves in the buffer; then those of the kernel for the records. -/
structure Environment where
  getChannel : ℤ
  kmalloc : ℕ → UInt32 → Bool
  scanResults : ℕ → ℤ
  memory : ℕ → ℕ → UInt8
  kernel : ℕ → Kernel

def wlScanBufBase : ℕ := 16 * 1024

/-- What the loop leaves: the error, and the buffer unless it left for `scan_done_out`. -/
structure Fetched where
  err : ℤ
  bssList : Option Block
  trace : List Call

/-- The loop, from the given round on. -/
def fetch (env : Environment) : ℕ → ℕ → UInt32 → ℤ → List Call → Option Fetched
  | 0, _, _, _, _ => none
  | fuel + 1, round, buflen, err, trace =>
      if !env.kmalloc round buflen then some ⟨err, none, trace⟩
      else
        let block : Block := ⟨round, buflen⟩
        let trace := access (.bssList block) (acquire (.bssList block) trace)
        let trace := trace ++ [.scanResults block buflen]
        let err := env.scanResults round
        if err = 0 then some ⟨err, some block, trace⟩
        else if err = -e2big then
          fetch env fuel (round + 1) (buflen * 2) err (release (.bssList block) trace)
        else some ⟨-einval, none, release (.bssList block) trace⟩

section Inform

variable (env : Environment) (scanRequest : Bool) (block : Block)

/-- What `wl_inform_single_bss` does with its buffer: behind the allocation every exit passes
`inform_single_bss_out`. -/
def informSingleTrace (i bi : ℕ) (trace : List Call) : List Call :=
  let trace := access (.bssList block) trace
  if (bssInfo (env.memory block.round) bi).length > wlBssInfoMax then trace
  else if !(env.kernel i).kzalloc then trace
  else
    let trace := access (.bssList block) (acquire (.notifBssInfo i) trace)
    release (.notifBssInfo i) (access (.notifBssInfo i) trace)

/-- The trace of `forEachBss`. -/
def forEachBssTrace : ℕ → ℕ → ℕ → List Call → List Call
  | 0, _, _, trace => trace
  | count + 1, i, bi, trace =>
      let memory := env.memory block.round
      let trace := informSingleTrace env block i bi trace
      if (wlInformSingleBss memory scanRequest (env.kernel i) bi).err ≠ 0 then trace
      else
        forEachBssTrace count (i + 1) (bi + (bssInfo memory bi).length)
          (access (.bssList block) trace)

/-- The trace of `wlInformBss`. -/
def wlInformBssTrace (trace : List Call) : List Call :=
  let memory := env.memory block.round
  let trace := access (.bssList block) trace
  if version memory ≠ wlBssInfoVersion then trace
  else
    forEachBssTrace env scanRequest block (min (count memory) wlApMax) 0 bssInfoAt trace

end Inform

/-- The result, `wl->scan_request`, and the trace. -/
structure Notified where
  err : ℤ
  scanRequest : Option ℕ
  trace : List Call
deriving DecidableEq

/-- The code behind `scan_done_out`. -/
def scanDoneOut (err : ℤ) (scanRequest : Option ℕ) (trace : List Call) : Notified :=
  match scanRequest with
  | some request => ⟨err, none, release .rtnl (trace ++ [.scanDone request])⟩
  | none => ⟨err, none, release .rtnl trace⟩

/-- What follows the loop. -/
def report (env : Environment) (scanRequest : Option ℕ) (fetched : Fetched) : Notified :=
  match fetched.bssList with
  | none => scanDoneOut fetched.err scanRequest fetched.trace
  | some block =>
      let walk := wlInformBss (env.memory block.round) scanRequest.isSome env.kernel
      let trace := access (.bssList block) fetched.trace
      let trace := wlInformBssTrace env scanRequest.isSome block trace
      scanDoneOut walk.err scanRequest (release (.bssList block) trace)

/-- `wl_notify_scan_status`, whose loop makes at most `fuel` rounds. -/
def wlNotifyScanStatus (env : Environment) (scanRequest : Option ℕ) (fuel : ℕ) :
    Option Notified :=
  let trace := acquire .rtnl []
  if env.getChannel ≠ 0 then some (scanDoneOut env.getChannel scanRequest trace)
  else
    (fetch env fuel 0 (UInt32.ofNat wlScanBufBase) env.getChannel trace).map
      (report env scanRequest)

/-! ## What a trace keeps -/

/-- The block is acquired and not released. -/
def Live (trace : List Call) (block : Block) : Prop :=
  .acquire (.bssList block) ∈ ledger trace ∧ .release (.bssList block) ∉ ledger trace

/-- The firmware is told the size of a live buffer, and no doubling has wrapped. -/
def Sized (trace : List Call) : Prop :=
  ∀ earlier block buflen, earlier ++ [.scanResults block buflen] <+: trace →
    Live earlier block ∧ buflen = block.size ∧ buflen.toNat = wlScanBufBase * 2 ^ block.round

/-- A trace in progress: no request is completed yet. -/
structure Running (trace : List Call) (held : Finset Resource) : Prop where
  holds : Holds (ledger trace) held
  sized : Sized trace
  completed : completed trace = []

section Steps

variable {trace : List Call} {held : Finset Resource} {resource : Resource} {block : Block}

theorem ledger_concat_ledger (event : Event Resource) :
    ledger (trace ++ [.ledger event]) = ledger trace ++ [event] := by
  rw [ledger, List.filterMap_append]
  rfl

theorem ledger_concat_scanResults (buflen : UInt32) :
    ledger (trace ++ [.scanResults block buflen]) =
      ledger trace ++ [.access (.bssList block)] := by
  rw [ledger, List.filterMap_append]
  rfl

theorem ledger_concat_scanDone (request : ℕ) :
    ledger (trace ++ [.scanDone request]) = ledger trace := by
  rw [ledger, List.filterMap_append]
  exact List.append_nil _

theorem Sized.concat {call : Call} (h : Sized trace)
    (hcall : ∀ block buflen, call = .scanResults block buflen →
      Live trace block ∧ buflen = block.size ∧
        buflen.toNat = wlScanBufBase * 2 ^ block.round) :
    Sized (trace ++ [call]) := by
  intro earlier block buflen hprefix
  rcases List.prefix_concat_iff.mp hprefix with hlast | hbefore
  · obtain ⟨rfl, hsame⟩ := List.append_inj' hlast rfl
    exact hcall block buflen (List.singleton_inj.mp hsame).symm
  · exact h earlier block buflen hbefore

theorem Sized.concat_ledger (h : Sized trace) (event : Event Resource) :
    Sized (trace ++ [.ledger event]) :=
  h.concat fun _ _ hcall ↦ nomatch hcall

theorem completed_concat_ledger (event : Event Resource) :
    completed (trace ++ [.ledger event]) = completed trace := by
  rw [completed, List.filterMap_append]
  exact List.append_nil _

theorem Running.ledger_concat (h : Running trace held) {event : Event Resource}
    {kept : Finset Resource} (hholds : Holds (ledger trace ++ [event]) kept) :
    Running (trace ++ [.ledger event]) kept where
  holds := by rwa [ledger_concat_ledger]
  sized := h.sized.concat_ledger event
  completed := by rw [completed_concat_ledger, h.completed]

theorem Running.acquire (h : Running trace held) (hnew : .release resource ∉ ledger trace) :
    Running (acquire resource trace) (insert resource held) :=
  h.ledger_concat (h.holds.acquire hnew)

theorem Running.access (h : Running trace held) (hmem : resource ∈ held) :
    Running (access resource trace) held :=
  h.ledger_concat (h.holds.access hmem)

theorem Running.release (h : Running trace (insert resource held)) (hnot : resource ∉ held) :
    Running (release resource trace) held :=
  h.ledger_concat (h.holds.release_insert hnot)

/-- The firmware may be given a buffer that is held. -/
theorem Running.scanResults (h : Running trace held) (hmem : .bssList block ∈ held)
    (hsize : block.size.toNat = wlScanBufBase * 2 ^ block.round) :
    Running (trace ++ [.scanResults block block.size]) held where
  holds := by
    rw [ledger_concat_scanResults]
    exact h.holds.access hmem
  sized := by
    refine h.sized.concat fun other buflen hcall ↦ ?_
    obtain ⟨rfl, rfl⟩ := Call.scanResults.inj hcall
    exact ⟨(h.holds.mem_iff _).mp hmem, rfl, hsize⟩
  completed := by
    rw [ScanStatus.completed, List.filterMap_append]
    exact (List.append_nil _).trans h.completed

theorem release_mem_ledger_release {other : Resource} :
    .release other ∈ ledger (release resource trace) ↔
      .release other ∈ ledger trace ∨ other = resource := by
  simp [ScanStatus.release, ledger_concat_ledger]

theorem release_mem_ledger_acquire {other : Resource} :
    .release other ∈ ledger (acquire resource trace) ↔ .release other ∈ ledger trace := by
  simp [ScanStatus.acquire, ledger_concat_ledger]

theorem release_mem_ledger_access {other : Resource} :
    .release other ∈ ledger (access resource trace) ↔ .release other ∈ ledger trace := by
  simp [ScanStatus.access, ledger_concat_ledger]

end Steps

/-! ## The records -/

section Records

variable {env : Environment} {scanRequest : Bool} {block : Block} {held : Finset Resource}

/-- A record leaves nothing behind. -/
theorem Running.informSingle {trace : List Call} {i : ℕ} (h : Running trace held)
    (hblock : .bssList block ∈ held) (hnot : .notifBssInfo i ∉ held)
    (hnew : .release (.notifBssInfo i) ∉ ledger trace) (bi : ℕ) :
    Running (informSingleTrace env block i bi trace) held := by
  have hread := h.access hblock
  unfold informSingleTrace
  dsimp only
  split_ifs
  · exact hread
  · exact hread
  · have hacquired := hread.acquire (mt release_mem_ledger_access.mp hnew)
    have hused := hacquired.access (Finset.mem_insert_of_mem hblock)
    exact (hused.access (Finset.mem_insert_self _ _)).release hnot

theorem release_mem_informSingle {trace : List Call} {i bi : ℕ} {other : Resource}
    (h : .release other ∈ ledger (informSingleTrace env block i bi trace)) :
    .release other ∈ ledger trace ∨ other = .notifBssInfo i := by
  unfold informSingleTrace at h
  dsimp only at h
  split_ifs at h
  · exact .inl (release_mem_ledger_access.mp h)
  · exact .inl (release_mem_ledger_access.mp h)
  · rcases release_mem_ledger_release.mp h with hbefore | hsame
    · rw [release_mem_ledger_access, release_mem_ledger_access, release_mem_ledger_acquire,
        release_mem_ledger_access] at hbefore
      exact .inl hbefore
    · exact .inr hsame

theorem Running.forEachBss (hblock : .bssList block ∈ held)
    (hnot : ∀ i, .notifBssInfo i ∉ held) (count i bi : ℕ) {trace : List Call}
    (h : Running trace held)
    (hnew : ∀ j, i ≤ j → .release (.notifBssInfo j) ∉ ledger trace) :
    Running (forEachBssTrace env scanRequest block count i bi trace) held := by
  induction count generalizing i bi trace with
  | zero => exact h
  | succ count ih =>
    have hsingle := @Running.informSingle env block held trace i h hblock (hnot i)
      (hnew i le_rfl) bi
    unfold forEachBssTrace
    dsimp only
    split
    · exact hsingle
    · refine ih (i + 1) _ (hsingle.access hblock) fun j hj hreleased ↦ ?_
      rcases release_mem_informSingle (release_mem_ledger_access.mp hreleased) with
        hbefore | hsame
      · exact hnew j (Nat.le_of_succ_le hj) hbefore
      · exact absurd (Resource.notifBssInfo.inj hsame) (Nat.ne_of_gt hj)

theorem Running.informBss {trace : List Call} (h : Running trace held)
    (hblock : .bssList block ∈ held) (hnot : ∀ i, .notifBssInfo i ∉ held)
    (hnew : ∀ i, .release (.notifBssInfo i) ∉ ledger trace) :
    Running (wlInformBssTrace env scanRequest block trace) held := by
  have hread := h.access hblock
  unfold wlInformBssTrace
  dsimp only
  split
  · exact hread
  · exact hread.forEachBss hblock hnot _ _ _ fun j _ ↦ mt release_mem_ledger_access.mp (hnew j)

end Records

/-! ## The loop -/

/-- Before a round: only buffers of earlier rounds are released. -/
structure AtRound (trace : List Call) (round : ℕ) : Prop where
  running : Running trace {.rtnl}
  blocks : ∀ block, .release (.bssList block) ∈ ledger trace → block.round < round
  records : ∀ i, .release (.notifBssInfo i) ∉ ledger trace

def Fetched.held (fetched : Fetched) : Finset Resource :=
  match fetched.bssList with
  | none => {.rtnl}
  | some block => {.bssList block, .rtnl}

structure Fetched.Ready (fetched : Fetched) : Prop where
  running : Running fetched.trace fetched.held
  records : ∀ i, .release (.notifBssInfo i) ∉ ledger fetched.trace

section Loop

variable {env : Environment} {trace : List Call} {round : ℕ} {buflen : UInt32}

/-- The trace of a round up to the answer of the firmware. -/
def roundTrace (round : ℕ) (buflen : UInt32) (trace : List Call) : List Call :=
  access (.bssList ⟨round, buflen⟩) (acquire (.bssList ⟨round, buflen⟩) trace) ++
    [.scanResults ⟨round, buflen⟩ buflen]

theorem release_mem_roundTrace {other : Resource} :
    .release other ∈ ledger (roundTrace round buflen trace) ↔ .release other ∈ ledger trace := by
  rw [roundTrace, ledger_concat_scanResults, List.mem_append, List.mem_singleton,
    release_mem_ledger_access, release_mem_ledger_acquire]
  exact or_iff_left nofun

theorem AtRound.running_roundTrace (h : AtRound trace round)
    (hsize : buflen.toNat = wlScanBufBase * 2 ^ round) :
    Running (roundTrace round buflen trace) {.bssList ⟨round, buflen⟩, .rtnl} := by
  have hacquired := h.running.acquire
    (mt (h.blocks ⟨round, buflen⟩) (Nat.lt_irrefl round))
  have hmem := Finset.mem_insert_self (Resource.bssList ⟨round, buflen⟩) {.rtnl}
  exact (hacquired.access hmem).scanResults hmem hsize

/-- A buffer that is given back leaves what the next round starts from. -/
theorem AtRound.next (h : AtRound trace round)
    (hsize : buflen.toNat = wlScanBufBase * 2 ^ round) :
    AtRound (release (.bssList ⟨round, buflen⟩) (roundTrace round buflen trace)) (round + 1) where
  running := (h.running_roundTrace hsize).release (by simp)
  blocks block hreleased := by
    rcases release_mem_ledger_release.mp hreleased with hbefore | hsame
    · exact Nat.lt_succ_of_lt (h.blocks block (release_mem_roundTrace.mp hbefore))
    · rw [Resource.bssList.inj hsame]
      exact Nat.lt_succ_self round
  records i hreleased := by
    rcases release_mem_ledger_release.mp hreleased with hbefore | hsame
    · exact h.records i (release_mem_roundTrace.mp hbefore)
    · exact nomatch hsame

theorem toNat_double (h : buflen.toNat < 2 ^ 31) : (buflen * 2).toNat = buflen.toNat * 2 := by
  rw [UInt32.toNat_mul]
  exact Nat.mod_eq_of_lt (by change buflen.toNat * 2 < 2 ^ 32; omega)

/-- One round when there is memory. -/
theorem fetch_of_memory (h : env.kmalloc round buflen = true) (fuel : ℕ) (err : ℤ) :
    fetch env (fuel + 1) round buflen err trace =
      if env.scanResults round = 0 then
        some ⟨env.scanResults round, some ⟨round, buflen⟩, roundTrace round buflen trace⟩
      else if env.scanResults round = -e2big then
        fetch env fuel (round + 1) (buflen * 2) (env.scanResults round)
          (release (.bssList ⟨round, buflen⟩) (roundTrace round buflen trace))
      else
        some ⟨-einval, none,
          release (.bssList ⟨round, buflen⟩) (roundTrace round buflen trace)⟩ := by
  rw [fetch, h]
  rfl

/-- The loop ends with something ready for the epilogue, whatever fuel above the given one. -/
def Ends (env : Environment) (enough round : ℕ) (buflen : UInt32) (err : ℤ) (trace : List Call) :
    Prop :=
  ∃ fetched, fetched.Ready ∧
    ∀ fuel, enough < fuel → fetch env fuel round buflen err trace = some fetched

theorem ends_of_round {fetched : Fetched} {err : ℤ} (hready : fetched.Ready)
    (hfetch : ∀ fuel, fetch env (fuel + 1) round buflen err trace = some fetched) (enough : ℕ) :
    Ends env enough round buflen err trace := by
  refine ⟨fetched, hready, fun fuel hfuel ↦ ?_⟩
  obtain ⟨fuel, rfl⟩ := Nat.exists_eq_succ_of_ne_zero (Nat.ne_zero_of_lt hfuel)
  exact hfetch fuel

/-- A round that goes on to the next one ends where that ends. -/
theorem Ends.of_next {enough : ℕ} {err err' : ℤ} {buflen' : UInt32} {trace' : List Call}
    (h : Ends env enough (round + 1) buflen' err' trace')
    (hfetch : ∀ fuel, fetch env (fuel + 1) round buflen err trace =
      fetch env fuel (round + 1) buflen' err' trace') :
    Ends env (enough + 1) round buflen err trace := by
  obtain ⟨fetched, hready, hfetched⟩ := h
  refine ⟨fetched, hready, fun fuel hfuel ↦ ?_⟩
  obtain ⟨fuel, rfl⟩ := Nat.exists_eq_succ_of_ne_zero (Nat.ne_zero_of_lt hfuel)
  rw [hfetch]
  exact hfetched fuel (Nat.lt_of_succ_lt_succ hfuel)

theorem AtRound.ends_of_no_memory (h : AtRound trace round)
    (hno : env.kmalloc round buflen = false) (enough : ℕ) (err : ℤ) :
    Ends env enough round buflen err trace := by
  have hready : (Fetched.mk err none trace).Ready := ⟨h.running, h.records⟩
  apply ends_of_round hready
  intro fuel
  rw [fetch, hno]
  rfl

/-- With an allocator that has a maximum the loop ends, at the latest in the round that asks for
`2 ^ 31` bytes. -/
theorem AtRound.ends {max : ℕ} (hmax : max < 2 ^ 31)
    (hkmalloc : ∀ round size, max < size.toNat → env.kmalloc round size = false)
    (remaining : ℕ) (hround : round + remaining = 17)
    (hsize : buflen.toNat = wlScanBufBase * 2 ^ round) (err : ℤ) (h : AtRound trace round) :
    Ends env remaining round buflen err trace := by
  induction remaining generalizing round buflen err trace with
  | zero =>
    have hlarge : max < buflen.toNat := by
      rw [hsize, show round = 17 from hround]
      exact hmax
    exact h.ends_of_no_memory (hkmalloc _ _ hlarge) 0 err
  | succ remaining ih =>
    cases hmemory : env.kmalloc round buflen with
    | false => exact h.ends_of_no_memory hmemory _ err
    | true =>
      have hbelow : buflen.toNat < 2 ^ 31 := by
        by_contra hnot
        have hlarge : max < buflen.toNat := hmax.trans_le (Nat.not_lt.mp hnot)
        exact Bool.false_ne_true ((hkmalloc _ _ hlarge).symm.trans hmemory)
      have hrecords : ∀ i, .release (.notifBssInfo i) ∉ ledger (roundTrace round buflen trace) :=
        fun i ↦ mt release_mem_roundTrace.mp (h.records i)
      by_cases hsuccess : env.scanResults round = 0
      · have hready : (Fetched.mk (env.scanResults round) (some ⟨round, buflen⟩)
            (roundTrace round buflen trace)).Ready := ⟨h.running_roundTrace hsize, hrecords⟩
        apply ends_of_round hready
        intro fuel
        rw [fetch_of_memory hmemory, if_pos hsuccess]
      by_cases hbig : env.scanResults round = -e2big
      · -- the next round asks for twice the size
        have hdouble : (buflen * 2).toNat = wlScanBufBase * 2 ^ (round + 1) := by
          rw [toNat_double hbelow, hsize, Nat.pow_succ, Nat.mul_assoc]
        have hnext := ih (by omega) hdouble (env.scanResults round) (h.next hsize)
        apply hnext.of_next
        intro fuel
        rw [fetch_of_memory hmemory, if_neg hsuccess, if_pos hbig]
      · have hnext := h.next hsize
        have hready : (Fetched.mk (-einval) none (ScanStatus.release (.bssList ⟨round, buflen⟩)
            (roundTrace round buflen trace))).Ready := ⟨hnext.running, hnext.records⟩
        apply ends_of_round hready
        intro fuel
        rw [fetch_of_memory hmemory, if_neg hsuccess, if_neg hbig]

end Loop

/-! ## The end -/

/-- Everything acquired is released once, the sizes are right, and a pending request is completed
once and cleared. -/
structure Notified.Clean (notified : Notified) (scanRequest : Option ℕ) : Prop where
  sized : Sized notified.trace
  accounted : Accounted (ledger notified.trace)
  completed : completed notified.trace = scanRequest.toList
  cleared : notified.scanRequest = none
  unlocked : notified.trace.getLast? = some (.ledger (.release .rtnl))

theorem Running.clean_scanDoneOut {trace : List Call} (h : Running trace {.rtnl}) (err : ℤ)
    (scanRequest : Option ℕ) : (scanDoneOut err scanRequest trace).Clean scanRequest := by
  have hrelease : Holds (ledger (ScanStatus.release .rtnl trace)) ∅ :=
    (h.release (Finset.notMem_empty _)).holds
  cases scanRequest with
  | none =>
    exact
      { sized := h.sized.concat_ledger _
        accounted := hrelease.accounted
        completed := (completed_concat_ledger _).trans h.completed
        cleared := rfl
        unlocked := List.getLast?_concat }
  | some request =>
    have hledger : ledger (ScanStatus.release .rtnl (trace ++ [.scanDone request])) =
        ledger (ScanStatus.release .rtnl trace) := by
      rw [ScanStatus.release, ScanStatus.release, ledger_concat_ledger, ledger_concat_ledger,
        ledger_concat_scanDone]
    have hcompleted : ScanStatus.completed (trace ++ [.scanDone request]) = [request] := by
      rw [ScanStatus.completed, List.filterMap_append]
      exact congrArg (· ++ [request]) h.completed
    have hsized : Sized (trace ++ [.scanDone request]) :=
      h.sized.concat fun _ _ hcall ↦ nomatch hcall
    exact
      { sized := hsized.concat_ledger _
        accounted := by
          rw [scanDoneOut, hledger]
          exact hrelease.accounted
        completed := (completed_concat_ledger _).trans hcompleted
        cleared := rfl
        unlocked := List.getLast?_concat }

theorem Fetched.Ready.clean_report {fetched : Fetched} (h : fetched.Ready) (env : Environment)
    (scanRequest : Option ℕ) : (report env scanRequest fetched).Clean scanRequest := by
  obtain ⟨err, bssList, trace⟩ := fetched
  cases bssList with
  | none => exact h.running.clean_scanDoneOut err scanRequest
  | some block =>
    have hrunning : Running trace {.bssList block, .rtnl} := h.running
    have hblock := Finset.mem_insert_self (Resource.bssList block) {.rtnl}
    have hinformed := @Running.informBss env scanRequest.isSome block _ _ (hrunning.access hblock)
      hblock (by simp) fun i ↦ mt release_mem_ledger_access.mp (h.records i)
    exact (hinformed.release (by simp)).clean_scanDoneOut _ scanRequest

/-- With an allocator that refuses every size above a maximum below `2 ^ 31`, the scan results are
fetched in at most 18 rounds, and nothing is left over. -/
theorem scanStatus_clean (env : Environment) {max : ℕ} (hmax : max < 2 ^ 31)
    (hkmalloc : ∀ round size, max < size.toNat → env.kmalloc round size = false)
    (scanRequest : Option ℕ) :
    ∃ notified : Notified, notified.Clean scanRequest ∧
      ∀ fuel, 18 ≤ fuel → wlNotifyScanStatus env scanRequest fuel = some notified := by
  have hstart : Running [] ∅ := ⟨holds_nil, fun _ _ _ h ↦ by simp at h, rfl⟩
  have hlocked : Running (acquire .rtnl []) {.rtnl} := hstart.acquire List.not_mem_nil
  by_cases hchannel : env.getChannel = 0
  · have hround : AtRound (acquire .rtnl []) 0 :=
      ⟨hlocked, fun block h ↦ by simp [acquire, ledger, Call.event] at h,
        fun i h ↦ by simp [acquire, ledger, Call.event] at h⟩
    have hbase : (UInt32.ofNat wlScanBufBase).toNat = wlScanBufBase * 2 ^ 0 := by decide
    obtain ⟨fetched, hready, hfetched⟩ :=
      hround.ends hmax hkmalloc 17 rfl hbase env.getChannel
    refine ⟨report env scanRequest fetched, hready.clean_report env scanRequest,
      fun fuel hfuel ↦ ?_⟩
    rw [wlNotifyScanStatus, if_neg (not_not_intro hchannel), hfetched fuel hfuel]
    rfl
  · refine ⟨_, hlocked.clean_scanDoneOut env.getChannel scanRequest, fun fuel _ ↦ ?_⟩
    rw [wlNotifyScanStatus, if_pos hchannel]

/-- The firmware finds 16 KiB and 32 KiB too small; the allocator has at most 64 KiB. -/
def tooSmallTwice : Environment where
  getChannel := 0
  kmalloc _ size := decide (size.toNat ≤ 65536)
  scanResults round := if round < 2 then -e2big else 0
  memory _ := ScanResults.oversizedIes
  kernel _ := willing

/-- The size that a call gives to the firmware. -/
def Call.buflen : Call → Option UInt32
  | .scanResults _ buflen => some buflen
  | _ => none

theorem scanStatus_clean_tooSmallTwice :
    (∃ notified : Notified, notified.Clean (some 7) ∧
      ∀ fuel, 18 ≤ fuel → wlNotifyScanStatus tooSmallTwice (some 7) fuel = some notified) ∧
      (wlNotifyScanStatus tooSmallTwice (some 7) 18).map
        (·.trace.filterMap Call.buflen) = some [16384, 32768, 65536] :=
  ⟨@scanStatus_clean tooSmallTwice 65536 (by decide)
    (fun _ _ h ↦ decide_eq_false (Nat.not_le.mpr h)) (some 7), by decide⟩

end BroadcomWl.Cfg80211.ScanStatus
