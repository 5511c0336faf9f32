import BroadcomWl.Cfg80211.Events
import BroadcomWl.Systems.Threads
import Mathlib.Data.List.Nodup

/-!
# The life of a scan request

`wl_cfg80211_scan` publishes the request in `wl->scan_request` before it issues the two
ioctls that may fail, and takes it back when one of them does. Three other places test the
pointer, pass it to `cfg80211_scan_done` and clear it: `wl_notify_scan_status` and
`wl_bss_connect_done` on the event thread, and `wl_cfg80211_down`. There is no lock that
all of them hold, so the machine has one label for each access to the pointer.

A completing section that is not interrupted does what `completeScan` does to the
sequential state. Interleaved, it may complete a request that is about to fail, or one that
another section has completed.
-/

namespace BroadcomWl.Cfg80211.Scan

open BroadcomWl.Systems

/-- The places that complete a pending scan. -/
inductive Site where
  | notifyScanStatus
  | bssConnectDone
  | down
deriving DecidableEq

/-- The `aborted` flag that a place passes on. -/
def Site.aborted : Site → Bool
  | .notifyScanStatus => false
  | .bssConnectDone => true
  | .down => true

/-- The threads that run these places. -/
inductive Completer where
  | eventThread
  | downCaller
deriving DecidableEq

def Site.completer : Site → Completer
  | .notifyScanStatus => .eventThread
  | .bssConnectDone => .eventThread
  | .down => .downCaller

/-- Where a completing section is: not entered, behind the test of the pointer, or behind
`cfg80211_scan_done`. -/
inductive CompleterPc where
  | outside
  | calling (site : Site)
  | clearing
deriving DecidableEq

/-- Where `wl_cfg80211_scan` is: not running, before either ioctl, or behind a failed one. -/
inductive CallbackPc where
  | idle
  | passiveScan (request : ℕ)
  | scan (request : ℕ)
  | scanOut (request : ℕ) (err : ℤ)
deriving DecidableEq

/-- The driver's state with the SSID of the last request, the running callback and the two
completing threads. Requests are numbered. `returned` are the results of finished callbacks;
`nullDone` records a `cfg80211_scan_done` without a request. -/
structure State where
  priv : Priv
  scanReqInt : Ssid
  callback : CallbackPc
  completer : Completer → CompleterPc
  nextRequest : ℕ
  returned : List (ℕ × ℤ)
  nullDone : Bool

/-- The requests for which `cfg80211_scan_done` was called, in order. -/
def doneRequests (upcalls : List Upcall) : List ℕ :=
  upcalls.filterMap fun
    | .scanDone request _ => some request
    | _ => none

def State.done (state : State) : List ℕ := doneRequests state.priv.upcalls

def State.setCompleter (state : State) (completer : Completer) (pc : CompleterPc) : State :=
  { state with completer := Function.update state.completer completer pc }

/-- `scan` to `scanOut` are the steps of `wl_cfg80211_scan`, with the SSID of the request and the
firmware's answers; the others are those of a completing section. -/
inductive Label where
  | scan (ssid : Option Ssid)
  | passiveScan (err : ℤ)
  | wlcScan (err : ℤ)
  | scanOut
  | test (site : Site)
  | call (completer : Completer)
  | clear (completer : Completer)

def step (state : State) : Label → Option State
  | .scan ssid =>
      match state.callback with
      | .idle =>
          some { state with
            priv := { state.priv with scanRequest := some state.nextRequest }
            scanReqInt := (ssid.getD []).take 32
            callback := .passiveScan state.nextRequest
            nextRequest := state.nextRequest + 1 }
      | _ => none
  | .passiveScan err =>
      match state.callback with
      | .passiveScan request =>
          some { state with
            callback := if err = 0 then .scan request else .scanOut request err }
      | _ => none
  | .wlcScan err =>
      match state.callback with
      | .scan request =>
          if err = 0 then
            some { state with callback := .idle, returned := state.returned ++ [(request, 0)] }
          else some { state with callback := .scanOut request err }
      | _ => none
  | .scanOut =>
      match state.callback with
      | .scanOut request err =>
          some { state with
            priv := { state.priv with scanRequest := none }
            callback := .idle
            returned := state.returned ++ [(request, err)] }
      | _ => none
  | .test site =>
      match state.completer site.completer, state.priv.scanRequest with
      | .outside, some _ => some (state.setCompleter site.completer (.calling site))
      | .outside, none => some state
      | _, _ => none
  | .call completer =>
      match state.completer completer with
      | .calling site =>
          let state := state.setCompleter completer .clearing
          match state.priv.scanRequest with
          | some request =>
              some { state with priv := state.priv.call (.scanDone request site.aborted) }
          | none => some { state with nullDone := true }
      | _ => none
  | .clear completer =>
      match state.completer completer with
      | .clearing =>
          some { state.setCompleter completer .outside with
            priv := { state.priv with scanRequest := none } }
      | _ => none

/-- No scan was requested yet. -/
def Initial (state : State) : Prop :=
  state.priv.scanRequest = none ∧ state.done = [] ∧ state.callback = .idle ∧
    (∀ completer, state.completer completer = .outside) ∧ state.returned = [] ∧
    state.nullDone = false

def machine : Machine State Label where
  initial := Initial
  step := step

/-- What cfg80211 relies on: no completion without a request, none twice, and none for a request
whose callback has returned an error or is about to. -/
structure Safe (state : State) : Prop where
  notNull : state.nullDone = false
  once : state.done.Nodup
  succeeded : ∀ request err, (request, err) ∈ state.returned → err ≠ 0 → request ∉ state.done
  pending : ∀ request err, state.callback = .scanOut request err → request ∉ state.done

/-! ## A section alone -/

/-- A completing section without interleaving does what the sequential handlers do. -/
theorem run_section {state : State} (site : Site)
    (houtside : state.completer site.completer = .outside) :
    (machine.run state
      (if state.priv.scanRequest = none then [.test site]
       else [.test site, .call site.completer, .clear site.completer])).map State.priv =
      some (completeScan site.aborted state.priv) := by
  cases hrequest : state.priv.scanRequest with
  | none => simp [Machine.run_cons, machine, step, houtside, hrequest, completeScan]
  | some request =>
    simp [Machine.run_cons, machine, step, houtside, hrequest, completeScan, State.setCompleter,
      Priv.call]

/-! ## Orderly schedules -/

def CompleterPc.isCalling : CompleterPc → Bool
  | .calling _ => true
  | _ => false

/-- No section is entered. -/
def State.allOutside (state : State) : Bool :=
  state.completer .eventThread == .outside && state.completer .downCaller == .outside

/-- Some section has tested the pointer and is about to call `cfg80211_scan_done`. -/
def State.someCalling (state : State) : Bool :=
  (state.completer .eventThread).isCalling || (state.completer .downCaller).isCalling

def CallbackPc.isScanOut : CallbackPc → Bool
  | .scanOut _ _ => true
  | _ => false

/-- An ioctl of the callback may fail: its request was not completed and is not about to be. -/
def State.mayFail (state : State) (request : ℕ) : Bool :=
  !decide (request ∈ state.done) && !state.someCalling

/-- A section passes its test only while no other section is entered and no failed ioctl waits to
be undone, and an ioctl fails only while it may. -/
def orderly (state : State) : Label → Bool
  | .test _ =>
      state.priv.scanRequest.isNone || (state.allOutside && !state.callback.isScanOut)
  | .passiveScan err =>
      match state.callback with
      | .passiveScan request => err == 0 || state.mayFail request
      | _ => true
  | .wlcScan err =>
      match state.callback with
      | .scan request => err == 0 || state.mayFail request
      | _ => true
  | _ => true

theorem outside_of_allOutside {state : State} (h : state.allOutside = true)
    (completer : Completer) : state.completer completer = .outside := by
  obtain ⟨hevent, hdown⟩ := Bool.and_eq_true_iff.mp h
  cases completer
  · exact beq_iff_eq.mp hevent
  · exact beq_iff_eq.mp hdown

theorem not_calling_of_mayFail {state : State} {request : ℕ}
    (h : state.mayFail request = true) (completer : Completer) (site : Site) :
    state.completer completer ≠ .calling site := by
  intro hcalling
  simp only [State.mayFail, State.someCalling, Bool.and_eq_true, Bool.not_eq_true',
    Bool.or_eq_false_iff] at h
  cases completer <;> simp_all [CompleterPc.isCalling]

theorem notMem_done_of_mayFail {state : State} {request : ℕ}
    (h : state.mayFail request = true) : request ∉ state.done := by
  have hleft := (Bool.and_eq_true_iff.mp h).1
  simpa using hleft

def CallbackPc.request : CallbackPc → Option ℕ
  | .idle => none
  | .passiveScan request => some request
  | .scan request => some request
  | .scanOut request _ => some request

/-- What orderly schedules keep. At most one section is entered; while it is about to call, the
pointer is set and no failure is pending; outside the clearing of the pointer, the request it
names was not completed. -/
structure Inv (state : State) : Prop extends Safe state where
  done_lt : ∀ request ∈ state.done, request < state.nextRequest
  returned_lt : ∀ request err, (request, err) ∈ state.returned → request < state.nextRequest
  callback_lt : ∀ request, state.callback.request = some request → request < state.nextRequest
  pointer_lt : ∀ request, state.priv.scanRequest = some request → request < state.nextRequest
  failed : ∀ request err, state.callback = .scanOut request err → err ≠ 0
  alone : ∀ completer other, state.completer completer ≠ .outside →
    state.completer other ≠ .outside → completer = other
  calling : ∀ completer site, state.completer completer = .calling site →
    state.priv.scanRequest ≠ none ∧ state.callback.isScanOut = false
  pointer : ∀ request, state.priv.scanRequest = some request →
    (∀ completer, state.completer completer ≠ .clearing) → request ∉ state.done
  current : ∀ request err, state.priv.scanRequest = some request → err ≠ 0 →
    (request, err) ∉ state.returned

theorem Initial.inv {state : State} (h : Initial state) : Inv state := by
  obtain ⟨hrequest, hdone, hcallback, houtside, hreturned, hnull⟩ := h
  constructor
  · constructor
    · exact hnull
    · rw [hdone]
      exact List.nodup_nil
    · rw [hreturned]
      exact fun _ _ hmem ↦ absurd hmem List.not_mem_nil
    · rw [hcallback]
      exact fun _ _ hne ↦ nomatch hne
  · rw [hdone]
    exact fun _ hmem ↦ absurd hmem List.not_mem_nil
  · rw [hreturned]
    exact fun _ _ hmem ↦ absurd hmem List.not_mem_nil
  · rw [hcallback]
    exact fun _ hne ↦ nomatch hne
  · rw [hrequest]
    exact fun _ hne ↦ nomatch hne
  · rw [hcallback]
    exact fun _ _ hne ↦ nomatch hne
  · exact fun completer _ hne ↦ absurd (houtside completer) hne
  · intro completer site hcalling
    rw [houtside completer] at hcalling
    cases hcalling
  · rw [hrequest]
    exact fun _ hne ↦ nomatch hne
  · rw [hrequest]
    exact fun _ _ hne ↦ nomatch hne

section Steps

variable {state next : State}

/-- Publishing a fresh request. -/
theorem publish_inv (h : Inv state) (ssid : Ssid) :
    Inv { state with
      priv := { state.priv with scanRequest := some state.nextRequest }
      scanReqInt := ssid
      callback := .passiveScan state.nextRequest
      nextRequest := state.nextRequest + 1 } := by
  have hlt : ∀ request, some state.nextRequest = some request →
      request < state.nextRequest + 1 := by
    intro request hrequest
    cases hrequest
    exact Nat.lt_succ_self _
  refine ⟨⟨h.notNull, h.once, h.succeeded, fun _ _ hne ↦ nomatch hne⟩, ?_, ?_, hlt, hlt,
    fun _ _ hne ↦ (nomatch hne), h.alone, fun _ _ _ ↦ ⟨fun hne ↦ (nomatch hne), rfl⟩, ?_, ?_⟩
  · exact fun request hmem ↦ Nat.lt_succ_of_lt (h.done_lt request hmem)
  · exact fun request err hmem ↦ Nat.lt_succ_of_lt (h.returned_lt request err hmem)
  · intro request hrequest _ hmem
    cases hrequest
    exact Nat.lt_irrefl _ (h.done_lt _ hmem)
  · intro request err hrequest _ hmem
    cases hrequest
    exact Nat.lt_irrefl _ (h.returned_lt _ err hmem)

/-- The callback moves on without touching the pointer or returning. -/
theorem callback_inv (h : Inv state) {callback : CallbackPc}
    (hrequest : callback.request = state.callback.request)
    (hpending : ∀ request err, callback = .scanOut request err → err ≠ 0 ∧
      state.mayFail request = true) : Inv { state with callback := callback } := by
  refine ⟨⟨h.notNull, h.once, h.succeeded, fun request err heq ↦ ?_⟩, h.done_lt, h.returned_lt,
    ?_, h.pointer_lt, fun request err heq ↦ (hpending request err heq).1, h.alone, ?_, h.pointer,
    h.current⟩
  · exact notMem_done_of_mayFail (hpending request err heq).2
  · intro request heq
    exact h.callback_lt request (hrequest.symm.trans heq)
  · intro completer site hcalling
    refine ⟨(h.calling completer site hcalling).1, ?_⟩
    cases hpc : callback with
    | scanOut request err =>
      exact absurd hcalling (not_calling_of_mayFail (hpending request err hpc).2 completer site)
    | _ => rfl

/-- The callback returns zero. -/
theorem return_inv (h : Inv state) {request : ℕ} (hscan : state.callback = .scan request) :
    Inv { state with callback := .idle, returned := state.returned ++ [(request, 0)] } := by
  have hold : ∀ other err, err ≠ 0 → (other, err) ∈ state.returned ++ [(request, 0)] →
      (other, err) ∈ state.returned := by
    intro other err herr hmem
    rcases List.mem_append.mp hmem with hmem | hmem
    · exact hmem
    · cases List.mem_singleton.mp hmem
      exact absurd rfl herr
  refine ⟨⟨h.notNull, h.once, ?_, fun _ _ hne ↦ nomatch hne⟩, h.done_lt, ?_,
    fun _ hne ↦ (nomatch hne), h.pointer_lt, fun _ _ hne ↦ (nomatch hne), h.alone, ?_, h.pointer,
    ?_⟩
  · exact fun other err hmem herr ↦ h.succeeded other err (hold other err herr hmem) herr
  · intro other err hmem
    rcases List.mem_append.mp hmem with hmem | hmem
    · exact h.returned_lt other err hmem
    · cases List.mem_singleton.mp hmem
      exact h.callback_lt request (by rw [hscan]; rfl)
  · exact fun completer site hcalling ↦ ⟨(h.calling completer site hcalling).1, rfl⟩
  · exact fun other err hrequest herr hmem ↦
      h.current other err hrequest herr (hold other err herr hmem)

/-- The callback takes its request back and returns the error. -/
theorem scanOut_inv (h : Inv state) {request : ℕ} {err : ℤ}
    (hscanOut : state.callback = .scanOut request err) :
    Inv { state with
      priv := { state.priv with scanRequest := none }
      callback := .idle
      returned := state.returned ++ [(request, err)] } := by
  refine ⟨⟨h.notNull, h.once, ?_, fun _ _ hne ↦ nomatch hne⟩, h.done_lt, ?_,
    fun _ hne ↦ (nomatch hne), fun _ hne ↦ (nomatch hne), fun _ _ hne ↦ (nomatch hne), h.alone,
    ?_, fun _ hne ↦ (nomatch hne), fun _ _ hne ↦ nomatch hne⟩
  · intro other otherErr hmem herr
    rcases List.mem_append.mp hmem with hmem | hmem
    · exact h.succeeded other otherErr hmem herr
    · cases List.mem_singleton.mp hmem
      exact h.pending request err hscanOut
  · intro other otherErr hmem
    rcases List.mem_append.mp hmem with hmem | hmem
    · exact h.returned_lt other otherErr hmem
    · cases List.mem_singleton.mp hmem
      exact h.callback_lt request (by rw [hscanOut]; rfl)
  · intro completer site hcalling
    have hnot := (h.calling completer site hcalling).2
    rw [hscanOut] at hnot
    cases hnot

/-- A section is entered when no other one is and no failure is pending. -/
theorem test_inv (h : Inv state) {request : ℕ} (hrequest : state.priv.scanRequest = some request)
    (houtside : state.allOutside = true) (hscanOut : state.callback.isScanOut = false)
    (site : Site) : Inv (state.setCompleter site.completer (.calling site)) := by
  have hother : ∀ completer, Function.update state.completer site.completer (.calling site)
      completer ≠ .outside → completer = site.completer := by
    intro completer hne
    by_contra hneq
    rw [Function.update_of_ne hneq] at hne
    exact hne (outside_of_allOutside houtside completer)
  refine ⟨⟨h.notNull, h.once, h.succeeded, h.pending⟩, h.done_lt, h.returned_lt, h.callback_lt,
    h.pointer_lt, h.failed, ?_, ?_, ?_, h.current⟩
  · intro completer other hcompleter hother'
    rw [hother completer hcompleter, hother other hother']
  · intro completer site' _
    refine ⟨?_, hscanOut⟩
    change state.priv.scanRequest ≠ none
    rw [hrequest]
    exact fun hne ↦ nomatch hne
  · intro request' hrequest' _
    refine h.pointer request' hrequest' fun completer ↦ ?_
    rw [outside_of_allOutside houtside completer]
    exact fun hne ↦ nomatch hne

theorem done_call (priv : Priv) (request : ℕ) (aborted : Bool) :
    doneRequests (priv.call (.scanDone request aborted)).upcalls =
      doneRequests priv.upcalls ++ [request] := by
  simp [doneRequests, Priv.call]

/-- The only section that is entered completes the request that the pointer names. -/
theorem call_inv (h : Inv state) {completer : Completer} {site : Site} {request : ℕ}
    (hcalling : state.completer completer = .calling site)
    (hrequest : state.priv.scanRequest = some request) :
    Inv { state.setCompleter completer .clearing with
      priv := state.priv.call (.scanDone request site.aborted) } := by
  have hentered : state.completer completer ≠ .outside := by
    rw [hcalling]
    exact fun hne ↦ nomatch hne
  have hnotDone : request ∉ state.done := by
    refine h.pointer request hrequest fun other hclearing ↦ ?_
    have hsame := h.alone completer other hentered (by rw [hclearing]; exact fun hne ↦ nomatch hne)
    rw [← hsame, hcalling] at hclearing
    cases hclearing
  have hscanOut := (h.calling completer site hcalling).2
  have hback : ∀ other, Function.update state.completer completer .clearing other ≠ .outside →
      state.completer other ≠ .outside := by
    intro other hne
    by_cases hsame : other = completer
    · rwa [hsame]
    · rwa [Function.update_of_ne hsame] at hne
  have hdone : ∀ other, other ∈ doneRequests
      (state.priv.call (.scanDone request site.aborted)).upcalls →
      other ∈ state.done ∨ other = request := by
    intro other hmem
    rw [done_call] at hmem
    exact (List.mem_append.mp hmem).imp_right List.mem_singleton.mp
  refine ⟨⟨h.notNull, ?_, ?_, ?_⟩, ?_, h.returned_lt, h.callback_lt, h.pointer_lt, h.failed, ?_,
    ?_, ?_, h.current⟩
  · change (doneRequests (state.priv.call _).upcalls).Nodup
    rw [done_call, ← List.concat_eq_append]
    exact h.once.concat hnotDone
  · intro other err hmem herr hnew
    rcases hdone other hnew with hold | rfl
    · exact h.succeeded other err hmem herr hold
    · exact h.current other err hrequest herr hmem
  · intro other err heq
    change state.callback = .scanOut other err at heq
    rw [heq] at hscanOut
    cases hscanOut
  · intro other hnew
    rcases hdone other hnew with hold | rfl
    · exact h.done_lt other hold
    · exact h.pointer_lt other hrequest
  · exact fun first second hfirst hsecond ↦ h.alone first second (hback first hfirst)
      (hback second hsecond)
  · intro other site' hother
    rcases update_eq hother with ⟨_, hmoved⟩ | ⟨_, hpc⟩
    · cases hmoved
    · exact h.calling other site' hpc
  · intro _ _ hnone
    exact absurd (Function.update_self ..) (hnone completer)

/-- A section leaves after it has cleared the pointer. -/
theorem clear_inv (h : Inv state) {completer : Completer}
    (hclearing : state.completer completer = .clearing) :
    Inv { state.setCompleter completer .outside with
      priv := { state.priv with scanRequest := none } } := by
  have hback : ∀ other pc, Function.update state.completer completer .outside other = pc →
      pc ≠ .outside → other ≠ completer ∧ state.completer other = pc := by
    intro other pc heq hne
    rcases update_eq heq with ⟨_, hmoved⟩ | hother
    · exact absurd hmoved.symm hne
    · exact hother
  refine ⟨⟨h.notNull, h.once, h.succeeded, h.pending⟩, h.done_lt, h.returned_lt, h.callback_lt,
    fun _ hne ↦ (nomatch hne), h.failed, ?_, ?_, fun _ hne ↦ (nomatch hne),
    fun _ _ hne ↦ nomatch hne⟩
  · intro first second hfirst hsecond
    have hfirst' := (hback first _ rfl hfirst).2
    have hsecond' := (hback second _ rfl hsecond).2
    exact h.alone first second (hfirst' ▸ hfirst) (hsecond' ▸ hsecond)
  · intro other site hcalling
    obtain ⟨hne, hother⟩ := hback other _ hcalling fun hne ↦ nomatch hne
    refine absurd (h.alone other completer ?_ ?_) hne
    · rw [hother]
      exact fun hne ↦ nomatch hne
    · rw [hclearing]
      exact fun hne ↦ nomatch hne

theorem step_inv {label : Label} (h : Inv state) (horderly : orderly state label = true)
    (hstep : step state label = some next) : Inv next := by
  cases label with
  | scan ssid =>
    cases hpc : state.callback <;> simp only [step, hpc] at hstep <;> cases hstep
    exact publish_inv h _
  | passiveScan err =>
    cases hpc : state.callback <;> simp only [step, hpc] at hstep <;> cases hstep
    simp only [orderly, hpc, Bool.or_eq_true, beq_iff_eq] at horderly
    refine callback_inv h ?_ fun other otherErr heq ↦ ?_
    · rw [hpc]
      split <;> rfl
    · split at heq
      · cases heq
      · cases heq
        exact ⟨‹_›, horderly.resolve_left ‹_›⟩
  | wlcScan err =>
    cases hpc : state.callback <;> simp only [step, hpc] at hstep <;> try cases hstep
    simp only [orderly, hpc, Bool.or_eq_true, beq_iff_eq] at horderly
    split at hstep
    · cases hstep
      exact return_inv h hpc
    · cases hstep
      refine callback_inv h (by rw [hpc]; rfl) fun other otherErr heq ↦ ?_
      cases heq
      exact ⟨‹_›, horderly.resolve_left ‹_›⟩
  | scanOut =>
    cases hpc : state.callback <;> simp only [step, hpc] at hstep <;> cases hstep
    exact scanOut_inv h hpc
  | test site =>
    cases hpc : state.completer site.completer <;> simp only [step, hpc] at hstep <;>
      try cases hstep
    cases hrequest : state.priv.scanRequest with
    | none =>
      simp only [hrequest] at hstep
      cases hstep
      exact h
    | some request =>
      simp only [hrequest] at hstep
      cases hstep
      simp only [orderly, hrequest, Option.isNone_some, Bool.false_or, Bool.and_eq_true,
        Bool.not_eq_true'] at horderly
      exact test_inv h hrequest horderly.1 horderly.2 site
  | call completer =>
    cases hpc : state.completer completer <;> simp only [step, hpc] at hstep <;> try cases hstep
    rename_i site
    cases hrequest : state.priv.scanRequest with
    | none => exact absurd hrequest (h.calling completer site hpc).1
    | some request =>
      simp only [State.setCompleter, hrequest] at hstep
      cases hstep
      exact call_inv h hpc hrequest
  | clear completer =>
    cases hpc : state.completer completer <;> simp only [step, hpc] at hstep <;> cases hstep
    exact clear_inv h hpc

/-! ## Disorderly schedules -/

/-- Some continuation breaks what cfg80211 relies on. -/
def CanBreak (state : State) : Prop :=
  ∃ labels final, machine.run state labels = some final ∧ ¬Safe final

theorem CanBreak.of_step {label : Label} (hstep : step state label = some next)
    (h : CanBreak next) : CanBreak state := by
  obtain ⟨labels, final, hrun, hunsafe⟩ := h
  exact ⟨label :: labels, final, Machine.run_cons_eq_some.mpr ⟨next, hstep, hrun⟩, hunsafe⟩

/-- A section that has passed its test finds the pointer cleared. -/
theorem canBreak_of_null {completer : Completer} {site : Site}
    (hcalling : state.completer completer = .calling site)
    (hnull : state.priv.scanRequest = none) : CanBreak state := by
  have hstep : step state (.call completer) =
      some { state.setCompleter completer .clearing with nullDone := true } := by
    simp only [step, hcalling, State.setCompleter, hnull]
  refine .of_step hstep ⟨[], _, rfl, fun hsafe ↦ ?_⟩
  have hnotNull := hsafe.notNull
  cases hnotNull

/-- Undoing a failed ioctl clears the pointer under a section that has passed its test. -/
theorem canBreak_of_scanOut {completer : Completer} {site : Site} {request : ℕ} {err : ℤ}
    (hcalling : state.completer completer = .calling site)
    (hscanOut : state.callback = .scanOut request err) : CanBreak state := by
  have hstep : step state .scanOut =
      some { state with
        priv := { state.priv with scanRequest := none }
        callback := .idle
        returned := state.returned ++ [(request, err)] } := by
    simp only [step, hscanOut]
  exact .of_step hstep (canBreak_of_null hcalling rfl)

/-- A section that is clearing does so under one that has passed its test. -/
theorem canBreak_of_clearing {completer other : Completer} {site : Site} (hne : completer ≠ other)
    (hcalling : state.completer completer = .calling site)
    (hclearing : state.completer other = .clearing) : CanBreak state := by
  have hstep : step state (.clear other) =
      some { state.setCompleter other .outside with
        priv := { state.priv with scanRequest := none } } := by
    simp only [step, hclearing]
  refine .of_step hstep (@canBreak_of_null _ completer site ?_ rfl)
  exact (Function.update_of_ne hne ..).trans hcalling

/-- Two sections that have both passed their tests. -/
theorem canBreak_of_calling {completer other : Completer} {site otherSite : Site}
    (hne : completer ≠ other) (hcalling : state.completer completer = .calling site)
    (hother : state.completer other = .calling otherSite) : CanBreak state := by
  cases hrequest : state.priv.scanRequest with
  | none => exact canBreak_of_null hcalling hrequest
  | some request =>
    have hstep : step state (.call other) =
        some { state.setCompleter other .clearing with
          priv := state.priv.call (.scanDone request otherSite.aborted) } := by
      simp only [step, hother, State.setCompleter, hrequest]
    refine .of_step hstep (@canBreak_of_clearing _ completer other site hne ?_ ?_)
    · exact (Function.update_of_ne hne ..).trans hcalling
    · exact Function.update_self ..

/-- An ioctl fails although its request was completed or is about to be. -/
theorem canBreak_of_not_mayFail {request : ℕ} {err : ℤ}
    (hmay : state.mayFail request = false) :
    CanBreak { state with callback := .scanOut request err } := by
  simp only [State.mayFail, Bool.and_eq_false_iff, Bool.not_eq_false', decide_eq_true_eq,
    State.someCalling, Bool.or_eq_true] at hmay
  have hcalling : ∀ completer, (state.completer completer).isCalling = true →
      CanBreak { state with callback := .scanOut request err } := by
    intro completer htrue
    cases hpc : state.completer completer with
    | calling site => exact @canBreak_of_scanOut _ completer site request err hpc rfl
    | outside => rw [hpc] at htrue; cases htrue
    | clearing => rw [hpc] at htrue; cases htrue
  rcases hmay with hdone | hevent | hdown
  · exact ⟨[], _, rfl, fun hsafe ↦ hsafe.pending request err rfl hdone⟩
  · exact hcalling _ hevent
  · exact hcalling _ hdown

/-- Passing a test next to another entered section, or over a pending failure. -/
theorem canBreak_of_test {site : Site} (houtside : state.completer site.completer = .outside)
    (horderly : (state.allOutside && !state.callback.isScanOut) = false) :
    CanBreak (state.setCompleter site.completer (.calling site)) := by
  have hself : (state.setCompleter site.completer (.calling site)).completer site.completer =
      .calling site := Function.update_self ..
  rcases Bool.and_eq_false_iff.mp horderly with hentered | hscanOut
  · have hother : ∃ other, state.completer other ≠ .outside := by
      by_contra hnone
      have hall : ∀ other, state.completer other = .outside := fun other ↦ by
        by_contra hne
        exact hnone ⟨other, hne⟩
      rw [State.allOutside, hall, hall] at hentered
      cases hentered
    obtain ⟨other, hentered⟩ := hother
    have hne : site.completer ≠ other := fun heq ↦ hentered (heq ▸ houtside)
    have hsame : (state.setCompleter site.completer (.calling site)).completer other =
        state.completer other := Function.update_of_ne (Ne.symm hne) ..
    cases hpc : state.completer other with
    | outside => exact absurd hpc hentered
    | calling otherSite => exact canBreak_of_calling hne hself (hsame.trans hpc)
    | clearing => exact canBreak_of_clearing hne hself (hsame.trans hpc)
  · cases hpc : state.callback with
    | scanOut request err => exact canBreak_of_scanOut hself hpc
    | idle => rw [hpc] at hscanOut; cases hscanOut
    | passiveScan request => rw [hpc] at hscanOut; cases hscanOut
    | scan request => rw [hpc] at hscanOut; cases hscanOut

/-- Every disorderly step leads to a state from which an unsafe one is reachable. -/
theorem canBreak_of_disorderly {label : Label} (horderly : orderly state label = false)
    (hstep : step state label = some next) : CanBreak next := by
  cases label with
  | passiveScan err =>
    cases hpc : state.callback <;> simp only [step, hpc] at hstep <;> cases hstep
    simp only [orderly, hpc, Bool.or_eq_false_iff, beq_eq_false_iff_ne] at horderly
    rw [if_neg horderly.1]
    exact canBreak_of_not_mayFail horderly.2
  | wlcScan err =>
    cases hpc : state.callback <;> simp only [step, hpc] at hstep <;> try cases hstep
    simp only [orderly, hpc, Bool.or_eq_false_iff, beq_eq_false_iff_ne] at horderly
    rw [if_neg horderly.1] at hstep
    cases hstep
    exact canBreak_of_not_mayFail horderly.2
  | test site =>
    cases hpc : state.completer site.completer <;> simp only [step, hpc] at hstep <;>
      try cases hstep
    obtain ⟨hrequest, hbusy⟩ := Bool.or_eq_false_iff.mp horderly
    cases hpointer : state.priv.scanRequest with
    | none =>
      rw [hpointer] at hrequest
      cases hrequest
    | some request =>
      simp only [hpointer] at hstep
      cases hstep
      exact canBreak_of_test hpc hbusy
  | scan ssid => cases horderly
  | scanOut => cases horderly
  | call completer => cases horderly
  | clear completer => cases horderly

/-! ## The life of a request -/

/-- Orderly schedules are safe: every request is completed at most once, and only when its
callback returns zero. After any disorderly step an unsafe state can still be reached. -/
theorem scan_request_lifecycle (state : State) :
    ((machine.restrict fun state label ↦ orderly state label = true).Reachable state →
        Safe state) ∧
      ∀ label next, machine.step state label = some next → orderly state label = false →
        ∃ labels final, machine.run next labels = some final ∧ ¬Safe final := by
  constructor
  · intro h
    have hinv : Inv state := by
      refine h.invariant ?_ ?_
      · intro state hinitial
        exact Initial.inv hinitial
      · intro state label next hinv hstep
        obtain ⟨horderly, hstep⟩ := Machine.restrict_step_eq_some.mp hstep
        exact step_inv hinv horderly hstep
    exact hinv.toSafe
  · intro label next hstep horderly
    exact canBreak_of_disorderly horderly hstep

end Steps

/-- No scan was requested and no section is entered. -/
def quietStart : State where
  priv := { ibssStart with mode := .bss }
  scanReqInt := []
  callback := .idle
  completer _ := .outside
  nextRequest := 0
  returned := []
  nullDone := false

/-- One request fails, the next one is completed by the event thread. -/
theorem scan_request_lifecycle_completed :
    ∃ state, (machine.restrict fun state label ↦ orderly state label = true).run quietStart
        [.scan none, .passiveScan 0, .wlcScan (-16), .scanOut, .scan (some [65]), .passiveScan 0,
          .test .notifyScanStatus, .wlcScan 0, .call .eventThread, .clear .eventThread,
          .test .down] = some state ∧
      state.returned = [(0, -16), (1, 0)] ∧ state.done = [1] ∧ Safe state :=
  ⟨_, rfl, rfl, rfl, (scan_request_lifecycle _).1 ⟨quietStart, [.scan none, .passiveScan 0,
    .wlcScan (-16), .scanOut, .scan (some [65]), .passiveScan 0, .test .notifyScanStatus,
    .wlcScan 0, .call .eventThread, .clear .eventThread, .test .down],
    ⟨rfl, rfl, rfl, fun _ ↦ rfl, rfl, rfl⟩, rfl⟩⟩

/-- A link comes up while the scan is being started: the pending scan is aborted, and then
`WLC_SCAN` fails. -/
theorem scan_done_for_failed_request :
    ∃ state, machine.run quietStart [.scan none, .passiveScan 0, .test .bssConnectDone,
        .call .eventThread, .clear .eventThread, .wlcScan (-16), .scanOut] = some state ∧
      Initial quietStart ∧ state.done = [0] ∧ state.returned = [(0, -16)] ∧ ¬Safe state :=
  ⟨_, rfl, ⟨rfl, rfl, rfl, fun _ ↦ rfl, rfl, rfl⟩, rfl, rfl, fun hsafe ↦
    hsafe.succeeded 0 (-16) (List.mem_singleton.mpr rfl) (by decide) (List.mem_singleton.mpr rfl)⟩

end BroadcomWl.Cfg80211.Scan
