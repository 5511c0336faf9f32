import BroadcomWl.Cfg80211.EventQueue

/-!
# Shutdown of the event thread

`wl_deinit_cfg80211_priv` sends `SIGTERM` to the event thread, calls `kthread_stop`,
frees the events that are still queued, clears the connection data and frees the
private buffers. The machine interleaves its steps with those of the event thread, with
signals sent to the thread earlier, and with the release of the thread's task structure,
which may come as soon as the thread has returned unless `kthread_stop` was called
before. Producers run until the shutdown begins, so the queue may hold anything by then.

The signal goes out before the stop request. A thread that sees it in between returns
although nobody waits for it yet, and `kthread_stop` may then be applied to a released
task.
-/

namespace BroadcomWl.Cfg80211.EventThread

open BroadcomWl.Systems BroadcomWl.Cfg80211.EventQueue

/-- The next step of `wl_deinit_cfg80211_priv`; `joining` is the wait inside `kthread_stop`. -/
inductive DeinitPc where
  | idle
  | stopping
  | joining
  | flushing
  | linkDown
  | deinitPrivMem
  | done
deriving DecidableEq

/-- The queue with its threads, the signal and stop flags of the event thread, the progress of
the shutdown, and whether the private buffers are allocated. `flushed` are the events freed by
`wl_flush_eq`; the last two fields record misuse. -/
structure State (Producer Msg : Type*) where
  queue : EventQueue.State Producer Msg
  signal : Bool
  shouldStop : Bool
  released : Bool
  deinit : DeinitPc
  flushed : List (Event Msg)
  privLive : Bool
  staleStop : Bool
  useAfterFree : Bool

variable {Producer Msg : Type*}

section Source

/-- The loop of `wl_flush_eq` under `eq_lock`: the list that is left and the freed events. -/
def wlFlushEq : List (Event Msg) → List (Event Msg) → List (Event Msg) × List (Event Msg)
  | [], freed => ([], freed)
  | e :: rest, freed => wlFlushEq rest (freed ++ [e])

/-- `down_interruptible` fails only for a pending signal, `kthread_should_stop` reads the stop
request, and producers have finished when the shutdown begins. -/
def permitted (state : State Producer Msg) : EventQueue.Label Producer Msg → Bool
  | .interrupt => state.signal
  | .shouldStop stop => stop == state.shouldStop
  | label => !label.isProducer || state.deinit == .idle

/-- `signal` is a signal sent to the thread before the shutdown, `release` the release of its
task structure; the others are the steps of the queue's threads and of
`wl_deinit_cfg80211_priv`, in its order. -/
inductive Label (Producer Msg : Type*) where
  | queue (label : EventQueue.Label Producer Msg)
  | signal
  | release
  | sendSig
  | kthreadStop
  | joined
  | flush
  | linkDown
  | deinitPrivMem

variable [DecidableEq Producer]

def step (state : State Producer Msg) : Label Producer Msg → Option (State Producer Msg)
  | .queue label =>
      if permitted state label then
        (EventQueue.step state.queue label).map fun queue ↦
          { state with queue := queue, useAfterFree := state.useAfterFree || !state.privLive }
      else none
  | .signal =>
      match state.deinit with
      | .idle => some { state with signal := true }
      | _ => none
  | .release =>
      match state.queue.consumer, state.shouldStop with
      | .returned _, false => some { state with released := true }
      | _, _ => none
  | .sendSig =>
      match state.deinit with
      | .idle => some { state with signal := true, deinit := .stopping }
      | _ => none
  | .kthreadStop =>
      match state.deinit with
      | .stopping =>
          some { state with
            shouldStop := true
            staleStop := state.staleStop || state.released
            deinit := .joining }
      | _ => none
  | .joined =>
      match state.deinit, state.queue.consumer with
      | .joining, .returned _ => some { state with deinit := .flushing }
      | _, _ => none
  | .flush =>
      match state.deinit with
      | .flushing =>
          let (eqList, flushed) := wlFlushEq state.queue.eqList state.flushed
          some { state with
            queue := { state.queue with eqList := eqList }
            flushed := flushed
            deinit := .linkDown }
      | _ => none
  | .linkDown =>
      match state.deinit with
      | .linkDown =>
          some { state with
            useAfterFree := state.useAfterFree || !state.privLive
            deinit := .deinitPrivMem }
      | _ => none
  | .deinitPrivMem =>
      match state.deinit with
      | .deinitPrivMem => some { state with privLive := false, deinit := .done }
      | _ => none

/-- The state after `wl_init_cfg80211_priv`. -/
def initialized : State Producer Msg where
  queue := EventQueue.initialized
  signal := false
  shouldStop := false
  released := false
  deinit := .idle
  flushed := []
  privLive := true
  staleStop := false
  useAfterFree := false

def machine (Producer Msg : Type*) [DecidableEq Producer] :
    Machine (State Producer Msg) (Label Producer Msg) where
  initial state := state = initialized
  step := step

end Source

/-- Producers only run before the shutdown. -/
theorem idle_of_permitted {state : State Producer Msg} {label : EventQueue.Label Producer Msg}
    (hproducer : label.isProducer = true) (hpermitted : permitted state label = true) :
    state.deinit = .idle := by
  cases label <;> simp_all [permitted, Label.isProducer]

theorem wlFlushEq_eq (eqList freed : List (Event Msg)) :
    wlFlushEq eqList freed = ([], freed ++ eqList) := by
  induction eqList generalizing freed with
  | nil => rw [wlFlushEq, List.append_nil]
  | cons e rest ih => rw [wlFlushEq, ih, List.append_assoc, List.singleton_append]

def DeinitPc.stopCalled : DeinitPc → Bool
  | .idle => false
  | .stopping => false
  | _ => true

/-- The thread has returned and `kthread_stop` has seen it. -/
def DeinitPc.hasJoined : DeinitPc → Bool
  | .idle => false
  | .stopping => false
  | .joining => false
  | _ => true

def DeinitPc.hasFlushed : DeinitPc → Bool
  | .linkDown => true
  | .deinitPrivMem => true
  | .done => true
  | _ => false

def State.hasReturned (state : State Producer Msg) : Prop :=
  ∃ tookUp, state.queue.consumer = .returned tookUp

/-! ## What holds in every interleaving -/

/-- With the flushed events put back in front, the queue refines a channel as it does without a
shutdown. -/
structure Inv [Fintype Producer] (state : State Producer Msg) (channel : Channel (Event Msg)) :
    Prop where
  queue : Refines { state.queue with eqList := state.flushed ++ state.queue.eqList } channel
  stop : state.shouldStop = state.deinit.stopCalled
  joined : state.deinit.hasJoined = true → state.hasReturned
  unflushed : state.deinit.hasFlushed = false → state.flushed = []
  emptied : state.deinit.hasFlushed = true → state.queue.eqList = []
  live : state.deinit ≠ .done → state.privLive = true
  useAfterFree : state.useAfterFree = false

theorem DeinitPc.hasJoined_of_hasFlushed {deinit : DeinitPc} (h : deinit.hasFlushed = true) :
    deinit.hasJoined = true := by
  cases deinit <;> first | rfl | cases h

section Thread

variable [Fintype Producer] {state : State Producer Msg} {channel : Channel (Event Msg)}

theorem initialized_inv : Inv (initialized : State Producer Msg) ⟨[], []⟩ := by
  refine ⟨initialized_refines, rfl, ?_, fun _ ↦ rfl, ?_, fun _ ↦ rfl, rfl⟩ <;>
  exact fun h ↦ nomatch h

theorem Inv.flushed_eq_nil (h : Inv state channel) (hjoined : state.deinit.hasJoined = false) :
    state.flushed = [] := by
  refine h.unflushed ?_
  rw [← Bool.not_eq_true]
  intro hflushed
  rw [DeinitPc.hasJoined_of_hasFlushed hflushed] at hjoined
  cases hjoined

/-- Until it is joined the thread and its queue behave as without a shutdown. -/
theorem Inv.refines (h : Inv state channel) (hjoined : state.deinit.hasJoined = false) :
    Refines state.queue channel := by
  have hqueue := h.queue
  rwa [h.flushed_eq_nil hjoined] at hqueue

theorem wlFlushEq_inv (h : Inv state channel) (hflushing : state.deinit = .flushing) :
    Inv { state with
      queue := { state.queue with eqList := (wlFlushEq state.queue.eqList state.flushed).1 }
      flushed := (wlFlushEq state.queue.eqList state.flushed).2
      deinit := .linkDown } channel := by
  have hjoined := h.joined (by rw [hflushing]; rfl)
  have hstop : state.shouldStop = true := by rw [h.stop, hflushing]; rfl
  rw [wlFlushEq_eq]
  refine ⟨?_, hstop, fun _ ↦ hjoined, ?_, fun _ ↦ rfl, ?_, h.useAfterFree⟩
  · change Refines
      { state.queue with eqList := (state.flushed ++ state.queue.eqList) ++ [] } channel
    rw [List.append_nil]
    exact h.queue
  · exact fun hfalse ↦ nomatch hfalse
  · exact fun _ ↦ h.live (by rw [hflushing]; exact fun hne ↦ nomatch hne)

end Thread

section Steps

variable [DecidableEq Producer] [Fintype Producer]
variable {state : State Producer Msg} {channel : Channel (Event Msg)}

/-- A thread that takes a step has not been joined. -/
theorem Inv.not_joined (h : Inv state channel) {label : EventQueue.Label Producer Msg}
    {queue : EventQueue.State Producer Msg} (hpermitted : permitted state label = true)
    (hstep : EventQueue.step state.queue label = some queue) :
    state.deinit.hasJoined = false := by
  rw [← Bool.not_eq_true]
  intro hjoined
  obtain ⟨tookUp, hreturned⟩ := h.joined hjoined
  rw [idle_of_permitted (step_of_returned hreturned hstep) hpermitted] at hjoined
  cases hjoined

theorem queue_inv (h : Inv state channel) {label : EventQueue.Label Producer Msg}
    {queue : EventQueue.State Producer Msg} (hpermitted : permitted state label = true)
    (hstep : EventQueue.step state.queue label = some queue) :
    ∃ image, Inv { state with
      queue := queue, useAfterFree := state.useAfterFree || !state.privLive } image := by
  have hjoined := h.not_joined hpermitted hstep
  obtain ⟨_, image, _, hnext⟩ := step_refines (h.refines hjoined) hstep
  have hflushed := h.flushed_eq_nil hjoined
  have hlive : state.privLive = true := h.live fun hdone ↦ by
    rw [hdone] at hjoined
    cases hjoined
  refine ⟨image, ?_, h.stop, ?_, h.unflushed, ?_, h.live, ?_⟩ <;> dsimp only
  · rwa [hflushed]
  · intro htrue
    rw [hjoined] at htrue
    cases htrue
  · intro htrue
    rw [DeinitPc.hasJoined_of_hasFlushed htrue] at hjoined
    cases hjoined
  · rw [h.useAfterFree, hlive]
    rfl

/-- Every step keeps the invariant, whether or not the thread returns early. -/
theorem step_inv {next : State Producer Msg} {label : Label Producer Msg}
    (h : Inv state channel) (hstep : step state label = some next) :
    ∃ image, Inv next image := by
  obtain ⟨hqueue, hstop, hjoined, hunflushed, hemptied, hlive, huse⟩ := id h
  cases label with
  | queue label =>
    obtain ⟨hpermitted, hmap⟩ := Option.ite_none_right_eq_some.mp hstep
    obtain ⟨queue, hnext, rfl⟩ := Option.map_eq_some_iff.mp hmap
    exact queue_inv h hpermitted hnext
  | signal =>
    cases hpc : state.deinit <;> simp only [step, hpc] at hstep <;> cases hstep
    rw [hpc] at hstop hjoined hunflushed hemptied hlive
    exact ⟨channel, hqueue, hstop, hjoined, hunflushed, hemptied, hlive, huse⟩
  | release =>
    cases hpc : state.queue.consumer <;> simp only [step, hpc] at hstep <;> try cases hstep
    cases hflag : state.shouldStop <;> simp only [hflag] at hstep <;> cases hstep
    rw [hflag] at hstop
    exact ⟨channel, hqueue, hstop, hjoined, hunflushed, hemptied, hlive, huse⟩
  | sendSig =>
    cases hpc : state.deinit <;> simp only [step, hpc] at hstep <;> cases hstep
    rw [hpc] at hstop hunflushed hlive
    exact ⟨channel, hqueue, hstop, fun htrue ↦ (nomatch htrue), hunflushed,
      fun htrue ↦ (nomatch htrue), fun _ ↦ hlive (fun hne ↦ nomatch hne), huse⟩
  | kthreadStop =>
    cases hpc : state.deinit <;> simp only [step, hpc] at hstep <;> cases hstep
    rw [hpc] at hunflushed hlive
    exact ⟨channel, hqueue, rfl, fun htrue ↦ (nomatch htrue), hunflushed,
      fun htrue ↦ (nomatch htrue), fun _ ↦ hlive (fun hne ↦ nomatch hne), huse⟩
  | joined =>
    cases hpc : state.deinit <;> simp only [step, hpc] at hstep <;> try cases hstep
    cases hconsumer : state.queue.consumer <;> simp only [hconsumer] at hstep <;> cases hstep
    rw [hpc] at hstop hunflushed hlive
    exact ⟨channel, hqueue, hstop, fun _ ↦ ⟨_, hconsumer⟩, hunflushed,
      fun htrue ↦ (nomatch htrue), fun _ ↦ hlive (fun hne ↦ nomatch hne), huse⟩
  | flush =>
    cases hpc : state.deinit <;> simp only [step, hpc] at hstep <;> cases hstep
    exact ⟨channel, wlFlushEq_inv h hpc⟩
  | linkDown =>
    cases hpc : state.deinit <;> simp only [step, hpc] at hstep <;> cases hstep
    rw [hpc] at hstop hjoined hemptied hlive
    have hlive' := hlive fun hne ↦ nomatch hne
    refine ⟨channel, hqueue, hstop, hjoined, fun hfalse ↦ (nomatch hfalse), hemptied,
      fun _ ↦ hlive', ?_⟩
    dsimp only
    rw [huse, hlive']
    rfl
  | deinitPrivMem =>
    cases hpc : state.deinit <;> simp only [step, hpc] at hstep <;> cases hstep
    rw [hpc] at hstop hjoined hemptied
    exact ⟨channel, hqueue, hstop, hjoined, fun hfalse ↦ (nomatch hfalse), hemptied,
      fun hne ↦ absurd rfl hne, huse⟩

theorem reachable_inv (h : (machine Producer Msg).Reachable state) :
    ∃ channel, Inv state channel := by
  let invariant := fun state : State Producer Msg ↦ ∃ channel, Inv state channel
  have hinvariant : invariant state := by
    refine h.invariant ?_ ?_
    · intro state hstate
      change state = initialized at hstate
      subst hstate
      exact ⟨_, initialized_inv⟩
    · intro state label next hstate hstep
      obtain ⟨channel, hinv⟩ := hstate
      exact step_inv hinv hstep
  exact hinvariant

/-! ## When the thread waits for the stop request -/

/-- The thread leaves `down_interruptible` because of a signal only after `kthread_stop` has
asked it to stop. -/
def signalSeenAfterStop (state : State Producer Msg) : Label Producer Msg → Bool
  | .queue .interrupt => state.shouldStop
  | _ => true

/-- A thread that returns only when it is stopped is never released before `kthread_stop`. -/
structure StopInv (state : State Producer Msg) : Prop where
  returned : state.hasReturned → state.shouldStop = true
  released : state.released = false
  staleStop : state.staleStop = false

theorem queue_stopInv (h : Inv state channel) (hstop : StopInv state)
    {label : EventQueue.Label Producer Msg} {queue : EventQueue.State Producer Msg}
    (hcondition : signalSeenAfterStop state (.queue label) = true)
    (hpermitted : permitted state label = true)
    (hstep : EventQueue.step state.queue label = some queue) :
    (∃ tookUp, queue.consumer = .returned tookUp) → state.shouldStop = true := by
  intro hreturned
  obtain ⟨tookUp, hreturned⟩ := hreturned
  have hrefines := h.refines (h.not_joined hpermitted hstep)
  rcases returned_of_step hrefines hstep hreturned with hbefore | rfl | rfl
  · exact hstop.returned ⟨tookUp, hbefore⟩
  · exact hcondition
  · exact (beq_iff_eq.mp hpermitted).symm

theorem step_stopInv {next : State Producer Msg} {label : Label Producer Msg}
    (h : Inv state channel) (hstop : StopInv state)
    (hcondition : signalSeenAfterStop state label = true)
    (hstep : step state label = some next) : StopInv next := by
  cases label with
  | queue label =>
    obtain ⟨hpermitted, hmap⟩ := Option.ite_none_right_eq_some.mp hstep
    obtain ⟨queue, hnext, rfl⟩ := Option.map_eq_some_iff.mp hmap
    exact ⟨queue_stopInv h hstop hcondition hpermitted hnext, hstop.released, hstop.staleStop⟩
  | release =>
    cases hpc : state.queue.consumer <;> simp only [step, hpc] at hstep <;> try cases hstep
    cases hflag : state.shouldStop <;> simp only [hflag] at hstep <;> cases hstep
    have htrue := hstop.returned ⟨_, hpc⟩
    rw [hflag] at htrue
    cases htrue
  | kthreadStop =>
    cases hpc : state.deinit <;> simp only [step, hpc] at hstep <;> cases hstep
    refine ⟨fun _ ↦ rfl, hstop.released, ?_⟩
    dsimp only
    rw [hstop.staleStop, hstop.released]
    rfl
  | joined =>
    cases hpc : state.deinit <;> simp only [step, hpc] at hstep <;> try cases hstep
    cases hconsumer : state.queue.consumer <;> simp only [hconsumer] at hstep <;> cases hstep
    exact ⟨hstop.returned, hstop.released, hstop.staleStop⟩
  | signal | sendSig | flush | linkDown | deinitPrivMem =>
    cases hpc : state.deinit <;> simp only [step, hpc] at hstep <;> cases hstep
    exact ⟨hstop.returned, hstop.released, hstop.staleStop⟩

theorem restrict_stopInv
    (h : ((machine Producer Msg).restrict fun state label ↦
      signalSeenAfterStop state label = true).Reachable state) : StopInv state := by
  let invariant := fun state : State Producer Msg ↦ StopInv state ∧ ∃ channel, Inv state channel
  have hinvariant : invariant state := by
    refine h.invariant ?_ ?_
    · intro state hstate
      change state = initialized at hstate
      subst hstate
      exact ⟨⟨fun hreturned ↦ (nomatch hreturned), rfl, rfl⟩, _, initialized_inv⟩
    · intro state label next hstate hstep
      obtain ⟨hcondition, hstep⟩ := Machine.restrict_step_eq_some.mp hstep
      obtain ⟨hstop, channel, hinv⟩ := hstate
      exact ⟨step_stopInv hinv hstop hcondition hstep, step_inv hinv hstep⟩
  exact hinvariant.1

/-! ## When the thread returns early -/

/-- The steps that lead from an early return to `kthread_stop`. -/
def earlySchedule (state : State Producer Msg) : List (Label Producer Msg) :=
  if state.deinit = .idle then [.release, .sendSig, .kthreadStop] else [.release, .kthreadStop]

theorem earlySchedule_staleStop (h : Inv state channel) (hreturned : state.hasReturned)
    (hstop : state.shouldStop = false) :
    ∃ final, (machine Producer Msg).run state (earlySchedule state) = some final ∧
      final.staleStop = true := by
  obtain ⟨tookUp, hconsumer⟩ := hreturned
  have hrelease : step state .release = some { state with released := true } := by
    simp only [step, hconsumer, hstop]
  have hcalled := h.stop
  rw [hstop] at hcalled
  unfold earlySchedule
  cases hpc : state.deinit <;> rw [hpc] at hcalled <;> try cases hcalled
  · have hsend : step { state with released := true } .sendSig =
        some { state with released := true, signal := true, deinit := .stopping } := by
      simp only [step, hpc]
    rw [if_pos rfl]
    exact ⟨_, Machine.run_cons_eq_some.mpr ⟨_, hrelease, Machine.run_cons_eq_some.mpr ⟨_, hsend,
      Machine.run_cons_eq_some.mpr ⟨_, rfl, rfl⟩⟩⟩, Bool.or_true _⟩
  · have hkthreadStop : step { state with released := true } .kthreadStop =
        some { state with
          released := true
          shouldStop := true
          staleStop := state.staleStop || true
          deinit := .joining } := by
      simp only [step, hpc]
    rw [if_neg (by decide)]
    exact ⟨_, Machine.run_cons_eq_some.mpr ⟨_, hrelease, Machine.run_cons_eq_some.mpr ⟨_,
      hkthreadStop, rfl⟩⟩, Bool.or_true _⟩

/-! ## The shutdown -/

/-- `kthread_stop` was not applied to a released task, no thread step and no `wl_link_down` came
after the private buffers were freed, no event was freed twice, and after `wl_flush_eq` every
event that was enqueued has been freed. -/
structure Safe (state : State Producer Msg) : Prop where
  staleStop : state.staleStop = false
  useAfterFree : state.useAfterFree = false
  nodup : (state.queue.freed ++ state.flushed).Nodup
  freed : state.deinit.hasFlushed = true →
    state.queue.eqList = [] ∧ state.queue.enqueued = state.queue.freed ++ state.flushed

omit [DecidableEq Producer] in
theorem Inv.safe (h : Inv state channel) (hstop : state.staleStop = false) : Safe state := by
  have hsent : state.queue.enqueued = state.queue.freed ++ state.queue.consumer.inHand ++
      (state.flushed ++ state.queue.eqList) := by
    have hqueue := h.queue.sent
    rw [Channel.sent, h.queue.delivered, ← h.queue.queue] at hqueue
    exact hqueue
  have hnodup : (state.queue.freed ++ state.queue.consumer.inHand ++
      (state.flushed ++ state.queue.eqList)).Nodup := hsent ▸ h.queue.owned.nodup
  refine ⟨hstop, h.useAfterFree, hnodup.sublist ?_, fun hflushed ↦ ?_⟩
  · exact (List.sublist_append_left _ _).append (List.sublist_append_left _ _)
  · obtain ⟨tookUp, hreturned⟩ := h.joined (DeinitPc.hasJoined_of_hasFlushed hflushed)
    refine ⟨h.emptied hflushed, ?_⟩
    rw [hsent, h.emptied hflushed, hreturned, List.append_nil]
    exact congrArg (· ++ state.flushed) (List.append_nil _)

/-- Every state is safe when the thread sees the signal only after the stop request. Once it has
returned before the stop request, the shutdown can still reach an unsafe state. -/
theorem event_thread_shutdown (state : State Producer Msg) :
    (((machine Producer Msg).restrict fun state label ↦
        signalSeenAfterStop state label = true).Reachable state → Safe state) ∧
      ((machine Producer Msg).Reachable state → state.hasReturned → state.shouldStop = false →
        ∃ labels final, (machine Producer Msg).run state labels = some final ∧ ¬Safe final) := by
  constructor
  · intro h
    obtain ⟨channel, hinv⟩ := reachable_inv h.of_restrict
    exact hinv.safe (restrict_stopInv h).staleStop
  · intro h hreturned hstop
    obtain ⟨channel, hinv⟩ := reachable_inv h
    obtain ⟨final, hrun, hstale⟩ := earlySchedule_staleStop hinv hreturned hstop
    refine ⟨_, final, hrun, fun hsafe ↦ ?_⟩
    rw [hsafe.staleStop] at hstale
    cases hstale

end Steps

/-- A whole shutdown with an event left on the list. -/
theorem event_thread_shutdown_flushes :
    ∃ state : State Unit ℕ, ((machine Unit ℕ).restrict fun state label ↦
        signalSeenAfterStop state label = true).run initialized
        [.queue (.alloc () 16 7 true), .queue (.append ()), .queue (.up ()), .sendSig,
          .kthreadStop, .queue .interrupt, .joined, .flush, .linkDown, .deinitPrivMem] =
          some state ∧
      state.flushed = [⟨0, 16, 7⟩] ∧ Safe state :=
  ⟨_, rfl, rfl, (event_thread_shutdown _).1 ⟨initialized, [.queue (.alloc () 16 7 true),
    .queue (.append ()), .queue (.up ()), .sendSig, .kthreadStop, .queue .interrupt, .joined,
    .flush, .linkDown, .deinitPrivMem], rfl, rfl⟩⟩

/-- The thread sees the signal, returns and is released before `kthread_stop` is called. -/
theorem signal_seen_before_stop :
    ∃ state : State Unit ℕ, (machine Unit ℕ).run initialized
        [.sendSig, .queue .interrupt, .release, .kthreadStop] = some state ∧
      state.staleStop = true ∧ ¬Safe state :=
  ⟨_, rfl, rfl, fun hsafe ↦ nomatch hsafe.staleStop⟩

end BroadcomWl.Cfg80211.EventThread
