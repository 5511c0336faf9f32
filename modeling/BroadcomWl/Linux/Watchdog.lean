import BroadcomWl.Systems.DoubleBuffer

/-!
# The statistics of an interface

`wl_linux_watchdog` runs once a second under the lock. For every interface it stores the counters of
the firmware into the slot of `stats_watchdog` and of `wstats_watchdog` that `stats_id` does not
name, and then changes `stats_id`. `wl_get_stats` and `wl_get_wireless_stats` take no lock: they
read `stats_id` and copy that slot into `stats` or `wstats`, which all callers share.

A step of the machine is one store of the watchdog, one field of a copy, or a change of `stats_id`.
-/

namespace BroadcomWl.Linux.Watchdog

open BroadcomWl.Systems

/-- `struct wlc_if_stats`, as far as it is read. -/
structure WlcIfStats where
  txframe : UInt32
  txbyte : UInt32
  txerror : UInt32
  txfail : UInt32
  rxframe : UInt32
  rxbyte : UInt32
  rxerror : UInt32
  rxfragerr : UInt32
deriving DecidableEq, Repr

/-- The counters of `wl_cnt_t` that are read. -/
structure WlCnt where
  rxoflo : UInt32
  rxcrc : UInt32
  rxundec : UInt32
  rxrunt : UInt32
  rxgiant : UInt32
deriving DecidableEq, Repr

/-- What the watchdog reads for one interface. -/
structure Counters where
  wlcifStats : WlcIfStats
  cnt : WlCnt
deriving DecidableEq, Repr

/-- The counters of an interface that was never visited. -/
def Counters.zero : Counters where
  wlcifStats := ⟨0, 0, 0, 0, 0, 0, 0, 0⟩
  cnt := ⟨0, 0, 0, 0, 0⟩

/-- The fields of `struct net_device_stats`, and those of `struct iw_statistics` that the watchdog
stores. -/
inductive Field where
  | rxPackets
  | txPackets
  | rxBytes
  | txBytes
  | rxErrors
  | txErrors
  | rxDropped
  | txDropped
  | multicast
  | collisions
  | rxLengthErrors
  | rxOverErrors
  | rxCrcErrors
  | rxFrameErrors
  | rxFifoErrors
  | rxMissedErrors
  | txAbortedErrors
  | txCarrierErrors
  | txFifoErrors
  | txHeartbeatErrors
  | txWindowErrors
  | rxCompressed
  | txCompressed
  | discardNwid
  | discardCode
  | discardFragment
  | discardRetries
  | discardMisc
  | missBeacon
deriving DecidableEq, Repr

/-- `WLCNTVAL`, in the width of a field of `struct net_device_stats`. -/
def wlcntval (counter : UInt32) : UInt64 := counter.toUInt64

/-- The stores of `wl_linux_watchdog` for one interface, in order. -/
def watchdogStores (counters : Counters) : List (Field × UInt64) :=
  let wlcifStats := counters.wlcifStats
  let cnt := counters.cnt
  [(.rxPackets, wlcntval wlcifStats.rxframe),
   (.txPackets, wlcntval wlcifStats.txframe),
   (.rxBytes, wlcntval wlcifStats.rxbyte),
   (.txBytes, wlcntval wlcifStats.txbyte),
   (.rxErrors, wlcntval wlcifStats.rxerror),
   (.txErrors, wlcntval wlcifStats.txerror),
   (.collisions, 0),
   (.rxLengthErrors, 0),
   (.rxOverErrors, wlcntval cnt.rxoflo),
   (.rxCrcErrors, wlcntval cnt.rxcrc),
   (.rxFrameErrors, 0),
   (.rxFifoErrors, wlcntval cnt.rxoflo),
   (.rxMissedErrors, 0),
   (.txFifoErrors, 0),
   (.discardNwid, 0),
   (.discardCode, wlcntval cnt.rxundec),
   (.discardFragment, wlcntval wlcifStats.rxfragerr),
   (.discardRetries, wlcntval wlcifStats.txfail),
   (.discardMisc, wlcntval (cnt.rxrunt + cnt.rxgiant)),
   (.missBeacon, 0)]

/-- What the fields of an interface are for given counters. -/
def statsOf (counters : Counters) : Field → UInt64
  | .rxPackets => wlcntval counters.wlcifStats.rxframe
  | .txPackets => wlcntval counters.wlcifStats.txframe
  | .rxBytes => wlcntval counters.wlcifStats.rxbyte
  | .txBytes => wlcntval counters.wlcifStats.txbyte
  | .rxErrors => wlcntval counters.wlcifStats.rxerror
  | .txErrors => wlcntval counters.wlcifStats.txerror
  | .rxOverErrors => wlcntval counters.cnt.rxoflo
  | .rxFifoErrors => wlcntval counters.cnt.rxoflo
  | .rxCrcErrors => wlcntval counters.cnt.rxcrc
  | .discardCode => wlcntval counters.cnt.rxundec
  | .discardFragment => wlcntval counters.wlcifStats.rxfragerr
  | .discardRetries => wlcntval counters.wlcifStats.txfail
  | .discardMisc => wlcntval (counters.cnt.rxrunt + counters.cnt.rxgiant)
  | .rxDropped | .txDropped | .multicast | .collisions | .rxLengthErrors | .rxFrameErrors
  | .rxMissedErrors | .txAbortedErrors | .txCarrierErrors | .txFifoErrors | .txHeartbeatErrors
  | .txWindowErrors | .rxCompressed | .txCompressed | .discardNwid | .missBeacon => 0

/-- The two functions that copy; each has a destination of its own. -/
inductive Getter where
  | wlGetStats
  | wlGetWirelessStats
deriving DecidableEq, Repr

/-- What a function copies: the whole `struct net_device_stats`, or four counters of discarded
packets. -/
def Getter.fields : Getter → List Field
  | .wlGetStats =>
      [.rxPackets, .txPackets, .rxBytes, .txBytes, .rxErrors, .txErrors, .rxDropped, .txDropped,
        .multicast, .collisions, .rxLengthErrors, .rxOverErrors, .rxCrcErrors, .rxFrameErrors,
        .rxFifoErrors, .rxMissedErrors, .txAbortedErrors, .txCarrierErrors, .txFifoErrors,
        .txHeartbeatErrors, .txWindowErrors, .rxCompressed, .txCompressed]
  | .wlGetWirelessStats => [.discardCode, .discardFragment, .discardRetries, .discardMisc]

/-- A call of one of the functions; there may be any number of them. -/
structure Call where
  getter : Getter
  caller : ℕ
deriving DecidableEq, Repr

/-- Fields that the watchdog does not store are zero in both slots. -/
theorem storeAll_watchdogStores (counters old : Counters) :
    DoubleBuffer.storeAll (watchdogStores counters) (statsOf old) = statsOf counters := by
  funext field
  cases field <;> rfl

def layout : DoubleBuffer.Layout Counters Field UInt64 Call Getter where
  value := statsOf
  stores := watchdogStores
  fields call := call.getter.fields
  place := Call.getter
  storeAll_stores := storeAll_watchdogStores

/-! ## The machine -/

/-- The statistics in `struct wl_if`. -/
structure WlIf where
  buffer : DoubleBuffer.State Counters Field UInt64 Call Getter
  phyNoise : Int32

/-- Where the watchdog is: between two runs or two interfaces, at the stores for an interface, or at
`WLC_GET_PHY_NOISE`. -/
inductive Turn (Iface : Type*) where
  | idle
  | stores (iface : Iface)
  | noise (iface : Iface)

structure State (Iface : Type*) where
  up : Bool
  turn : Turn Iface
  wlif : Iface → WlIf

inductive Label (Iface : Type*) where
  | setUp (up : Bool)
  | visit (iface : Iface) (counters : Counters)
  | store
  | flip
  | getNoise (answer : ℤ × Int32)
  | start (iface : Iface) (call : Call)
  | copy (iface : Iface) (call : Call)
  | finish (iface : Iface) (call : Call)

variable {Iface : Type*} [DecidableEq Iface]

def State.put (state : State Iface) (turn : Turn Iface) (iface : Iface) (wlif : WlIf) :
    State Iface :=
  { state with turn := turn, wlif := Function.update state.wlif iface wlif }

theorem State.put_wlif (state : State Iface) (turn : Turn Iface) (iface other : Iface)
    (wlif : WlIf) :
    (state.put turn iface wlif).wlif other = if other = iface then wlif else state.wlif other :=
  Function.update_apply ..

/-- A step on the double buffer of one interface. -/
def State.buffered (state : State Iface) (iface : Iface)
    (label : DoubleBuffer.Label Counters Call) (turn : Turn Iface) : Option (State Iface) :=
  (DoubleBuffer.step layout (state.wlif iface).buffer label).map fun buffer ↦
    state.put turn iface { state.wlif iface with buffer := buffer }

def step (state : State Iface) : Label Iface → Option (State Iface)
  | .setUp up =>
      match state.turn with
      | .idle => some { state with up := up }
      | _ => none
  | .visit iface counters =>
      match state.turn with
      | .idle =>
          if state.up then state.buffered iface (.update counters) (.stores iface)
          else some { state with turn := .noise iface }
      | _ => none
  | .store =>
      match state.turn with
      | .stores iface => state.buffered iface .store (.stores iface)
      | _ => none
  | .flip =>
      match state.turn with
      | .stores iface => state.buffered iface .publish (.noise iface)
      | _ => none
  | .getNoise (err, phyNoise) =>
      match state.turn with
      | .noise iface =>
          let wlif := state.wlif iface
          let wlif := if err = 0 then { wlif with phyNoise := phyNoise } else wlif
          some (state.put .idle iface wlif)
      | _ => none
  | .start iface call => state.buffered iface (.start call) state.turn
  | .copy iface call => state.buffered iface (.copy call) state.turn
  | .finish iface call => state.buffered iface (.finish call) state.turn

/-- `wl_alloc_if` clears the structure. -/
structure Initial (state : State Iface) : Prop where
  turn : state.turn = .idle
  buffer : ∀ iface, DoubleBuffer.Initial layout (state.wlif iface).buffer
  published : ∀ iface, (state.wlif iface).buffer.published = [Counters.zero]

def watchdog : Machine (State Iface) (Label Iface) where
  initial := Initial
  step := step

/-- The watchdog comes to an interface only after every copy from the slot that it will write is
done, and no two calls of one function are under way for one interface. -/
def Timely (state : State Iface) : Label Iface → Prop
  | .visit iface counters =>
      state.up = true → DoubleBuffer.Timely layout (state.wlif iface).buffer (.update counters)
  | .start iface call => DoubleBuffer.Timely layout (state.wlif iface).buffer (.start call)
  | .setUp _ | .store | .flip | .getNoise _ | .copy _ _ | .finish _ _ => True

/-! ## Snapshots -/

/-- What a step does to the double buffer of an interface. -/
inductive Touches (state next : State Iface) (label : Label Iface) (iface : Iface) : Prop
  | nothing (h : (next.wlif iface).buffer = (state.wlif iface).buffer)
  | step (inner : DoubleBuffer.Label Counters Call)
      (h : DoubleBuffer.step layout (state.wlif iface).buffer inner =
        some (next.wlif iface).buffer)
      (timely : Timely state label →
        DoubleBuffer.Timely layout (state.wlif iface).buffer inner)
      (start : ∀ call, inner = .start call → label = .start iface call)

theorem touches_of_buffered {state next : State Iface} {label : Label Iface} {iface : Iface}
    {inner : DoubleBuffer.Label Counters Call} {turn : Turn Iface}
    (hnext : state.buffered iface inner turn = some next)
    (htimely : Timely state label → DoubleBuffer.Timely layout (state.wlif iface).buffer inner)
    (hstart : ∀ call, inner = .start call → label = .start iface call) (other : Iface) :
    Touches state next label other := by
  obtain ⟨buffer, hbuffer, rfl⟩ := Option.map_eq_some_iff.mp hnext
  by_cases hother : other = iface
  · subst hother
    refine .step inner ?_ htimely hstart
    rw [State.put_wlif, if_pos rfl, hbuffer]
  · refine .nothing ?_
    rw [State.put_wlif, if_neg hother]

theorem step_touches {state next : State Iface} {label : Label Iface}
    (hstep : step state label = some next) (iface : Iface) : Touches state next label iface := by
  cases label with
  | setUp up =>
    simp only [step] at hstep
    split at hstep
    · cases hstep
      exact .nothing rfl
    · cases hstep
  | visit other counters =>
    simp only [step] at hstep
    split at hstep
    · split at hstep
      next hup =>
        refine touches_of_buffered hstep
          (fun h : Timely state (.visit other counters) ↦ h hup) ?_ iface
        intro _ h
        cases h
      next =>
        cases hstep
        exact .nothing rfl
    · cases hstep
  | store =>
    simp only [step] at hstep
    split at hstep
    · exact touches_of_buffered hstep (fun _ ↦ trivial) (fun _ h ↦ by cases h) iface
    · cases hstep
  | flip =>
    simp only [step] at hstep
    split at hstep
    · exact touches_of_buffered hstep (fun _ ↦ trivial) (fun _ h ↦ by cases h) iface
    · cases hstep
  | getNoise answer =>
    simp only [step] at hstep
    split at hstep
    next other _ =>
      cases hstep
      refine .nothing ?_
      rw [State.put_wlif]
      by_cases hother : iface = other
      · rw [if_pos hother, hother]
        split <;> rfl
      · rw [if_neg hother]
    next => cases hstep
  | start other call =>
    refine touches_of_buffered hstep id (fun started h ↦ ?_) iface
    cases h
    rfl
  | copy other call =>
    exact touches_of_buffered hstep (fun _ ↦ trivial) (fun _ h ↦ by cases h) iface
  | finish other call =>
    exact touches_of_buffered hstep (fun _ ↦ trivial) (fun _ h ↦ by cases h) iface

def Consistent (state : State Iface) : Prop :=
  ∀ iface, DoubleBuffer.Consistent layout (state.wlif iface).buffer

theorem Consistent.step {state next : State Iface} {label : Label Iface} (h : Consistent state)
    (htimely : Timely state label) (hstep : watchdog.step state label = some next) :
    Consistent next := by
  intro iface
  cases step_touches hstep iface with
  | nothing hsame =>
    rw [hsame]
    exact h iface
  | step inner hinner htimely' _ => exact (h iface).step (htimely' htimely) hinner

/-- A call of the interface, if it is still under way, saw the content with this number. -/
structure Saw (iface : Iface) (call : Call) (number : ℕ) (counters : Counters)
    (state : State Iface) : Prop where
  published : (state.wlif iface).buffer.published[number]? = some counters
  seen : ∀ reading, (state.wlif iface).buffer.reading call = some reading → reading.seen = number

theorem Saw.step {iface : Iface} {call : Call} {number : ℕ} {counters : Counters}
    {state next : State Iface} {label : Label Iface} (h : Saw iface call number counters state)
    (hlabel : label ≠ .start iface call) (hstep : watchdog.step state label = some next) :
    Saw iface call number counters next := by
  cases step_touches hstep iface with
  | nothing hsame => exact ⟨by rw [hsame]; exact h.published, by rw [hsame]; exact h.seen⟩
  | step inner hinner _ hstart =>
    obtain ⟨later, hlater⟩ := DoubleBuffer.published_step hinner
    have hbound := (List.getElem?_eq_some_iff.mp h.published).1
    refine ⟨?_, fun reading hreading ↦ ?_⟩
    · rw [← hlater, List.getElem?_append_left hbound]
      exact h.published
    · have hinner' : inner ≠ .start call := fun hsame ↦ hlabel (hstart call hsame)
      obtain ⟨before, hbefore, hseen⟩ := DoubleBuffer.seen_step hinner hinner' hreading
      rw [← hseen]
      exact h.seen before hbefore

theorem Saw.run {iface : Iface} {call : Call} {number : ℕ} {counters : Counters}
    {state final : State Iface} {labels : List (Label Iface)}
    (h : Saw iface call number counters state) (hlabels : .start iface call ∉ labels)
    (hrun : watchdog.run state labels = some final) : Saw iface call number counters final := by
  induction labels generalizing state with
  | nil =>
    cases hrun
    exact h
  | cons label labels ih =>
    obtain ⟨next, hnext, hrest⟩ := Machine.run_cons_eq_some.mp hrun
    have hlabel : label ≠ .start iface call := fun hsame ↦ hlabels (by rw [hsame]; simp)
    exact ih (h.step hlabel hnext) (fun hmem ↦ hlabels (List.mem_cons_of_mem _ hmem)) hrest

theorem Saw.start {iface : Iface} {call : Call} {counters : Counters} {state next : State Iface}
    (hlast : (state.wlif iface).buffer.published.getLast? = some counters)
    (hstep : watchdog.step state (.start iface call) = some next) :
    Saw iface call ((state.wlif iface).buffer.published.length - 1) counters next := by
  obtain ⟨buffer, hbuffer, rfl⟩ := Option.map_eq_some_iff.mp hstep
  rw [List.getLast?_eq_getElem?] at hlast
  have hself : ((state.put state.turn iface { state.wlif iface with buffer := buffer }).wlif
      iface).buffer = buffer := by
    rw [State.put_wlif, if_pos rfl]
  obtain ⟨hpublished, hseen⟩ := DoubleBuffer.seen_start hbuffer
  refine ⟨?_, ?_⟩
  · rw [hself, hpublished]
    exact hlast
  · rw [hself]
    exact hseen

/-- Every copy that is done is one pass of the watchdog as a whole, the one that was published last
when the copy began. -/
theorem copies_are_snapshots {start state next final : State Iface}
    {before after : List (Label Iface)} {iface : Iface} {call : Call}
    {reading : DoubleBuffer.Reading Field} (hstart : watchdog.initial start)
    (hbefore : watchdog.run start before = some state)
    (hcall : watchdog.step state (.start iface call) = some next)
    (hafter : watchdog.run next after = some final)
    (htimely : watchdog.Along Timely start before)
    (htimely' : watchdog.Along Timely state (.start iface call :: after))
    (honce : .start iface call ∉ after)
    (hreading : (final.wlif iface).buffer.reading call = some reading) (hdone : reading.left = []) :
    ∃ counters, (state.wlif iface).buffer.published.getLast? = some counters ∧
      ∀ field ∈ call.getter.fields,
        (final.wlif iface).buffer.copied call.getter field = statsOf counters field := by
  have hconsistent : Consistent state :=
    htimely.preserves (fun _ _ _ ↦ Consistent.step) (fun iface ↦ (hstart.buffer iface).consistent)
      hbefore
  have hfinal : Consistent final :=
    htimely'.preserves (fun _ _ _ ↦ Consistent.step) hconsistent
      (Machine.run_cons_eq_some.mpr ⟨next, hcall, hafter⟩)
  obtain ⟨counters, hlast, -⟩ := (hconsistent iface).current
  have hsaw := (Saw.start hlast hcall).run honce hafter
  obtain ⟨seen, hseen, hfields⟩ := (hfinal iface).copied hreading hdone
  rw [hsaw.seen reading hreading, hsaw.published] at hseen
  cases hseen
  exact ⟨counters, hlast, hfields⟩

/-- A driver with one interface that is up and was not visited yet. -/
def fresh : State Unit where
  up := true
  turn := .idle
  wlif _ := {
    buffer := {
      slots := fun _ ↦ statsOf Counters.zero
      current := false
      pending := none
      reading := fun _ ↦ none
      copied := fun _ _ ↦ 0
      published := [Counters.zero] }
    phyNoise := 0 }

theorem initial_fresh : watchdog.initial fresh where
  turn := rfl
  buffer _ := ⟨rfl, fun _ ↦ rfl, Counters.zero, rfl, fun _ ↦ rfl⟩
  published _ := rfl

def wirelessCall : Call := ⟨.wlGetWirelessStats, 0⟩

/-- The copies of a call of `wl_get_wireless_stats`, with a visit of the watchdog between them. -/
def copiesWhileStoring : List (Label Unit) :=
  [.copy () wirelessCall, .visit () ⟨⟨1, 1, 1, 1, 1, 1, 1, 1⟩, ⟨1, 1, 1, 1, 1⟩⟩, .store,
    .copy () wirelessCall, .copy () wirelessCall, .copy () wirelessCall]

theorem timely_copiesWhileStoring :
    watchdog.Along Timely fresh (.start () wirelessCall :: copiesWhileStoring) := by
  refine .cons (fun _ _ ↦ rfl) rfl (.cons trivial rfl (.cons ?_ rfl (.cons trivial rfl ?_)))
  · intro _ reader reading hreading _
    rcases update_eq hreading with ⟨-, hcopy⟩ | ⟨-, hold⟩
    · cases hcopy
      rfl
    · rcases update_eq hold with ⟨-, hstart⟩ | ⟨-, hnone⟩
      · cases hstart
        rfl
      · cases hnone
  · exact .cons trivial rfl (.cons trivial rfl (.cons trivial rfl trivial))

theorem copies_are_snapshots_fresh :
    ∃ final counters,
      watchdog.run fresh (.start () wirelessCall :: copiesWhileStoring) = some final ∧
        ∀ field ∈ wirelessCall.getter.fields,
          (final.wlif ()).buffer.copied wirelessCall.getter field = statsOf counters field := by
  have honce : .start () wirelessCall ∉ copiesWhileStoring := by simp [copiesWhileStoring]
  obtain ⟨counters, -, hfields⟩ :=
    @copies_are_snapshots Unit _ fresh fresh _ _ [] copiesWhileStoring () wirelessCall _
      initial_fresh rfl rfl rfl trivial timely_copiesWhileStoring honce rfl rfl
  exact ⟨_, counters, rfl, hfields⟩

end BroadcomWl.Linux.Watchdog
