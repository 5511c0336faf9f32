import BroadcomWl.Systems.Machine
import BroadcomWl.Systems.Threads
import Mathlib.Logic.Function.Basic
import Mathlib.Tactic.Common

/-!
# Double buffers

A writer fills one of two slots field by field and then publishes it; readers copy the published
slot field by field. No lock is held on either side. A content that is written, and what its fields
are, are parameters, and so are the readers and the places they copy to.

A slot is only written again after the other one was published. A copy is therefore torn only when
the writer starts a second update before the copy is done; the module shows that without this every
finished copy is one content as a whole, the one that was published last when the copy began.
-/

namespace BroadcomWl.Systems.DoubleBuffer

variable {Content Field Value Reader Place : Type*} [DecidableEq Field]

/-- Stores into a slot, in order. -/
def storeAll : List (Field × Value) → (Field → Value) → Field → Value
  | [], slot => slot
  | (field, value) :: stores, slot => storeAll stores (Function.update slot field value)

/-- What a content is in the fields, the stores that write it, and which fields a reader copies to
which place. The stores leave nothing of the content that was there before. -/
structure Layout (Content Field Value Reader Place : Type*) [DecidableEq Field] where
  value : Content → Field → Value
  stores : Content → List (Field × Value)
  fields : Reader → List Field
  place : Reader → Place
  storeAll_stores : ∀ content old, storeAll (stores content) (value old) = value content

/-- A copy under way: its slot, the fields it has left, and which of the published contents was the
last one when it began. -/
structure Reading (Field : Type*) where
  slot : Bool
  left : List Field
  seen : ℕ

structure State (Content Field Value Reader Place : Type*) where
  slots : Bool → Field → Value
  current : Bool
  pending : Option (Content × List (Field × Value))
  reading : Reader → Option (Reading Field)
  copied : Place → Field → Value
  published : List Content

/-- The steps of the writer and of the readers. -/
inductive Label (Content Reader : Type*) where
  | update (content : Content)
  | store
  | publish
  | start (reader : Reader)
  | copy (reader : Reader)
  | finish (reader : Reader)

def step [DecidableEq Reader] [DecidableEq Place] (layout : Layout Content Field Value Reader Place)
    (state : State Content Field Value Reader Place) :
    Label Content Reader → Option (State Content Field Value Reader Place)
  | .update content =>
      match state.pending with
      | none => some { state with pending := some (content, layout.stores content) }
      | some _ => none
  | .store =>
      match state.pending with
      | some (content, (field, value) :: stores) =>
          let slot := Function.update (state.slots !state.current) field value
          some { state with
            slots := Function.update state.slots (!state.current) slot
            pending := some (content, stores) }
      | _ => none
  | .publish =>
      match state.pending with
      | some (content, []) =>
          some { state with
            current := !state.current
            pending := none
            published := state.published ++ [content] }
      | _ => none
  | .start reader =>
      match state.reading reader with
      | none =>
          let reading := ⟨state.current, layout.fields reader, state.published.length - 1⟩
          some { state with reading := Function.update state.reading reader (some reading) }
      | some _ => none
  | .copy reader =>
      match state.reading reader with
      | some ⟨slot, field :: left, seen⟩ =>
          let place := layout.place reader
          let copied := Function.update (state.copied place) field (state.slots slot field)
          some { state with
            reading := Function.update state.reading reader (some ⟨slot, left, seen⟩)
            copied := Function.update state.copied place copied }
      | _ => none
  | .finish reader =>
      match state.reading reader with
      | some ⟨_, [], _⟩ =>
          some { state with reading := Function.update state.reading reader none }
      | _ => none

/-- Nobody writes or reads, and both slots have the only content. -/
structure Initial (layout : Layout Content Field Value Reader Place)
    (state : State Content Field Value Reader Place) : Prop where
  pending : state.pending = none
  reading : ∀ reader, state.reading reader = none
  content : ∃ content, state.published = [content] ∧ ∀ slot, state.slots slot = layout.value content

/-- An update starts when no copy is under way from the slot that it will write, and a copy when
its place is free. -/
def Timely (layout : Layout Content Field Value Reader Place)
    (state : State Content Field Value Reader Place) : Label Content Reader → Prop
  | .update _ => ∀ reader reading, state.reading reader = some reading →
      reading.left ≠ [] → reading.slot = state.current
  | .start reader => ∀ other, layout.place other = layout.place reader →
      state.reading other = none
  | .store | .publish | .copy _ | .finish _ => True

/-! ## The invariant -/

/-- What a copy still has to read is in its slot, and what it has read is in its place. -/
structure Holds (layout : Layout Content Field Value Reader Place)
    (state : State Content Field Value Reader Place) (reader : Reader) (reading : Reading Field)
    (content : Content) : Prop where
  seen : state.published[reading.seen]? = some content
  ahead : ∀ field ∈ reading.left, state.slots reading.slot field = layout.value content field
  behind : ∀ field ∈ layout.fields reader, field ∉ reading.left →
    state.copied (layout.place reader) field = layout.value content field

structure Consistent (layout : Layout Content Field Value Reader Place)
    (state : State Content Field Value Reader Place) : Prop where
  current : ∃ content, state.published.getLast? = some content ∧
    state.slots state.current = layout.value content
  idle : state.pending = none → ∃ content, state.slots (!state.current) = layout.value content
  pending : ∀ content stores, state.pending = some (content, stores) →
    storeAll stores (state.slots !state.current) = layout.value content
  separate : state.pending ≠ none → ∀ reader reading, state.reading reader = some reading →
    reading.left ≠ [] → reading.slot = state.current
  alone : ∀ first second, state.reading first ≠ none → state.reading second ≠ none →
    layout.place first = layout.place second → first = second
  reading : ∀ reader reading, state.reading reader = some reading →
    ∃ content, Holds layout state reader reading content

theorem Initial.consistent {layout : Layout Content Field Value Reader Place}
    {state : State Content Field Value Reader Place} (h : Initial layout state) :
    Consistent layout state := by
  obtain ⟨content, hpublished, hslots⟩ := h.content
  have hnone : ∀ reader reading, state.reading reader ≠ some reading := by
    intro reader reading hreading
    rw [h.reading] at hreading
    cases hreading
  exact {
    current := ⟨content, by rw [hpublished]; rfl, hslots _⟩
    idle := fun _ ↦ ⟨content, hslots _⟩
    pending := by
      intro content stores hpending
      rw [h.pending] at hpending
      cases hpending
    separate := fun hpending ↦ absurd h.pending hpending
    alone := fun first _ hfirst ↦ absurd (h.reading first) hfirst
    reading := fun reader reading hreading ↦ absurd hreading (hnone reader reading) }

/-! ## Every timely step keeps it -/

section Step

variable [DecidableEq Reader] [DecidableEq Place] {layout : Layout Content Field Value Reader Place}
  {state next : State Content Field Value Reader Place} {content : Content} {reader : Reader}

theorem Consistent.update (h : Consistent layout state)
    (htimely : Timely layout state (.update content))
    (hstep : step layout state (.update content) = some next) : Consistent layout next := by
  simp only [step] at hstep
  split at hstep
  next hpending =>
    cases hstep
    obtain ⟨old, hold⟩ := h.idle hpending
    have hstores : storeAll (layout.stores content) (state.slots !state.current) =
        layout.value content := by
      rw [hold, layout.storeAll_stores]
    exact {
      current := h.current
      idle := fun hnone ↦ by cases hnone
      pending := by
        intro other stores hother
        cases hother
        exact hstores
      separate := fun _ ↦ htimely
      alone := h.alone
      reading := fun other reading hreading ↦ by
        obtain ⟨seen, hseen⟩ := h.reading other reading hreading
        exact ⟨seen, hseen.seen, hseen.ahead, hseen.behind⟩ }
  next => cases hstep

/-- A store goes to the slot that no copy is under way from. -/
theorem Consistent.store (h : Consistent layout state)
    (hstep : step layout state .store = some next) : Consistent layout next := by
  simp only [step] at hstep
  split at hstep
  next content field value stores hpending =>
    cases hstep
    have hcurrent : ∀ slot, Function.update state.slots (!state.current) slot state.current =
        state.slots state.current := by
      intro slot
      exact Function.update_of_ne (by cases state.current <;> decide) _ _
    have hpending' : state.pending ≠ none := by
      rw [hpending]
      intro hnone
      cases hnone
    exact {
      current := by
        obtain ⟨last, hlast, hslot⟩ := h.current
        exact ⟨last, hlast, (hcurrent _).trans hslot⟩
      idle := fun hnone ↦ by cases hnone
      pending := by
        intro other rest hrest
        cases hrest
        exact (congrArg _ (Function.update_self ..)).trans (h.pending _ _ hpending)
      separate := fun _ ↦ h.separate hpending'
      alone := h.alone
      reading := fun other reading hreading ↦ by
        obtain ⟨seen, hseen⟩ := h.reading other reading hreading
        refine ⟨seen, hseen.seen, fun field' hfield ↦ ?_, hseen.behind⟩
        have hslot := h.separate hpending' other reading hreading (List.ne_nil_of_mem hfield)
        have hahead := hseen.ahead field' hfield
        rw [hslot] at hahead ⊢
        exact (congrFun (hcurrent _) field').trans hahead }
  next => cases hstep

theorem Consistent.publish (h : Consistent layout state)
    (hstep : step layout state .publish = some next) : Consistent layout next := by
  simp only [step] at hstep
  split at hstep
  next content hpending =>
    cases hstep
    obtain ⟨last, hlast, hslot⟩ := h.current
    exact {
      current := ⟨content, List.getLast?_concat, h.pending _ _ hpending⟩
      idle := fun _ ↦ ⟨last, by rw [Bool.not_not, hslot]⟩
      pending := by
        intro other stores hother
        cases hother
      separate := fun hnone ↦ absurd rfl hnone
      alone := h.alone
      reading := fun other reading hreading ↦ by
        obtain ⟨seen, hseen⟩ := h.reading other reading hreading
        refine ⟨seen, ?_, hseen.ahead, hseen.behind⟩
        have hbound := (List.getElem?_eq_some_iff.mp hseen.seen).1
        rw [List.getElem?_append_left hbound]
        exact hseen.seen }
  next => cases hstep

/-- A copy begins in the slot of the content that was published last. -/
theorem Consistent.start (h : Consistent layout state)
    (htimely : Timely layout state (.start reader))
    (hstep : step layout state (.start reader) = some next) : Consistent layout next := by
  simp only [step] at hstep
  split at hstep
  next hnone =>
    cases hstep
    obtain ⟨last, hlast, hslot⟩ := h.current
    have hcases : ∀ other reading, Function.update state.reading reader
        (some ⟨state.current, layout.fields reader, state.published.length - 1⟩) other =
          some reading → other = reader ∧
            reading = ⟨state.current, layout.fields reader, state.published.length - 1⟩ ∨
          state.reading other = some reading := by
      intro other reading hreading
      rcases update_eq hreading with ⟨hsame, hnew⟩ | ⟨-, hold⟩
      · exact .inl ⟨hsame, (Option.some.inj hnew).symm⟩
      · exact .inr hold
    exact {
      current := ⟨last, hlast, hslot⟩
      idle := h.idle
      pending := h.pending
      separate := by
        intro hpending other reading hreading hleft
        rcases hcases other reading hreading with ⟨-, rfl⟩ | hold
        · rfl
        · exact h.separate hpending other reading hold hleft
      alone := by
        intro first second hfirst hsecond hplace
        obtain ⟨one, hone⟩ := Option.ne_none_iff_exists'.mp hfirst
        obtain ⟨two, htwo⟩ := Option.ne_none_iff_exists'.mp hsecond
        rcases hcases first one hone with ⟨rfl, -⟩ | hfirst'
        · rcases hcases second two htwo with ⟨rfl, -⟩ | hsecond'
          · rfl
          · rw [htimely second hplace.symm] at hsecond'
            cases hsecond'
        · rcases hcases second two htwo with ⟨rfl, -⟩ | hsecond'
          · rw [htimely first hplace] at hfirst'
            cases hfirst'
          · exact h.alone first second (by simp [hfirst']) (by simp [hsecond']) hplace
      reading := by
        intro other reading hreading
        rcases hcases other reading hreading with ⟨rfl, rfl⟩ | hold
        · refine ⟨last, ?_, fun field _ ↦ by rw [hslot], fun field hfield hnot ↦ absurd hfield hnot⟩
          rw [← List.getLast?_eq_getElem?]
          exact hlast
        · obtain ⟨seen, hseen⟩ := h.reading other reading hold
          exact ⟨seen, hseen.seen, hseen.ahead, hseen.behind⟩ }
  next => cases hstep

/-- One field goes to the place of its reader, which no other copy uses. -/
theorem Consistent.copy (h : Consistent layout state)
    (hstep : step layout state (.copy reader) = some next) : Consistent layout next := by
  simp only [step] at hstep
  split at hstep
  next slot field left seen hreader =>
    cases hstep
    have hcases : ∀ other reading,
        Function.update state.reading reader (some ⟨slot, left, seen⟩) other = some reading →
          other = reader ∧ reading = ⟨slot, left, seen⟩ ∨
            other ≠ reader ∧ state.reading other = some reading := by
      intro other reading hreading
      rcases update_eq hreading with ⟨hsame, hnew⟩ | hold
      · exact .inl ⟨hsame, (Option.some.inj hnew).symm⟩
      · exact .inr hold
    have hactive : ∀ other,
        Function.update state.reading reader (some ⟨slot, left, seen⟩) other ≠ none →
          state.reading other ≠ none := by
      intro other hother
      obtain ⟨reading, hreading⟩ := Option.ne_none_iff_exists'.mp hother
      rcases hcases other reading hreading with ⟨rfl, -⟩ | ⟨-, hold⟩
      · simp [hreader]
      · simp [hold]
    exact {
      current := h.current
      idle := h.idle
      pending := h.pending
      separate := by
        intro hpending other reading hreading hleft
        rcases hcases other reading hreading with ⟨rfl, rfl⟩ | ⟨-, hold⟩
        · have hslot := h.separate hpending _ _ hreader (List.cons_ne_nil _ _)
          exact hslot
        · exact h.separate hpending other reading hold hleft
      alone := fun first second hfirst hsecond ↦
        h.alone first second (hactive first hfirst) (hactive second hsecond)
      reading := by
        intro other reading hreading
        rcases hcases other reading hreading with ⟨rfl, rfl⟩ | ⟨hne, hold⟩
        · obtain ⟨content, hcontent⟩ := h.reading _ _ hreader
          refine ⟨content, hcontent.seen, fun f hf ↦ ?_, fun f hf hnot ↦ ?_⟩
          · exact hcontent.ahead f (List.mem_cons_of_mem _ hf)
          · change Function.update state.copied _ _ _ f = _
            rw [Function.update_self]
            by_cases hfield : f = field
            · rw [hfield, Function.update_self]
              exact hcontent.ahead field List.mem_cons_self
            · rw [Function.update_of_ne hfield]
              exact hcontent.behind f hf (by simp [hfield, hnot])
        · obtain ⟨content, hcontent⟩ := h.reading other reading hold
          refine ⟨content, hcontent.seen, hcontent.ahead, fun f hf hnot ↦ ?_⟩
          have hplace : layout.place other ≠ layout.place reader := fun hplace ↦
            hne (h.alone other reader (by simp [hold]) (by simp [hreader]) hplace)
          exact (congrFun (Function.update_of_ne hplace _ _) f).trans (hcontent.behind f hf hnot) }
  next => cases hstep

theorem Consistent.finish (h : Consistent layout state)
    (hstep : step layout state (.finish reader) = some next) : Consistent layout next := by
  simp only [step] at hstep
  split at hstep
  next slot seen hreader =>
    cases hstep
    have hold : ∀ other reading, Function.update state.reading reader none other = some reading →
        state.reading other = some reading := by
      intro other reading hreading
      rcases update_eq hreading with ⟨-, hnew⟩ | ⟨-, hold⟩
      · cases hnew
      · exact hold
    have hactive : ∀ other, Function.update state.reading reader none other ≠ none →
        state.reading other ≠ none := by
      intro other hother
      obtain ⟨reading, hreading⟩ := Option.ne_none_iff_exists'.mp hother
      rw [hold other reading hreading]
      exact Option.some_ne_none _
    exact {
      current := h.current
      idle := h.idle
      pending := h.pending
      separate := fun hpending other reading hreading ↦
        h.separate hpending other reading (hold other reading hreading)
      alone := fun first second hfirst hsecond ↦
        h.alone first second (hactive first hfirst) (hactive second hsecond)
      reading := fun other reading hreading ↦ by
        obtain ⟨content, hcontent⟩ := h.reading other reading (hold other reading hreading)
        exact ⟨content, hcontent.seen, hcontent.ahead, hcontent.behind⟩ }
  next => cases hstep

/-- Every timely step keeps the invariant. -/
theorem Consistent.step {label : Label Content Reader} (h : Consistent layout state)
    (htimely : Timely layout state label) (hstep : step layout state label = some next) :
    Consistent layout next := by
  cases label with
  | update content => exact h.update htimely hstep
  | store => exact h.store hstep
  | publish => exact h.publish hstep
  | start reader => exact h.start htimely hstep
  | copy reader => exact h.copy hstep
  | finish reader => exact h.finish hstep
/-! ## What a copy saw -/

theorem published_step {label : Label Content Reader}
    (hstep : step layout state label = some next) : state.published <+: next.published := by
  cases label with
  | publish =>
    simp only [step] at hstep
    split at hstep
    · cases hstep
      exact List.prefix_append _ _
    · cases hstep
  | _ =>
    simp only [step] at hstep
    split at hstep
    all_goals
      cases hstep
      try exact List.prefix_refl _

/-- A copy that goes on has seen what it had seen. -/
theorem seen_step {label : Label Content Reader} {reading : Reading Field}
    (hstep : step layout state label = some next) (hlabel : label ≠ .start reader)
    (hreading : next.reading reader = some reading) :
    ∃ before, state.reading reader = some before ∧ before.seen = reading.seen := by
  cases label with
  | start other =>
    simp only [step] at hstep
    split at hstep
    · cases hstep
      have hother : reader ≠ other := fun hsame ↦ hlabel (by rw [hsame])
      exact ⟨reading, (Function.update_of_ne hother _ _).symm.trans hreading, rfl⟩
    · cases hstep
  | copy other =>
    simp only [step] at hstep
    split at hstep
    next hother =>
      cases hstep
      rcases update_eq hreading with ⟨rfl, hnew⟩ | ⟨-, hold⟩
      · cases hnew
        exact ⟨_, hother, rfl⟩
      · exact ⟨reading, hold, rfl⟩
    next => cases hstep
  | finish other =>
    simp only [step] at hstep
    split at hstep
    · cases hstep
      rcases update_eq hreading with ⟨-, hnew⟩ | ⟨-, hold⟩
      · cases hnew
      · exact ⟨reading, hold, rfl⟩
    · cases hstep
  | _ =>
    simp only [step] at hstep
    split at hstep
    all_goals
      cases hstep
      try exact ⟨reading, hreading, rfl⟩

/-- The content that a copy begins with is the one that was published last. -/
theorem seen_start (hstep : step layout state (.start reader) = some next) :
    next.published = state.published ∧ ∀ reading, next.reading reader = some reading →
      reading.seen = state.published.length - 1 := by
  simp only [step] at hstep
  split at hstep
  · cases hstep
    refine ⟨rfl, fun reading hreading ↦ ?_⟩
    have hself := (Function.update_self ..).symm.trans hreading
    cases hself
    rfl
  · cases hstep

end Step

/-- A copy that has nothing left is one published content. -/
theorem Consistent.copied {layout : Layout Content Field Value Reader Place}
    {state : State Content Field Value Reader Place} (h : Consistent layout state)
    {reader : Reader} {reading : Reading Field} (hreading : state.reading reader = some reading)
    (hleft : reading.left = []) :
    ∃ content, state.published[reading.seen]? = some content ∧
      ∀ field ∈ layout.fields reader,
        state.copied (layout.place reader) field = layout.value content field := by
  obtain ⟨content, hcontent⟩ := h.reading reader reading hreading
  refine ⟨content, hcontent.seen, fun field hfield ↦ hcontent.behind field hfield ?_⟩
  rw [hleft]
  exact List.not_mem_nil

end BroadcomWl.Systems.DoubleBuffer
