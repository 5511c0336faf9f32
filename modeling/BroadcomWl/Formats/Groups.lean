import Mathlib.Algebra.Order.BigOperators.Group.List
import Mathlib.Algebra.Order.Group.Nat
import Mathlib.Algebra.Ring.Nat
import Mathlib.Data.Bool.Basic
import Mathlib.Data.List.Basic
import Mathlib.Order.Monotone.Basic
import Mathlib.Tactic.Common

/-!
# Streams of groups

A stream is a sequence of items in which an opening item begins a group and every other item
belongs to the group that was opened last. Some of it may be junk that no reader understands.

A stream is written in segments. A segment may have lost its opening item, or items of its body, or
have junk in place of one. The reader gets back the segments that were not lost as a whole exactly
when none of the others has lost its opening item, and there is no junk.
-/

namespace BroadcomWl.Formats

variable {Key Ev : Type*}

inductive Item (Key Ev : Type*) where
  | opening (key : Key)
  | inner (event : Ev)
  | junk

def writeGroup (group : Key × List Ev) : List (Item Key Ev) :=
  .opening group.1 :: group.2.map .inner

def writeGroups (groups : List (Key × List Ev)) : List (Item Key Ev) := groups.flatMap writeGroup

/-- The events before the first opening item, and the groups. -/
def readItems : List (Item Key Ev) → Option (List Ev × List (Key × List Ev))
  | [] => some ([], [])
  | .junk :: _ => none
  | .inner event :: items => (readItems items).map fun (events, groups) ↦ (event :: events, groups)
  | .opening key :: items =>
      (readItems items).map fun (events, groups) ↦ ([], (key, events) :: groups)

/-- The groups of a stream that begins with one. -/
def readGroups (items : List (Item Key Ev)) : Option (List (Key × List Ev)) :=
  match readItems items with
  | some ([], groups) => some groups
  | _ => none

theorem readItems_write (events : List Ev) (groups : List (Key × List Ev)) :
    readItems (events.map .inner ++ writeGroups groups) = some (events, groups) := by
  induction groups generalizing events with
  | nil =>
    induction events with
    | nil => rfl
    | cons event events ih =>
      rw [List.map_cons, List.cons_append, readItems, ih]
      rfl
  | cons group groups ihGroups =>
    induction events with
    | nil =>
      change readItems (writeGroup group ++ writeGroups groups) = _
      rw [writeGroup, List.cons_append, readItems, ihGroups]
      rfl
    | cons event events ih =>
      rw [List.map_cons, List.cons_append, readItems, ih]
      rfl

theorem eq_write_of_readItems {items : List (Item Key Ev)} {events : List Ev}
    {groups : List (Key × List Ev)} (h : readItems items = some (events, groups)) :
    items = events.map .inner ++ writeGroups groups := by
  induction items generalizing events groups with
  | nil =>
    cases h
    rfl
  | cons item items ih =>
    cases item with
    | junk => cases h
    | inner event =>
      obtain ⟨⟨events', groups'⟩, hread, heq⟩ := Option.map_eq_some_iff.mp h
      cases heq
      rw [ih hread]
      rfl
    | opening key =>
      obtain ⟨⟨events', groups'⟩, hread, heq⟩ := Option.map_eq_some_iff.mp h
      cases heq
      rw [ih hread]
      rfl

/-- A stream is read as some groups exactly when it was written from them. -/
theorem readGroups_eq_some_iff {items : List (Item Key Ev)} {groups : List (Key × List Ev)} :
    readGroups items = some groups ↔ items = writeGroups groups := by
  constructor
  · intro h
    unfold readGroups at h
    split at h
    next groups' hread =>
      cases h
      exact eq_write_of_readItems hread
    next => cases h
  · rintro rfl
    have hread := readItems_write [] groups
    rw [List.map_nil, List.nil_append] at hread
    unfold readGroups
    rw [hread]

/-! ## Segments -/

/-- What was written for a group; `none` stands for junk. -/
structure Segment (Key Ev : Type*) where
  key : Key
  opened : Bool
  body : List (Option Ev)

namespace Segment

def item : Option Ev → Item Key Ev
  | some event => .inner event
  | none => .junk

def items (segment : Segment Key Ev) : List (Item Key Ev) :=
  (if segment.opened then [.opening segment.key] else []) ++ segment.body.map item

/-- Something was written. -/
def nonempty (segment : Segment Key Ev) : Bool := segment.opened || !segment.body.isEmpty

/-- The group that a reader should find. -/
def group (segment : Segment Key Ev) : Key × List Ev := (segment.key, segment.body.filterMap id)

/-- There is no junk, and events only behind an opening item. -/
structure Sound (segment : Segment Key Ev) : Prop where
  junk : none ∉ segment.body
  opened : segment.body ≠ [] → segment.opened = true

end Segment

def Item.isOpening : Item Key Ev → Bool
  | .opening _ => true
  | _ => false

def Item.isJunk : Item Key Ev → Bool
  | .junk => true
  | _ => false

theorem countP_isOpening_writeGroups (groups : List (Key × List Ev)) :
    (writeGroups groups).countP Item.isOpening = groups.length := by
  induction groups with
  | nil => rfl
  | cons group groups ih =>
    have hinner : (group.2.map (@Item.inner Key Ev)).countP Item.isOpening = 0 := by
      simp [List.countP_eq_zero, Item.isOpening]
    rw [writeGroups, List.flatMap_cons, List.countP_append, ← writeGroups, ih, writeGroup,
      List.countP_cons_of_pos rfl, hinner, List.length_cons]
    omega

theorem countP_isJunk_writeGroups (groups : List (Key × List Ev)) :
    (writeGroups groups).countP Item.isJunk = 0 := by
  rw [List.countP_eq_zero]
  intro item hitem
  obtain ⟨group, -, hgroup⟩ := List.mem_flatMap.mp hitem
  rcases List.mem_cons.mp hgroup with rfl | hinner
  · exact Bool.false_ne_true
  · obtain ⟨event, -, rfl⟩ := List.mem_map.mp hinner
    exact Bool.false_ne_true

theorem Segment.countP_isOpening (segment : Segment Key Ev) :
    segment.items.countP Item.isOpening = segment.opened.toNat := by
  have hbody : (segment.body.map (@Segment.item Key Ev)).countP Item.isOpening = 0 := by
    rw [List.countP_eq_zero]
    intro item hitem
    obtain ⟨event, -, rfl⟩ := List.mem_map.mp hitem
    cases event <;> exact Bool.false_ne_true
  rw [Segment.items, List.countP_append, hbody]
  cases segment.opened <;> rfl

theorem map_item_eq {body : List (Option Ev)} (h : none ∉ body) :
    body.map (@Segment.item Key Ev) = (body.filterMap id).map .inner := by
  induction body with
  | nil => rfl
  | cons event body ih =>
    obtain ⟨hevent, hbody⟩ := not_or.mp (mt List.mem_cons.mpr h)
    cases event with
    | none => exact absurd rfl hevent
    | some event =>
      rw [List.map_cons, ih hbody]
      rfl

theorem Segment.Sound.items_eq {segment : Segment Key Ev} (h : segment.Sound) :
    segment.items = if segment.nonempty then writeGroup segment.group else [] := by
  unfold Segment.items Segment.nonempty writeGroup Segment.group
  rw [map_item_eq h.junk]
  cases hopened : segment.opened with
  | true => rfl
  | false =>
    have hempty : segment.body = [] := by
      by_contra hbody
      exact absurd (hopened.symm.trans (h.opened hbody)) Bool.false_ne_true
    rw [hempty]
    rfl

/-- Two counts of which one is part of the other are equal only if the conditions agree. -/
theorem imp_of_countP_eq {α : Type*} {p q : α → Bool} {xs : List α}
    (hpq : ∀ x ∈ xs, p x = true → q x = true) (h : xs.countP p = xs.countP q) :
    ∀ x ∈ xs, q x = true → p x = true := by
  induction xs with
  | nil => exact fun x hx ↦ absurd hx List.not_mem_nil
  | cons y ys ih =>
    rw [List.forall_mem_cons] at hpq ⊢
    have hle : ys.countP p ≤ ys.countP q := List.countP_mono_left hpq.2
    rw [List.countP_cons, List.countP_cons] at h
    cases hp : p y with
    | true =>
      rw [hp, hpq.1 hp] at h
      exact ⟨fun _ ↦ rfl, ih hpq.2 (Nat.add_right_cancel h)⟩
    | false =>
      cases hq : q y with
      | true =>
        rw [hp, hq, if_neg Bool.false_ne_true, if_pos rfl] at h
        omega
      | false =>
        rw [hp, hq] at h
        exact ⟨fun hfalse ↦ absurd hfalse Bool.false_ne_true, ih hpq.2 h⟩

theorem countP_isOpening_segments (segments : List (Segment Key Ev)) :
    (segments.flatMap Segment.items).countP Item.isOpening = segments.countP Segment.opened := by
  induction segments with
  | nil => rfl
  | cons segment segments ih =>
    rw [List.flatMap_cons, List.countP_append, ih, segment.countP_isOpening, List.countP_cons,
      Nat.add_comm]
    cases segment.opened <;> rfl

/-- The reader gets back every segment of which something was written exactly when each of them was
opened and there is no junk. -/
theorem readGroups_segments_iff (segments : List (Segment Key Ev)) :
    readGroups (segments.flatMap Segment.items) =
        some ((segments.filter Segment.nonempty).map Segment.group) ↔
      ∀ segment ∈ segments, segment.Sound := by
  rw [readGroups_eq_some_iff]
  constructor
  · intro hwritten
    have hjunk : (segments.flatMap Segment.items).countP Item.isJunk = 0 := by
      rw [hwritten, countP_isJunk_writeGroups]
    have hopenings : segments.countP Segment.opened = segments.countP Segment.nonempty := by
      rw [← countP_isOpening_segments, hwritten, countP_isOpening_writeGroups, List.length_map,
        List.countP_eq_length_filter]
    have hopened := imp_of_countP_eq
      (fun segment _ hopened ↦ Bool.or_eq_true_iff.mpr (.inl hopened)) hopenings
    refine fun segment hsegment ↦ ⟨fun hnone ↦ ?_, fun hbody ↦ ?_⟩
    · refine List.countP_eq_zero.mp hjunk .junk (List.mem_flatMap.mpr ⟨segment, hsegment, ?_⟩) rfl
      exact List.mem_append_right _ (List.mem_map.mpr ⟨none, hnone, rfl⟩)
    · refine hopened segment hsegment (Bool.or_eq_true_iff.mpr (.inr ?_))
      rw [Bool.not_eq_true', List.isEmpty_eq_false_iff]
      exact hbody
  · intro hsound
    induction segments with
    | nil => rfl
    | cons segment segments ih =>
      rw [List.forall_mem_cons] at hsound
      rw [List.flatMap_cons, hsound.1.items_eq, ih hsound.2]
      cases hnonempty : segment.nonempty with
      | true =>
        rw [List.filter_cons_of_pos hnonempty]
        rfl
      | false =>
        rw [List.filter_cons_of_neg (by simp [hnonempty])]
        rfl

/-! ## Appending what fits -/

section Append

variable {α : Type*} {fits : ℕ → Bool} {len : α → ℕ}

/-- Append those that fit, one after the other from a position on; the position behind them. -/
def appendFitting (fits : ℕ → Bool) (len : α → ℕ) : List α → ℕ → ℕ × List α
  | [], start => (start, [])
  | x :: xs, start =>
      if fits (start + len x) then
        let (stop, rest) := appendFitting fits len xs (start + len x)
        (stop, x :: rest)
      else appendFitting fits len xs start

theorem appendFitting_cons_of_fits {x : α} {start : ℕ} (h : fits (start + len x) = true)
    (xs : List α) :
    appendFitting fits len (x :: xs) start =
      ((appendFitting fits len xs (start + len x)).1,
        x :: (appendFitting fits len xs (start + len x)).2) := by
  rw [appendFitting, if_pos h]

theorem appendFitting_cons_of_not_fits {x : α} {start : ℕ} (h : ¬fits (start + len x) = true)
    (xs : List α) : appendFitting fits len (x :: xs) start = appendFitting fits len xs start := by
  rw [appendFitting, if_neg h]

theorem appendFitting_fst (xs : List α) (start : ℕ) :
    (appendFitting fits len xs start).1 =
      start + ((appendFitting fits len xs start).2.map len).sum := by
  induction xs generalizing start with
  | nil => rfl
  | cons x xs ih =>
    by_cases hfits : fits (start + len x) = true
    · rw [appendFitting_cons_of_fits hfits, ih, List.map_cons, List.sum_cons, Nat.add_assoc]
    · rw [appendFitting_cons_of_not_fits hfits, ih]

theorem appendFitting_sublist (xs : List α) (start : ℕ) :
    (appendFitting fits len xs start).2.Sublist xs := by
  induction xs generalizing start with
  | nil => exact List.Sublist.refl []
  | cons x xs ih =>
    by_cases hfits : fits (start + len x) = true
    · rw [appendFitting_cons_of_fits hfits]
      exact (ih _).cons_cons x
    · rw [appendFitting_cons_of_not_fits hfits]
      exact (ih start).cons x

theorem appendFitting_append (xs ys : List α) (start : ℕ) :
    appendFitting fits len (xs ++ ys) start =
      ((appendFitting fits len ys (appendFitting fits len xs start).1).1,
        (appendFitting fits len xs start).2 ++
          (appendFitting fits len ys (appendFitting fits len xs start).1).2) := by
  induction xs generalizing start with
  | nil => rfl
  | cons x xs ih =>
    rw [List.cons_append]
    by_cases hfits : fits (start + len x) = true
    · rw [appendFitting_cons_of_fits hfits, ih, appendFitting_cons_of_fits hfits]
      rfl
    · rw [appendFitting_cons_of_not_fits hfits, ih, appendFitting_cons_of_not_fits hfits]

theorem appendFitting_fst_le (xs : List α) (start : ℕ) :
    (appendFitting fits len xs start).1 ≤ start + (xs.map len).sum := by
  rw [appendFitting_fst]
  refine Nat.add_le_add_left ?_ start
  exact ((appendFitting_sublist xs start).map len).sum_le_sum fun _ _ ↦ Nat.zero_le _

/-- What the length does not depend on may be forgotten before or after. -/
theorem appendFitting_map {β : Type*} {len : β → ℕ} (f : α → β) (xs : List α) (start : ℕ) :
    appendFitting fits len (xs.map f) start =
      ((appendFitting fits (len ∘ f) xs start).1,
        (appendFitting fits (len ∘ f) xs start).2.map f) := by
  induction xs generalizing start with
  | nil => rfl
  | cons x xs ih =>
    rw [List.map_cons]
    by_cases hfits : fits (start + (len ∘ f) x) = true
    · rw [@appendFitting_cons_of_fits _ _ len _ _ hfits, ih, appendFitting_cons_of_fits hfits]
      rfl
    · rw [@appendFitting_cons_of_not_fits _ _ len _ _ hfits, ih,
        appendFitting_cons_of_not_fits hfits]

theorem fits_of_mem_appendFitting (hfits : Antitone fits) {x : α} {xs : List α} {start : ℕ}
    (h : x ∈ (appendFitting fits len xs start).2) : fits (start + len x) = true := by
  induction xs generalizing start with
  | nil => exact absurd h List.not_mem_nil
  | cons y ys ih =>
    by_cases hy : fits (start + len y) = true
    · rw [appendFitting_cons_of_fits hy] at h
      rcases List.mem_cons.mp h with rfl | h
      · exact hy
      · have hlater := ih h
        exact Bool.eq_true_of_true_le (hlater ▸ hfits (by omega))
    · rw [appendFitting_cons_of_not_fits hy] at h
      exact ih h

/-- Nothing is appended exactly when none fits in the first place. -/
theorem appendFitting_eq_nil_iff (xs : List α) (start : ℕ) :
    (appendFitting fits len xs start).2 = [] ↔ ∀ x ∈ xs, ¬fits (start + len x) = true := by
  induction xs with
  | nil => exact iff_of_true rfl (List.forall_mem_nil _)
  | cons x xs ih =>
    rw [List.forall_mem_cons]
    by_cases hfits : fits (start + len x) = true
    · rw [appendFitting_cons_of_fits hfits]
      exact iff_of_false (List.cons_ne_nil _ _) fun h ↦ h.1 hfits
    · rw [appendFitting_cons_of_not_fits hfits, ih, and_iff_right hfits]

/-- All are appended if the last one fits behind the others. -/
theorem appendFitting_of_fits (hfits : Antitone fits) {xs : List α} {start : ℕ}
    (h : fits (start + (xs.map len).sum) = true) :
    appendFitting fits len xs start = (start + (xs.map len).sum, xs) := by
  induction xs generalizing start with
  | nil => rfl
  | cons x xs ih =>
    rw [List.map_cons, List.sum_cons, ← Nat.add_assoc] at h ⊢
    have hx : fits (start + len x) = true :=
      Bool.eq_true_of_true_le (h ▸ hfits (Nat.le_add_right _ _))
    rw [appendFitting_cons_of_fits hx, ih h]

/-- Otherwise one is left out, and the others do not reach as far. -/
theorem appendFitting_fst_lt (hlen : ∀ x, 0 < len x) {xs : List α} (hne : xs ≠ []) {start : ℕ}
    (h : ¬fits (start + (xs.map len).sum) = true) :
    (appendFitting fits len xs start).1 < start + (xs.map len).sum := by
  induction xs generalizing start with
  | nil => exact absurd rfl hne
  | cons x xs ih =>
    rw [List.map_cons, List.sum_cons, ← Nat.add_assoc] at h ⊢
    by_cases hx : fits (start + len x) = true
    · rw [appendFitting_cons_of_fits hx]
      refine ih (fun hnil ↦ h ?_) h
      rw [hnil]
      exact hx
    · rw [appendFitting_cons_of_not_fits hx]
      have hle := @appendFitting_fst_le α fits len xs start
      have hpos := hlen x
      omega

end Append

end BroadcomWl.Formats
