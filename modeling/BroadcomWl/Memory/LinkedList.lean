import Mathlib.Data.Finset.Basic
import Mathlib.Data.Finset.Dedup
import Mathlib.Data.List.Nodup
import Mathlib.Logic.Function.Basic

/-!
# Singly linked lists in a pointer map

A heap of link fields is a map from nodes to optional successors. A segment lists
the nodes met when the links are followed from one pointer to another; a linked
list is a segment that ends at the null pointer. Writing a link outside a segment
leaves the segment alone, and a node is appended by one write to the link of the
last node.

Another section follows the links with fuel, as loops do: to the last node of a list, to
append behind it, and to the predecessor of a node, to take that node out. On a list without
repetition as much fuel as it has nodes is enough.
-/

namespace BroadcomWl.Memory

variable {Node : Type*}

/-- Following the links from `head` meets exactly `nodes`, in order, and stops at `stop`. -/
def Segment (next : Node → Option Node) : Option Node → List Node → Option Node → Prop
  | head, [], stop => head = stop
  | head, node :: nodes, stop => head = some node ∧ Segment next (next node) nodes stop

/-- A null-terminated list. -/
abbrev Linked (next : Node → Option Node) (head : Option Node) (nodes : List Node) : Prop :=
  Segment next head nodes none

variable {next : Node → Option Node} {head stop : Option Node}

@[simp]
theorem segment_nil : Segment next head [] stop ↔ head = stop := Iff.rfl

@[simp]
theorem segment_cons {node : Node} {nodes : List Node} :
    Segment next head (node :: nodes) stop ↔
      head = some node ∧ Segment next (next node) nodes stop := Iff.rfl

theorem segment_append {first second : List Node} :
    Segment next head (first ++ second) stop ↔
      ∃ middle, Segment next head first middle ∧ Segment next middle second stop := by
  induction first generalizing head with
  | nil => simp
  | cons node nodes ih =>
    simp only [List.cons_append, segment_cons, ih]
    constructor
    · rintro ⟨hhead, middle, hfirst, hsecond⟩
      exact ⟨middle, ⟨hhead, hfirst⟩, hsecond⟩
    · rintro ⟨middle, ⟨hhead, hfirst⟩, hsecond⟩
      exact ⟨hhead, middle, hfirst, hsecond⟩

theorem segment_concat {nodes : List Node} {last : Node} :
    Segment next head (nodes ++ [last]) stop ↔
      Segment next head nodes (some last) ∧ next last = stop := by
  rw [segment_append]
  constructor
  · rintro ⟨middle, hnodes, rfl, hstop⟩
    exact ⟨hnodes, hstop⟩
  · rintro ⟨hnodes, hstop⟩
    exact ⟨some last, hnodes, rfl, hstop⟩

/-- The nodes of a null-terminated list are determined by its head. -/
theorem Linked.unique {nodes others : List Node} (h : Linked next head nodes)
    (hother : Linked next head others) : nodes = others := by
  induction nodes generalizing head others with
  | nil =>
    cases others with
    | nil => rfl
    | cons other others =>
      obtain ⟨hsome, _⟩ := segment_cons.mp hother
      exact absurd ((segment_nil.mp h).symm.trans hsome) (by simp)
  | cons node nodes ih =>
    obtain ⟨hsome, hrest⟩ := segment_cons.mp h
    cases others with
    | nil => exact absurd (hsome.symm.trans (segment_nil.mp hother)) (by simp)
    | cons other others =>
      obtain ⟨hsome', hrest'⟩ := segment_cons.mp hother
      obtain rfl : node = other := Option.some.inj (hsome.symm.trans hsome')
      rw [ih hrest hrest']

section Update

variable [DecidableEq Node]

/-- A link written outside a segment does not change the segment. -/
theorem segment_update_of_notMem {nodes : List Node} {written : Node} (value : Option Node)
    (h : written ∉ nodes) :
    Segment (Function.update next written value) head nodes stop ↔
      Segment next head nodes stop := by
  induction nodes generalizing head with
  | nil => exact Iff.rfl
  | cons node nodes ih =>
    rw [List.mem_cons, not_or] at h
    rw [segment_cons, segment_cons, Function.update_of_ne (Ne.symm h.1), ih h.2]

/-- One write to the link of the last node moves the end of a segment. -/
theorem Segment.redirect {nodes : List Node} {last : Node} (target : Option Node)
    (hnodup : (nodes ++ [last]).Nodup) (h : Segment next head (nodes ++ [last]) stop) :
    Segment (Function.update next last target) head (nodes ++ [last]) target := by
  have hlast : last ∉ nodes := fun hmem ↦
    (List.nodup_append.mp hnodup).2.2 last hmem last (List.mem_singleton_self last) rfl
  rw [segment_concat] at h ⊢
  exact ⟨(segment_update_of_notMem target hlast).mpr h.1, Function.update_self ..⟩

/-- Appending a node with a null link behind the last node of a list. -/
theorem Linked.append {nodes : List Node} {last node : Node}
    (hnodup : (nodes ++ [last]).Nodup) (hnode : node ∉ nodes ++ [last])
    (h : Linked next head (nodes ++ [last])) :
    Linked (Function.update (Function.update next node none) last (some node)) head
      (nodes ++ [last] ++ [node]) := by
  have hne : node ≠ last := fun heq ↦ hnode (by simp [heq])
  have hclear : Segment (Function.update next node none) head (nodes ++ [last]) none :=
    (segment_update_of_notMem none hnode).mpr h
  rw [Linked, segment_concat]
  refine ⟨hclear.redirect (some node) hnodup, ?_⟩
  rw [Function.update_of_ne hne, Function.update_self]

/-- Taking out the node behind another one. -/
theorem Linked.unlink {before after : List Node} {node target : Node}
    (hnodup : (before ++ node :: target :: after).Nodup)
    (h : Linked next head (before ++ node :: target :: after)) :
    Linked (Function.update next node (next target)) head (before ++ node :: after) := by
  obtain ⟨middle, hbefore, hnode⟩ := segment_append.mp h
  obtain ⟨hmiddle, htarget⟩ := segment_cons.mp hnode
  obtain ⟨hlink, hafter⟩ := segment_cons.mp htarget
  have hsplit := List.nodup_append.mp hnodup
  have hnotBefore : node ∉ before := fun hmem ↦
    hsplit.2.2 node hmem node List.mem_cons_self rfl
  have hnotAfter : node ∉ after := fun hmem ↦
    (List.nodup_cons.mp hsplit.2.1).1 (List.mem_cons_of_mem _ hmem)
  refine segment_append.mpr ⟨middle, (segment_update_of_notMem _ hnotBefore).mpr hbefore, ?_⟩
  refine segment_cons.mpr ⟨hmiddle, ?_⟩
  rw [Function.update_self]
  exact (segment_update_of_notMem _ hnotAfter).mpr hafter

end Update

/-! ## Loops along a list -/

/-- `while (p->next) p = p->next;`, with the node it ends at. -/
def lastFrom (next : Node → Option Node) : ℕ → Node → Option Node
  | 0, _ => none
  | fuel + 1, node =>
      match next node with
      | none => some node
      | some following => lastFrom next fuel following

theorem Linked.lastFrom_eq {nodes : List Node} {node last : Node} {fuel : ℕ}
    (h : Linked next (some node) (nodes ++ [last])) (hfuel : nodes.length < fuel) :
    lastFrom next fuel node = some last := by
  induction nodes generalizing node fuel with
  | nil =>
    obtain ⟨hnode, hnone⟩ := segment_cons.mp h
    obtain ⟨fuel, rfl⟩ := Nat.exists_eq_succ_of_ne_zero (Nat.ne_of_gt hfuel)
    obtain rfl : node = last := Option.some.inj hnode
    rw [lastFrom, segment_nil.mp hnone]
  | cons first nodes ih =>
    obtain ⟨hnode, hrest⟩ := segment_cons.mp h
    obtain ⟨fuel, rfl⟩ := Nat.exists_eq_succ_of_ne_zero (Nat.ne_of_gt (Nat.zero_lt_of_lt hfuel))
    obtain rfl : node = first := Option.some.inj hnode
    cases hfollowing : next node with
    | none =>
      rw [hfollowing] at hrest
      cases nodes <;> cases hrest.1
    | some following =>
      rw [hfollowing] at hrest
      rw [lastFrom, hfollowing]
      exact ih hrest (Nat.lt_of_succ_lt_succ hfuel)

section Loops

variable [DecidableEq Node]

/-- `while (p && p->next != target) p = p->next;`, with the pointer it ends at. -/
def predecessor (next : Node → Option Node) (target : Node) :
    ℕ → Option Node → Option (Option Node)
  | 0, _ => none
  | _ + 1, none => some none
  | fuel + 1, some node =>
      if next node = some target then some (some node)
      else predecessor next target fuel (next node)

theorem Linked.predecessor_eq {before after : List Node} {node target : Node} {fuel : ℕ}
    (hnodup : (before ++ node :: target :: after).Nodup)
    (h : Linked next head (before ++ node :: target :: after)) (hfuel : before.length < fuel) :
    predecessor next target fuel head = some (some node) := by
  induction before generalizing head fuel with
  | nil =>
    obtain ⟨rfl, hrest⟩ := segment_cons.mp h
    obtain ⟨fuel, rfl⟩ := Nat.exists_eq_succ_of_ne_zero (Nat.ne_of_gt hfuel)
    rw [predecessor, if_pos (segment_cons.mp hrest).1]
  | cons first before ih =>
    obtain ⟨rfl, hrest⟩ := segment_cons.mp h
    obtain ⟨fuel, rfl⟩ := Nat.exists_eq_succ_of_ne_zero (Nat.ne_of_gt (Nat.zero_lt_of_lt hfuel))
    have htail : (before ++ node :: target :: after).Nodup := (List.nodup_cons.mp hnodup).2
    -- The second node is not the target, which comes behind `node`.
    have hne : next first ≠ some target := by
      intro heq
      cases before with
      | nil =>
        have hnode : node = target := Option.some.inj ((segment_cons.mp hrest).1.symm.trans heq)
        exact (List.nodup_cons.mp htail).1 (hnode ▸ List.mem_cons_self)
      | cons second before =>
        have hsecond : second = target :=
          Option.some.inj ((segment_cons.mp hrest).1.symm.trans heq)
        exact (List.nodup_cons.mp htail).1 (hsecond ▸ by simp)
    rw [predecessor, if_neg hne]
    exact ih htail hrest (Nat.lt_of_succ_lt_succ hfuel)

/-- A list without its first node. -/
theorem Linked.erase_head {nodes : List Node} {node : Node} (h : Linked next (some node) nodes) :
    Linked next (next node) (nodes.erase node) := by
  cases nodes with
  | nil => cases segment_nil.mp h
  | cons first nodes =>
    obtain ⟨hfirst, hrest⟩ := segment_cons.mp h
    obtain rfl : node = first := Option.some.inj hfirst
    rwa [List.erase_cons_head]

/-- A node behind the head has a predecessor, and is taken out by one write to its link. -/
theorem Linked.erase_behind {nodes : List Node} {node : Node} {fuel : ℕ}
    (h : Linked next head nodes) (hnodup : nodes.Nodup) (hmem : node ∈ nodes)
    (hhead : head ≠ some node) (hfuel : nodes.length ≤ fuel) :
    ∃ before, predecessor next node fuel head = some (some before) ∧ next before = some node ∧
      Linked (Function.update next before (next node)) head (nodes.erase node) := by
  obtain ⟨before, after, rfl⟩ := List.append_of_mem hmem
  have hnotBefore : node ∉ before := fun hbefore ↦
    (List.nodup_append.mp hnodup).2.2 node hbefore node List.mem_cons_self rfl
  rcases List.eq_nil_or_concat before with rfl | ⟨before, previous, rfl⟩
  · exact absurd (segment_cons.mp h).1 hhead
  · rw [List.erase_append_right _ hnotBefore, List.erase_cons_head]
    rw [List.concat_eq_append, List.append_assoc, List.singleton_append] at *
    have hlength : before.length < fuel := by
      rw [List.length_append, List.length_cons] at hfuel
      omega
    obtain ⟨_, _, hprevious⟩ := segment_append.mp h
    exact ⟨previous, h.predecessor_eq hnodup hlength,
      (segment_cons.mp (segment_cons.mp hprevious).2).1, h.unlink hnodup⟩

/-- Clear the link of a node and put it at the end of a list. -/
def linkLast (fuel : ℕ) (next : Node → Option Node) (head : Option Node) (node : Node) :
    Option (Option Node × (Node → Option Node)) :=
  let next := Function.update next node none
  match head with
  | none => some (some node, next)
  | some first =>
      (lastFrom next fuel first).map fun last ↦ (head, Function.update next last (some node))

/-- Take a node out of a list. -/
def unlink (fuel : ℕ) (next : Node → Option Node) (head : Option Node) (node : Node) :
    Option (Option Node × (Node → Option Node)) :=
  if head = some node then some (next node, next)
  else
    (predecessor next node fuel head).map fun
      | none => (head, next)
      | some before => (head, Function.update next before ((next before).bind next))

theorem Linked.linkLast {nodes : List Node} {node : Node} {fuel : ℕ}
    (h : Linked next head nodes) (hnodup : nodes.Nodup) (hnode : node ∉ nodes)
    (hfuel : nodes.length ≤ fuel) :
    ∃ head' next', linkLast fuel next head node = some (head', next') ∧
      Linked next' head' (nodes ++ [node]) := by
  rcases List.eq_nil_or_concat nodes with rfl | ⟨before, last, rfl⟩
  · refine ⟨some node, Function.update next node none, ?_, ?_⟩
    · rw [segment_nil.mp h]
      rfl
    · exact segment_cons.mpr ⟨rfl, Function.update_self ..⟩
  · rw [List.concat_eq_append] at *
    have hclear : Linked (Function.update next node none) head (before ++ [last]) :=
      (segment_update_of_notMem none hnode).mpr h
    have hlength : before.length < fuel := by
      rw [List.length_append] at hfuel
      exact hfuel
    refine ⟨head, Function.update (Function.update next node none) last (some node), ?_,
      h.append hnodup hnode⟩
    cases head with
    | none => cases before <;> cases hclear.1
    | some first =>
      rw [Memory.linkLast, hclear.lastFrom_eq hlength]
      rfl

theorem Linked.unlink_eq {nodes : List Node} {node : Node} {fuel : ℕ}
    (h : Linked next head nodes) (hnodup : nodes.Nodup) (hmem : node ∈ nodes)
    (hfuel : nodes.length ≤ fuel) :
    ∃ head' next', Memory.unlink fuel next head node = some (head', next') ∧
      Linked next' head' (nodes.erase node) := by
  by_cases hhead : head = some node
  · subst hhead
    exact ⟨next node, next, if_pos rfl, h.erase_head⟩
  · obtain ⟨before, hbefore, hlink, hlinked⟩ := h.erase_behind hnodup hmem hhead hfuel
    refine ⟨head, Function.update next before ((next before).bind next), ?_, ?_⟩
    · rw [Memory.unlink, if_neg hhead, hbefore]
      rfl
    · rw [hlink]
      exact hlinked

end Loops

/-! ## The set of the nodes -/

theorem nodup_concat {nodes : List Node} {node : Node} (hnodup : nodes.Nodup)
    (hnew : node ∉ nodes) : (nodes ++ [node]).Nodup := by
  rw [← List.concat_eq_append]
  exact hnodup.concat hnew

section Set

variable [DecidableEq Node]

theorem toFinset_concat (nodes : List Node) (node : Node) :
    (nodes ++ [node]).toFinset = insert node nodes.toFinset := by
  ext other
  rw [List.mem_toFinset, Finset.mem_insert, List.mem_append, List.mem_singleton,
    List.mem_toFinset, or_comm]

theorem toFinset_erase {nodes : List Node} (hnodup : nodes.Nodup) (node : Node) :
    (nodes.erase node).toFinset = nodes.toFinset.erase node := by
  ext other
  rw [List.mem_toFinset, hnodup.mem_erase_iff, Finset.mem_erase, List.mem_toFinset]

end Set

end BroadcomWl.Memory
