import BroadcomWl.Cfg80211.Coherence

/-!
# Who owns the association information elements

`conn_info` holds a request and a response part, each a pointer to a `kmemdup`'d buffer and a
length. `wl_get_assoc_ies` overwrites both parts, `wl_link_down` frees them. The parts own
their buffers when every other buffer has been freed exactly once and the lengths are those of
the buffers, at most the `WL_ASSOC_INFO_MAX` bytes that were read.

A fetch does not free the buffer it overwrites, notes the length before it knows whether the
copy succeeded, and takes the length from the firmware. So ownership is lost in exactly the
fetches that find an old buffer, whose copy fails, or whose length is too large.
-/

namespace BroadcomWl.Cfg80211

open BroadcomWl.Systems

def wlAssocInfoMax : ℕ := 512

/-! ## Ownership -/

/-- A part is empty, or a buffer with its length. -/
def PartOk (heap : Heap) (part : IePart) : Prop :=
  (part.ie = none ∧ part.ieLen = 0) ∨
    ∃ ie, part.ie = some ie ∧ ((heap.bytes ie).length : ℤ) = part.ieLen.toInt ∧
      (heap.bytes ie).length ≤ wlAssocInfoMax

/-- Two parts own their buffers, and all other buffers were freed once. -/
structure Owned (part other : IePart) (heap : Heap) : Prop where
  partOk : PartOk heap part
  otherOk : PartOk heap other
  distinct : ∀ ie, part.ie = some ie → other.ie ≠ some ie
  allocated : ∀ ie, part.ie = some ie ∨ other.ie = some ie → ie < heap.next
  live : ∀ ie, part.ie = some ie ∨ other.ie = some ie → heap.frees ie = 0
  freed : ∀ ie < heap.next, part.ie ≠ some ie → other.ie ≠ some ie → heap.frees ie = 1
  fresh : ∀ ie, heap.next ≤ ie → heap.frees ie = 0

/-- The driver's parts own their buffers. -/
def Priv.Owned (priv : Priv) : Prop :=
  Cfg80211.Owned priv.connInfo.req priv.connInfo.resp priv.heap

theorem Owned.symm {part other : IePart} {heap : Heap} (h : Owned part other heap) :
    Owned other part heap where
  partOk := h.otherOk
  otherOk := h.partOk
  distinct ie hother hpart := h.distinct ie hpart hother
  allocated ie hie := h.allocated ie hie.symm
  live ie hie := h.live ie hie.symm
  freed ie hlt hother hpart := h.freed ie hlt hpart hother
  fresh := h.fresh

/-- Freeing the buffer of a part and clearing the part. -/
theorem Owned.free {part other : IePart} {heap : Heap} (h : Owned part other heap) :
    Owned ⟨none, 0⟩ other (heap.kfree part.ie) := by
  cases hpart : part.ie with
  | none =>
    exact ⟨.inl ⟨rfl, rfl⟩, h.otherOk, fun _ hnone ↦ (nomatch hnone),
      fun ie hie ↦ h.allocated ie (.inr (hie.resolve_left fun hnone ↦ nomatch hnone)),
      fun ie hie ↦ h.live ie (.inr (hie.resolve_left fun hnone ↦ nomatch hnone)),
      fun ie hlt _ hother ↦ h.freed ie hlt (hpart ▸ fun hnone ↦ nomatch hnone) hother, h.fresh⟩
  | some freed =>
    have hlt : freed < heap.next := h.allocated freed (.inl hpart)
    have hlive : heap.frees freed = 0 := h.live freed (.inl hpart)
    have hother : other.ie ≠ some freed := h.distinct freed hpart
    have hframe : ∀ ie, ie ≠ freed → (heap.kfree (some freed)).frees ie = heap.frees ie :=
      fun ie hne ↦ Function.update_of_ne hne ..
    constructor
    · exact .inl ⟨rfl, rfl⟩
    · exact h.otherOk
    · exact fun _ hnone ↦ nomatch hnone
    · exact fun ie hie ↦ h.allocated ie (.inr (hie.resolve_left fun hnone ↦ nomatch hnone))
    · intro ie hie
      have hheld := hie.resolve_left fun hnone ↦ nomatch hnone
      rw [hframe ie fun heq ↦ hother (heq ▸ hheld)]
      exact h.live ie (.inr hheld)
    · intro ie hie _ hnot
      by_cases heq : ie = freed
      · rw [heq]
        exact (Function.update_self ..).trans (congrArg (· + 1) hlive)
      · rw [hframe ie heq]
        exact h.freed ie hie (fun hheld ↦ heq (Option.some.inj (hheld.symm.trans hpart))) hnot
    · intro ie hie
      rw [hframe ie (Nat.ne_of_gt (Nat.lt_of_lt_of_le hlt hie))]
      exact h.fresh ie hie

/-- `wl_link_down` frees both buffers. -/
theorem owned_wlLinkDown {priv : Priv} (h : priv.Owned) : (wlLinkDown priv).Owned :=
  h.free.symm.free.symm

/-! ## Fetching one part -/

/-- A read of one part that fails stores nothing. Any other must find no old buffer, and when it
copies, the copy succeeds and the length is at most what was read. -/
def PartSafe (answer : IeAnswer) (part : IePart) : Prop :=
  (answer.len ≠ 0 ∧ answer.err ≠ 0) ∨
    (part.ie = none ∧
      (answer.len ≠ 0 → answer.copied = true ∧ answer.len.toNat ≤ wlAssocInfoMax))

/-- The part that a successful copy leaves behind, and the heap with the copy. -/
def copiedPart (answer : IeAnswer) (heap : Heap) : IePart × Heap :=
  (⟨some heap.next, answer.len.toInt32⟩,
    { heap with
      next := heap.next + 1
      bytes := Function.update heap.bytes heap.next
        ((List.range answer.len.toInt32.toInt.toNat).map answer.bytes) })

/-- What fetching one part can do: fail, clear the part, copy, or note a length without a copy. -/
theorem fetchPart_cases (answer : IeAnswer) (part : IePart) (heap : Heap) :
    (answer.len ≠ 0 ∧ answer.err ≠ 0 ∧
        fetchPart answer part heap = (answer.err, part, heap)) ∨
      (answer.len = 0 ∧ fetchPart answer part heap = (0, ⟨none, 0⟩, heap)) ∨
      (answer.len ≠ 0 ∧ answer.err = 0 ∧ answer.copied = true ∧ 0 ≤ answer.len.toInt32.toInt ∧
        fetchPart answer part heap = (0, copiedPart answer heap)) ∨
      (answer.len ≠ 0 ∧ answer.err = 0 ∧
        (answer.copied = false ∨ answer.len.toInt32.toInt < 0) ∧
        fetchPart answer part heap = (0, ⟨none, answer.len.toInt32⟩, heap)) := by
  unfold fetchPart
  by_cases hlen : answer.len ≠ 0
  · rw [if_pos hlen]
    by_cases herr : answer.err ≠ 0
    · rw [if_pos herr]
      exact .inl ⟨hlen, herr, rfl⟩
    · rw [if_neg herr]
      have hread : answer.err = 0 := not_not.mp herr
      unfold Heap.kmemdup
      dsimp only
      by_cases hcopy : answer.copied = true ∧ 0 ≤ answer.len.toInt32.toInt
      · rw [if_pos hcopy]
        exact .inr (.inr (.inl ⟨hlen, hread, hcopy.1, hcopy.2, rfl⟩))
      · rw [if_neg hcopy]
        refine .inr (.inr (.inr ⟨hlen, hread, ?_, rfl⟩))
        rcases not_and_or.mp hcopy with hfailed | hnegative
        · exact .inl (Bool.not_eq_true _ ▸ hfailed)
        · exact .inr (Int.not_le.mp hnegative)
  · rw [if_neg hlen]
    exact .inr (.inl ⟨not_not.mp hlen, rfl⟩)

theorem toInt_toInt32 (len : UInt32) :
    len.toInt32.toInt =
      if len.toNat < 2147483648 then (len.toNat : ℤ) else len.toNat - 4294967296 := by
  have hcond := BitVec.toInt_eq_toNat_cond len.toBitVec
  have hnat : len.toBitVec.toNat = len.toNat := rfl
  rw [hnat] at hcond
  change len.toBitVec.toInt = _
  rw [hcond]
  split <;> split <;> omega

theorem toInt32_ne_zero {len : UInt32} (h : len ≠ 0) : len.toInt32 ≠ 0 :=
  fun hzero ↦ h (congrArg Int32.toUInt32 hzero)

section Fetch

variable {answer : IeAnswer} {part other : IePart} {heap : Heap}

theorem Owned.copied (h : Owned part other heap) (hempty : part.ie = none)
    (hlen : answer.len.toNat ≤ wlAssocInfoMax) :
    Owned (copiedPart answer heap).1 other (copiedPart answer heap).2 := by
  have hint : answer.len.toInt32.toInt = answer.len.toNat := by
    unfold wlAssocInfoMax at hlen
    rw [toInt_toInt32, if_pos (by omega)]
  have hframe : ∀ ie < heap.next, (copiedPart answer heap).2.bytes ie = heap.bytes ie :=
    fun ie hie ↦ Function.update_of_ne (Nat.ne_of_lt hie) ..
  have hbytes : (copiedPart answer heap).2.bytes heap.next =
      (List.range answer.len.toInt32.toInt.toNat).map answer.bytes := Function.update_self ..
  have hold : ∀ ie, other.ie = some ie → ie < heap.next := fun ie hie ↦
    h.allocated ie (.inr hie)
  constructor
  · refine .inr ⟨heap.next, rfl, ?_⟩
    rw [hbytes, List.length_map, List.length_range]
    change ((answer.len.toInt32.toInt.toNat : ℕ) : ℤ) = answer.len.toInt32.toInt ∧ _
    rw [hint, Int.toNat_natCast]
    exact ⟨rfl, hlen⟩
  · refine h.otherOk.imp_right fun ⟨ie, hie, hok⟩ ↦ ⟨ie, hie, ?_⟩
    rw [hframe ie (hold ie hie)]
    exact hok
  · intro ie hie hother
    cases hie
    exact Nat.lt_irrefl _ (hold _ hother)
  · rintro ie (hie | hie)
    · cases hie
      exact Nat.lt_succ_self _
    · exact Nat.lt_succ_of_lt (hold ie hie)
  · rintro ie (hie | hie)
    · cases hie
      exact h.fresh _ (Nat.le_refl _)
    · exact h.live ie (.inr hie)
  · intro ie hlt hne hother
    have hold : ie < heap.next := Nat.lt_of_le_of_ne (Nat.le_of_lt_succ hlt) fun heq ↦
      hne (congrArg some heq.symm)
    exact h.freed ie hold (hempty ▸ fun hnone ↦ nomatch hnone) hother
  · exact fun ie hie ↦ h.fresh ie (Nat.le_of_succ_le hie)

/-- A safe fetch of one part keeps the ownership. -/
theorem Owned.fetchPart (h : Owned part other heap) (hsafe : PartSafe answer part) :
    Owned (fetchPart answer part heap).2.1 other (fetchPart answer part heap).2.2 := by
  rcases fetchPart_cases answer part heap with ⟨_, _, heq⟩ | ⟨_, heq⟩ |
    ⟨hlen, hread, _, _, heq⟩ | ⟨hlen, hread, hfailed, heq⟩
  · rw [heq]
    exact h
  · rw [heq]
    rcases hsafe with hfail | ⟨hempty, _⟩
    · exact absurd ‹answer.len = 0› hfail.1
    · have hcleared := h.free
      rw [hempty] at hcleared
      exact hcleared
  · rw [heq]
    rcases hsafe with hfail | ⟨hempty, hcopy⟩
    · exact absurd hread hfail.2
    · exact h.copied hempty (hcopy hlen).2
  · rcases hsafe with hfail | ⟨_, hcopy⟩
    · exact absurd hread hfail.2
    · obtain ⟨hcopied, hmax⟩ := hcopy hlen
      have hint := toInt_toInt32 answer.len
      unfold wlAssocInfoMax at hmax
      rw [if_pos (by omega)] at hint
      rcases hfailed with hfalse | hnegative
      · rw [hcopied] at hfalse
        cases hfalse
      · omega

/-- Nothing was freed since, and a new buffer is in the other part at most. -/
structure Later (heap : Heap) (other : IePart) (heap' : Heap) (other' : IePart) : Prop where
  next : heap.next ≤ heap'.next
  frees : heap'.frees = heap.frees
  bytes : ∀ ie < heap.next, heap'.bytes ie = heap.bytes ie
  other : ∀ ie, other'.ie = some ie → other.ie = some ie ∨ heap.next ≤ ie

theorem Later.refl (heap : Heap) (other : IePart) : Later heap other heap other :=
  ⟨Nat.le_refl _, rfl, fun _ _ ↦ rfl, fun _ hie ↦ .inl hie⟩

theorem later_fetchPart (answer : IeAnswer) (other : IePart) (heap : Heap) :
    Later heap other (Cfg80211.fetchPart answer other heap).2.2
      (Cfg80211.fetchPart answer other heap).2.1 := by
  rcases fetchPart_cases answer other heap with ⟨_, _, heq⟩ | ⟨_, heq⟩ | ⟨_, _, _, _, heq⟩ |
    ⟨_, _, _, heq⟩
  · rw [heq]
    exact .refl heap other
  · rw [heq]
    exact ⟨Nat.le_refl _, rfl, fun _ _ ↦ rfl, fun _ hnone ↦ nomatch hnone⟩
  · rw [heq]
    refine ⟨Nat.le_succ _, rfl, fun ie hie ↦ ?_, fun ie hie ↦ ?_⟩
    · exact Function.update_of_ne (Nat.ne_of_lt hie) ..
    · cases hie
      exact .inr (Nat.le_refl _)
  · rw [heq]
    exact ⟨Nat.le_refl _, rfl, fun _ _ ↦ rfl, fun _ hnone ↦ nomatch hnone⟩

/-- A buffer that its part has dropped without freeing it stays unowned. -/
theorem Owned.not_dropped {part' other' : IePart} {heap' later : Heap} {old : ℕ}
    (h : Owned part other heap) (hold : part.ie = some old) (hnext : heap.next ≤ heap'.next)
    (hfrees : heap'.frees = heap.frees) (hlater : Later heap' other later other')
    (hpart : part'.ie ≠ some old) : ¬Owned part' other' later := by
  intro hfinal
  have hlt : old < heap.next := h.allocated old (.inl hold)
  have hother : other'.ie ≠ some old := by
    intro hheld
    rcases hlater.other old hheld with hsame | hnew
    · exact h.distinct old hold hsame
    · omega
  have hbound : old < later.next :=
    Nat.lt_of_lt_of_le hlt (Nat.le_trans hnext hlater.next)
  have hfreed := hfinal.freed old hbound hpart hother
  rw [hlater.frees, hfrees, h.live old (.inl hold)] at hfreed
  exact absurd hfreed Nat.zero_ne_one

/-- When the parts own their buffers after the fetch of one part, and possibly of the other, the
fetch was safe. -/
theorem Owned.partSafe {other' : IePart} {later : Heap} (h : Owned part other heap)
    (hlater : Later (Cfg80211.fetchPart answer part heap).2.2 other later other')
    (hfinal : Owned (Cfg80211.fetchPart answer part heap).2.1 other' later) :
    PartSafe answer part := by
  rcases fetchPart_cases answer part heap with ⟨hlen, herr, _⟩ | ⟨hlen, heq⟩ |
    ⟨hlen, hread, hcopied, hsign, heq⟩ | ⟨hlen, hread, hfailed, heq⟩
  · exact .inl ⟨hlen, herr⟩
  · rw [heq] at hlater hfinal
    refine .inr ⟨?_, fun hne ↦ absurd hlen hne⟩
    cases hpart : part.ie with
    | none => rfl
    | some old =>
      exact absurd hfinal (h.not_dropped hpart (Nat.le_refl _) rfl hlater fun hnone ↦
        nomatch hnone)
  · rw [heq] at hlater hfinal
    have hempty : part.ie = none := by
      cases hpart : part.ie with
      | none => rfl
      | some old =>
        have hlt := h.allocated old (.inl hpart)
        have hnext : heap.next ≤ (copiedPart answer heap).2.next := Nat.le_succ _
        refine absurd hfinal (h.not_dropped hpart hnext rfl hlater fun hsame ↦ ?_)
        exact Nat.ne_of_gt hlt (Option.some.inj hsame)
    refine .inr ⟨hempty, fun _ ↦ ⟨hcopied, ?_⟩⟩
    rcases hfinal.partOk with ⟨hnone, _⟩ | ⟨ie, hie, hlength, hmax⟩
    · cases hnone
    · cases hie
      have hint := toInt_toInt32 answer.len
      have hbound := answer.len.toNat_lt
      change _ = answer.len.toInt32.toInt at hlength
      unfold wlAssocInfoMax at *
      split at hint <;> omega
  · rw [heq] at hfinal
    rcases hfinal.partOk with ⟨_, hzero⟩ | ⟨ie, hie, _⟩
    · exact absurd hzero (toInt32_ne_zero hlen)
    · cases hie

end Fetch

/-! ## Fetching both parts -/

/-- `wl_get_assoc_ies` keeps the ownership: reading `assoc_info` fails, or the request part is
safe and so is the response part, unless reading the request failed. -/
def FetchSafe (answers : Answers) (connInfo : ConnectInfo) : Prop :=
  answers.infoErr ≠ 0 ∨
    (PartSafe answers.req connInfo.req ∧
      ((answers.req.len ≠ 0 ∧ answers.req.err ≠ 0) ∨ PartSafe answers.resp connInfo.resp))

theorem fetchPart_err_iff (answer : IeAnswer) (part : IePart) (heap : Heap) :
    (fetchPart answer part heap).1 ≠ 0 ↔ answer.len ≠ 0 ∧ answer.err ≠ 0 := by
  rcases fetchPart_cases answer part heap with ⟨hlen, herr, heq⟩ | ⟨hlen, heq⟩ |
    ⟨_, hread, _, _, heq⟩ | ⟨_, hread, _, heq⟩
  · rw [heq]
    exact iff_of_true herr ⟨hlen, herr⟩
  · rw [heq]
    exact iff_of_false (fun hne ↦ hne rfl) fun hboth ↦ hboth.1 hlen
  · rw [heq]
    exact iff_of_false (fun hne ↦ hne rfl) fun hboth ↦ hboth.2 hread
  · rw [heq]
    exact iff_of_false (fun hne ↦ hne rfl) fun hboth ↦ hboth.2 hread

theorem owned_wlGetAssocIes_iff {priv : Priv} (h : priv.Owned) (answers : Answers) :
    (wlGetAssocIes answers priv).2.Owned ↔ FetchSafe answers priv.connInfo := by
  unfold wlGetAssocIes
  dsimp only
  by_cases hinfo : answers.infoErr ≠ 0
  · rw [if_pos hinfo]
    exact iff_of_true h (.inl hinfo)
  rw [if_neg hinfo]
  by_cases herr : (fetchPart answers.req priv.connInfo.req priv.heap).1 ≠ 0
  · rw [if_pos herr]
    have hfail := (fetchPart_err_iff ..).mp herr
    exact iff_of_true (h.fetchPart (.inl hfail)) (.inr ⟨.inl hfail, .inl hfail⟩)
  rw [if_neg herr]
  constructor
  · intro hfinal
    have hreq : PartSafe answers.req priv.connInfo.req :=
      Owned.partSafe h (later_fetchPart answers.resp ..) hfinal
    have hmiddle := Owned.fetchPart h hreq
    exact .inr ⟨hreq, .inr (hmiddle.symm.partSafe (.refl _ _) hfinal.symm)⟩
  · rintro (hne | ⟨hreq, hresp⟩)
    · exact absurd hne hinfo
    · have hmiddle := Owned.fetchPart h hreq
      have hresp := hresp.resolve_left (mt (fetchPart_err_iff ..).mpr herr)
      exact (hmiddle.symm.fetchPart hresp).symm

/-! ## Events -/

/-- What handling an event does to the parts. -/
inductive IeEffect where
  | fetch
  | free
  | keep
deriving DecidableEq, Repr

/-- In BSS mode a link that comes up is only looked at while a connect is awaited; an IBSS that
was joined or started and a successful roam always are. -/
def ieEffect (priv : Priv) (e : WlEventMsg) : IeEffect :=
  match wlInitEloopHandler e.eventType with
  | some .connectStatus =>
      if wlIsIbssmode priv then
        if e.eventType = Wlc.eJoin ∨ e.eventType = Wlc.eStart then .fetch
        else if lostLinkTest e then .free
        else .keep
      else if e.eventType = Wlc.eLink ∧ e.flags &&& Wlc.eventMsgLink ≠ 0 then
        if priv.connecting then .fetch else .keep
      else if lostLinkTest e then .free
      else .keep
  | some .roamingStatus => if e.status = Wlc.eStatusSuccess then .fetch else .keep
  | _ => .keep

/-- The parts and the heap are as they were. -/
def SameIes (priv next : Priv) : Prop :=
  next.connInfo = priv.connInfo ∧ next.heap = priv.heap

section Events

variable {priv next : Priv} {e : WlEventMsg} {answers : Answers}

theorem SameIes.owned (h : SameIes priv next) (howned : priv.Owned) : next.Owned := by
  unfold Priv.Owned
  rw [h.1, h.2]
  exact howned

theorem sameIes_completeScan (aborted : Bool) (priv : Priv) :
    SameIes priv (completeScan aborted priv) := by
  unfold completeScan
  split <;> exact ⟨rfl, rfl⟩

theorem sameIes_wlBssConnectDone_false :
    SameIes priv (wlBssConnectDone e answers false priv).2 := by
  have hscan := sameIes_completeScan true priv
  unfold wlBssConnectDone testAndClearConnecting
  dsimp only
  split <;> exact hscan

theorem owned_wlBssConnectDone_iff (h : priv.Owned) :
    (wlBssConnectDone e answers true priv).2.Owned ↔
      (priv.connecting = true → FetchSafe answers priv.connInfo) := by
  have hscan := sameIes_completeScan true priv
  have howned := hscan.owned h
  have hconnecting := (completeScan_frame true priv).2
  unfold wlBssConnectDone testAndClearConnecting
  dsimp only
  rw [hconnecting]
  cases priv.connecting with
  | false => exact iff_of_true howned fun hfalse ↦ nomatch hfalse
  | true =>
    have hiff := @owned_wlGetAssocIes_iff { completeScan true priv with connecting := false } howned
      answers
    rw [show ({ completeScan true priv with connecting := false } : Priv).connInfo =
      priv.connInfo from hscan.1] at hiff
    exact hiff.trans ⟨fun hsafe _ ↦ hsafe, fun hsafe ↦ hsafe rfl⟩

theorem sameIes_wlBssRoamingDone :
    SameIes (wlGetAssocIes answers priv).2 (wlBssRoamingDone e answers priv).2 := by
  unfold wlBssRoamingDone
  dsimp only
  split
  · exact ⟨rfl, rfl⟩
  · split <;> exact ⟨rfl, rfl⟩

theorem Priv.Owned.iff_of_ne_fetch {effect : IeEffect} {safe : Prop} (h : next.Owned)
    (hne : effect ≠ .fetch) : next.Owned ↔ (effect = .fetch → safe) :=
  iff_of_true h fun heq ↦ absurd heq hne

theorem owned_wlNotifyConnectStatus_iff (h : priv.Owned)
    (hhandler : wlInitEloopHandler e.eventType = some .connectStatus) :
    (wlNotifyConnectStatus e answers priv).2.Owned ↔
      (ieEffect priv e = .fetch → FetchSafe answers priv.connInfo) := by
  unfold wlNotifyConnectStatus ieEffect
  rw [hhandler]
  dsimp only
  split
  · unfold notifyConnectStatusIbss
    dsimp only
    split
    · rw [forall_prop_of_true rfl]
      split <;> exact owned_wlGetAssocIes_iff h answers
    · split
      · exact (owned_wlLinkDown h).iff_of_ne_fetch (by decide)
      · exact h.iff_of_ne_fetch (by decide)
  · unfold notifyConnectStatusBss
    dsimp only
    split
    · refine (owned_wlBssConnectDone_iff h).trans ?_
      cases priv.connecting <;> simp
    · split
      · exact (owned_wlLinkDown h).iff_of_ne_fetch (by decide)
      · split
        · have howned := (@sameIes_wlBssConnectDone_false priv e answers).owned h
          exact howned.iff_of_ne_fetch (by decide)
        · exact h.iff_of_ne_fetch (by decide)

theorem owned_wlNotifyRoamingStatus_iff (h : priv.Owned)
    (hhandler : wlInitEloopHandler e.eventType = some .roamingStatus) :
    (wlNotifyRoamingStatus e answers priv).2.Owned ↔
      (ieEffect priv e = .fetch → FetchSafe answers priv.connInfo) := by
  have hsame := @sameIes_wlBssRoamingDone priv e answers
  unfold wlNotifyRoamingStatus ieEffect
  rw [hhandler]
  dsimp only
  split
  · rw [forall_prop_of_true rfl]
    calc
      (wlBssRoamingDone e answers priv).2.Owned ↔ (wlGetAssocIes answers priv).2.Owned :=
        ⟨SameIes.owned ⟨hsame.1.symm, hsame.2.symm⟩, hsame.owned⟩
      _ ↔ FetchSafe answers priv.connInfo := owned_wlGetAssocIes_iff h answers
  · exact h.iff_of_ne_fetch (by decide)

/-- An event keeps the ownership exactly when its fetch, if it has one, is safe. -/
theorem owned_handleEvent_iff (h : priv.Owned) :
    (handleEvent e answers priv).Owned ↔
      (ieEffect priv e = .fetch → FetchSafe answers priv.connInfo) := by
  unfold handleEvent
  cases hhandler : wlInitEloopHandler e.eventType with
  | none =>
    refine h.iff_of_ne_fetch ?_
    rw [ieEffect, hhandler]
    exact fun heq ↦ nomatch heq
  | some handler =>
    cases handler with
    | connectStatus => exact owned_wlNotifyConnectStatus_iff h hhandler
    | roamingStatus => exact owned_wlNotifyRoamingStatus_iff h hhandler
    | scanStatus =>
      refine ((sameIes_completeScan false priv).owned h).iff_of_ne_fetch ?_
      rw [ieEffect, hhandler]
      exact fun heq ↦ nomatch heq
    | micStatus =>
      refine h.iff_of_ne_fetch ?_
      rw [ieEffect, hhandler]
      exact fun heq ↦ nomatch heq

end Events

/-! ## Sessions that end with detach -/

namespace AssocIes

/-- A step of a session, or `wl_deinit_cfg80211_priv`. -/
inductive Label where
  | act (action : Action)
  | detach

structure State (Device : Type*) where
  session : Session Device
  detached : Bool

def State.priv {Device : Type*} (state : State Device) : Priv := state.session.world.priv

section Sessions

variable {Device : Type*} {firmware : Firmware Device} {state next : State Device}

variable (firmware) in
/-- After detach the driver's state is gone, and nothing happens any more. -/
def step (state : State Device) : Label → Option (State Device)
  | .act action =>
      if state.detached then none
      else some { state with session := state.session.step firmware action }
  | .detach =>
      if state.detached then none
      else some ⟨{ state.session with world := { state.session.world with
        priv := wlLinkDown state.priv } }, true⟩

variable (firmware) in
def machine : Machine (State Device) Label where
  initial state := Attached state.priv ∧ state.detached = false
  step := step firmware

variable (firmware) in
/-- The parts own their buffers after the step. -/
def OwnedNext (state : State Device) (label : Label) : Prop :=
  ∀ next, step firmware state label = some next → next.priv.Owned

/-- If the step handles an event that fetches, the fetch is safe. -/
def FetchesSafely (state : State Device) : Label → Prop
  | .act (.event handled) =>
      state.detached = false → ieEffect state.priv handled.e = .fetch →
        FetchSafe handled.answers state.priv.connInfo
  | _ => True

theorem owned_of_attached {priv : Priv} (h : Attached priv) : priv.Owned := by
  unfold Priv.Owned
  rw [h.connInfo]
  have hempty : ∀ ie : ℕ, ¬(none = some ie ∨ none = some ie) := by simp
  refine ⟨.inl ⟨rfl, rfl⟩, .inl ⟨rfl, rfl⟩, fun _ hnone ↦ (nomatch hnone),
    fun ie hie ↦ absurd hie (hempty ie), fun ie hie ↦ absurd hie (hempty ie), fun ie hlt ↦ ?_,
    fun ie _ ↦ h.heap.2 ie⟩
  rw [h.heap.1] at hlt
  exact absurd hlt (Nat.not_lt_zero ie)

/-- A call keeps the parts; only `wl_cfg80211_leave_ibss` frees them. -/
theorem run_ies (world : World Device) (call : Call) :
    SameIes world.priv (call.run firmware world).2.priv ∨
      SameIes (wlLinkDown world.priv) (call.run firmware world).2.priv := by
  cases call with
  | connect sme =>
    obtain ⟨profile, _, hpriv⟩ := @connects_wlCfg80211Connect _ firmware sme world
    exact .inl ⟨(congrArg Priv.connInfo hpriv :), (congrArg Priv.heap hpriv :)⟩
  | disconnect reasonCode =>
    have hpriv := @wlCfg80211Disconnect_priv _ firmware reasonCode world
    exact .inl ⟨(congrArg Priv.connInfo hpriv :), (congrArg Priv.heap hpriv :)⟩
  | changeIface type =>
    obtain ⟨mode, hpriv⟩ := @wlCfg80211ChangeIface_priv _ firmware type world
    exact .inl ⟨(congrArg Priv.connInfo hpriv :), (congrArg Priv.heap hpriv :)⟩
  | joinIbss params =>
    have hpriv := @wlCfg80211JoinIbss_priv _ firmware params world
    exact .inl ⟨(congrArg Priv.connInfo hpriv :), (congrArg Priv.heap hpriv :)⟩
  | leaveIbss => exact .inr ⟨rfl, rfl⟩
  | scan request ssid =>
    obtain ⟨pending, hpriv⟩ := @wlCfg80211Scan_priv _ firmware request ssid world
    exact .inl ⟨(congrArg Priv.connInfo hpriv :), (congrArg Priv.heap hpriv :)⟩

theorem owned_run (world : World Device) (call : Call) (h : world.priv.Owned) :
    (call.run firmware world).2.priv.Owned := by
  rcases @run_ies _ firmware world call with hsame | hsame
  · exact hsame.owned h
  · exact hsame.owned (owned_wlLinkDown h)

theorem step_call_priv (session : Session Device) (call : Call) :
    (session.step firmware (.call call)).world.priv =
      (call.run firmware session.world).2.priv := by
  cases call <;> rfl

theorem ownedNext_iff (label : Label) (h : state.priv.Owned) :
    OwnedNext firmware state label ↔ FetchesSafely state label := by
  unfold OwnedNext
  cases label with
  | act action =>
    cases hdetached : state.detached with
    | true =>
      refine iff_of_true (fun next hnext ↦ ?_) ?_
      · rw [step, hdetached] at hnext
        cases hnext
      · cases action with
        | call call => trivial
        | event handled => exact fun hfalse ↦ absurd (hdetached.symm.trans hfalse) (by decide)
    | false =>
      have hstep : step firmware state (.act action) =
          some { state with session := state.session.step firmware action } := by
        rw [step, hdetached]
        rfl
      rw [hstep]
      cases action with
      | call call =>
        refine iff_of_true (fun next hnext ↦ ?_) trivial
        cases hnext
        unfold State.priv
        rw [step_call_priv]
        exact owned_run state.session.world call h
      | event handled =>
        constructor
        · intro hnext _
          exact (owned_handleEvent_iff h).mp (hnext _ rfl)
        · intro hsafe next hnext
          cases hnext
          exact (owned_handleEvent_iff h).mpr (hsafe hdetached)
  | detach =>
    refine iff_of_true (fun next hnext ↦ ?_) trivial
    obtain ⟨_, hnext⟩ := Option.ite_none_left_eq_some.mp hnext
    cases hnext
    exact owned_wlLinkDown h

/-- In every session from attach on, with any firmware: the parts own their buffers after every
step if and only if every event that fetches the elements meets the condition of a safe
fetch. -/
theorem assoc_ies_owned_iff (hattached : Attached state.priv) (labels : List Label) :
    (machine firmware).Along (OwnedNext firmware) state labels ↔
      (machine firmware).Along FetchesSafely state labels := by
  have howned : state.priv.Owned := owned_of_attached hattached
  let invariant := fun state : State Device ↦ state.priv.Owned
  refine @Machine.along_congr _ _ _ invariant _ _ ?_ ?_ _ _ howned
  · exact fun state label hstate ↦ ownedNext_iff label hstate
  · exact fun state label next _ hfirst hstep ↦ hfirst next hstep

end Sessions

/-! ## Ownership lost -/

/-- The firmware reports two bytes for each part. -/
def twoBytes (copied : Bool) : Answers :=
  ⟨0, ⟨2, 0, fun _ ↦ 7, copied⟩, ⟨2, 0, fun _ ↦ 7, copied⟩, 0, 0, 6, 0⟩

def roamEvent : WlEventMsg := ⟨Wlc.eRoam, 0, Wlc.eStatusSuccess, Vector.replicate 6 3⟩

def attachedState : State Unit := ⟨attachedSession, false⟩

theorem attached_attachedSession : Attached attachedState.priv :=
  ⟨rfl, rfl, rfl, rfl, ⟨rfl, fun _ ↦ rfl⟩, rfl⟩

/-- The first join and its end meet the condition. -/
theorem assoc_ies_owned_first_join :
    (machine acceptingFirmware).Along (OwnedNext acceptingFirmware) attachedState
      [.act (.call (.connect openNetwork)), .act (.event ⟨linkUpEvent, twoBytes true⟩),
        .detach] := by
  refine (assoc_ies_owned_iff attached_attachedSession _).mpr ⟨trivial, ?_⟩
  rintro _ ⟨⟩
  refine ⟨fun _ _ ↦ .inr ⟨.inr ⟨rfl, fun _ ↦ ⟨rfl, by decide⟩⟩,
    .inr (.inr ⟨rfl, fun _ ↦ ⟨rfl, by decide⟩⟩)⟩, ?_⟩
  rintro _ ⟨⟩
  exact ⟨trivial, fun _ _ ↦ trivial⟩

/-- A roam drops the buffers of the first join without freeing them. A copy that fails leaves a
length without a buffer. -/
theorem assoc_ies_not_owned :
    (∃ state, (machine acceptingFirmware).run attachedState
        [.act (.call (.connect openNetwork)), .act (.event ⟨linkUpEvent, twoBytes true⟩),
          .act (.event ⟨roamEvent, twoBytes true⟩)] = some state ∧ ¬state.priv.Owned) ∧
      ∃ state, (machine acceptingFirmware).run attachedState
        [.act (.call (.connect openNetwork)), .act (.event ⟨linkUpEvent, twoBytes false⟩)] =
          some state ∧ ¬state.priv.Owned := by
  refine ⟨⟨_, rfl, fun howned ↦ ?_⟩, _, rfl, fun howned ↦ ?_⟩
  · have hfreed := howned.freed 0 (by decide) (by decide) (by decide)
    exact absurd hfreed (by decide)
  · rcases howned.partOk with ⟨_, hzero⟩ | ⟨ie, hie, _⟩
    · exact absurd hzero (by decide)
    · cases hie

end AssocIes

end BroadcomWl.Cfg80211
