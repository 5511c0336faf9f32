import BroadcomWl.Cfg80211.AssocIes

/-!
# What a roam reports

`wl_bss_roaming_done` comes in two variants. Older kernels get the elements of the
association as arguments, which are read after `wl_get_assoc_ies` has fetched the new ones.
Kernels from 4.12 on get a `struct cfg80211_roam_info`, whose pointers and lengths are filled
in where it is declared, before the fetch. Both report the address of the event.

So the newer variant reports the elements of the association before. That these are the
fetched ones needs a fetch that copies nothing and a `conn_info` that was as empty before.
-/

namespace BroadcomWl.Cfg80211

open BroadcomWl.Systems

/-- `wl_bss_roaming_done` on kernels before 4.12: all arguments are read after the fetch. -/
def wlBssRoamingDoneArguments (e : WlEventMsg) (answers : Answers) (priv : Priv) : ℤ × Priv :=
  let (err, priv) := wlGetAssocIes answers priv
  if err ≠ 0 then (err, priv)
  else
    let priv := { priv with profile := { priv.profile with bssid := e.addr }, bssid := e.addr }
    if answers.bssErr ≠ 0 then (answers.bssErr, priv)
    else (0, { priv.call (.roamed priv.bssid priv.connInfo) with connected := true })

/-- No read fails and the network is found, so that `cfg80211_roamed` is called. -/
def Roams (answers : Answers) : Prop :=
  answers.infoErr = 0 ∧ (answers.req.len = 0 ∨ answers.req.err = 0) ∧
    (answers.resp.len = 0 ∨ answers.resp.err = 0) ∧ answers.bssErr = 0

/-- The elements that the fetch of this handling leaves in `conn_info`. -/
def fetchedInfo (answers : Answers) (priv : Priv) : ConnectInfo :=
  (wlGetAssocIes answers priv).2.connInfo

/-- Whatever is reported is the event's address with the fetched elements, and both variants make
the same calls. -/
def ReportsNewAssociation (e : WlEventMsg) (answers : Answers) (priv : Priv) : Prop :=
  (∀ upcall, (wlBssRoamingDone e answers priv).2.upcalls = priv.upcalls ++ [upcall] →
      upcall = .roamed e.addr (fetchedInfo answers priv)) ∧
    (wlBssRoamingDone e answers priv).2.upcalls =
      (wlBssRoamingDoneArguments e answers priv).2.upcalls

/-- Nothing is copied for the half, and it held no buffer and the length that is noted now. -/
def NothingNew (answer : IeAnswer) (part : IePart) : Prop :=
  (answer.len = 0 ∨ answer.copied = false ∨ answer.len.toInt32.toInt < 0) ∧
    part = ⟨none, answer.len.toInt32⟩

/-- The half holds no pointer or one that `kmemdup` has returned. -/
def IePart.Allocated (part : IePart) (heap : Heap) : Prop :=
  ∀ ie, part.ie = some ie → ie < heap.next

def Priv.Allocated (priv : Priv) : Prop :=
  priv.connInfo.req.Allocated priv.heap ∧ priv.connInfo.resp.Allocated priv.heap

section Roam

variable {e : WlEventMsg} {answers : Answers} {priv : Priv}

/-! ## The calls of both variants -/

/-- A fetch with readable halves succeeds and leaves both parts as they were fetched. -/
theorem wlGetAssocIes_of_roams (h : Roams answers) (priv : Priv) :
    (wlGetAssocIes answers priv).1 = 0 ∧
      fetchedInfo answers priv =
        ⟨(fetchPart answers.req priv.connInfo.req priv.heap).2.1,
          (fetchPart answers.resp priv.connInfo.resp
            (fetchPart answers.req priv.connInfo.req priv.heap).2.2).2.1⟩ := by
  obtain ⟨hinfo, hreq, hresp, -⟩ := h
  have hread : ∀ answer part heap, (answer.len = 0 ∨ answer.err = 0) →
      (fetchPart answer part heap).1 = 0 := by
    intro answer part heap hok
    by_contra herr
    obtain ⟨hlen, hfail⟩ := (fetchPart_err_iff answer part heap).mp herr
    exact hok.elim hlen hfail
  unfold fetchedInfo wlGetAssocIes
  dsimp only
  rw [if_neg (not_not.mpr hinfo), if_neg (not_not.mpr (hread _ _ _ hreq))]
  exact ⟨hread _ _ _ hresp, rfl⟩

theorem wlGetAssocIes_of_not_roams (h : ¬Roams answers) (hbss : answers.bssErr = 0)
    (priv : Priv) : (wlGetAssocIes answers priv).1 ≠ 0 := by
  unfold wlGetAssocIes
  dsimp only
  by_cases hinfo : answers.infoErr = 0
  · rw [if_neg (not_not.mpr hinfo)]
    by_cases hreq : (fetchPart answers.req priv.connInfo.req priv.heap).1 = 0
    · rw [if_neg (not_not.mpr hreq)]
      have hreq := mt (fetchPart_err_iff answers.req priv.connInfo.req priv.heap).mpr
        (not_not.mpr hreq)
      refine (fetchPart_err_iff ..).mpr ?_
      by_contra hresp
      exact h ⟨hinfo, by tauto, by tauto, hbss⟩
    · rw [if_pos hreq]
      exact hreq
  · rw [if_pos hinfo]
    exact hinfo

theorem wlGetAssocIes_upcalls (answers : Answers) (priv : Priv) :
    (wlGetAssocIes answers priv).2.upcalls = priv.upcalls := by
  unfold wlGetAssocIes
  dsimp only
  split
  · rfl
  · split <;> rfl

/-- Both variants, with the elements that they report after the fetch. -/
def roamingDoneWith (info : Priv → ConnectInfo) (e : WlEventMsg) (answers : Answers)
    (priv : Priv) : ℤ × Priv :=
  let (err, priv) := wlGetAssocIes answers priv
  if err ≠ 0 then (err, priv)
  else
    let priv := { priv with profile := { priv.profile with bssid := e.addr }, bssid := e.addr }
    if answers.bssErr ≠ 0 then (answers.bssErr, priv)
    else (0, { priv.call (.roamed e.addr (info priv)) with connected := true })

theorem wlBssRoamingDone_eq (e : WlEventMsg) (answers : Answers) (priv : Priv) :
    wlBssRoamingDone e answers priv =
      roamingDoneWith (fun _ ↦ priv.connInfo) e answers priv := rfl

theorem wlBssRoamingDoneArguments_eq (e : WlEventMsg) (answers : Answers) (priv : Priv) :
    wlBssRoamingDoneArguments e answers priv =
      roamingDoneWith Priv.connInfo e answers priv := rfl

theorem roamingDoneWith_of_roams (info : Priv → ConnectInfo) (e : WlEventMsg)
    (h : Roams answers) (priv : Priv) :
    (roamingDoneWith info e answers priv).2.upcalls =
      priv.upcalls ++ [.roamed e.addr (info
        { (wlGetAssocIes answers priv).2 with
          profile := { (wlGetAssocIes answers priv).2.profile with bssid := e.addr }
          bssid := e.addr })] := by
  unfold roamingDoneWith
  dsimp only
  rw [if_neg (not_not.mpr (wlGetAssocIes_of_roams h priv).1), if_neg (not_not.mpr h.2.2.2)]
  dsimp only [Priv.call]
  rw [wlGetAssocIes_upcalls]

theorem roamingDoneWith_of_not_roams (info : Priv → ConnectInfo) (e : WlEventMsg)
    (h : ¬Roams answers) (priv : Priv) :
    (roamingDoneWith info e answers priv).2.upcalls = priv.upcalls := by
  unfold roamingDoneWith
  dsimp only
  by_cases hfetch : (wlGetAssocIes answers priv).1 = 0
  · have hbss : answers.bssErr ≠ 0 := fun hzero ↦ wlGetAssocIes_of_not_roams h hzero priv hfetch
    rw [if_neg (not_not.mpr hfetch), if_pos hbss]
    exact wlGetAssocIes_upcalls answers priv
  · rw [if_pos hfetch]
    exact wlGetAssocIes_upcalls answers priv

/-- So the reports agree exactly when the fetch changes nothing. -/
theorem reportsNewAssociation_iff_eq (e : WlEventMsg) (answers : Answers) (priv : Priv) :
    ReportsNewAssociation e answers priv ↔
      (Roams answers → fetchedInfo answers priv = priv.connInfo) := by
  unfold ReportsNewAssociation
  rw [wlBssRoamingDone_eq, wlBssRoamingDoneArguments_eq]
  by_cases hroams : Roams answers
  · rw [roamingDoneWith_of_roams _ e hroams, roamingDoneWith_of_roams _ e hroams]
    constructor
    · rintro ⟨hreport, -⟩ -
      exact (Upcall.roamed.inj (hreport _ rfl)).2.symm
    · intro hsame
      have hsame : (wlGetAssocIes answers priv).2.connInfo = priv.connInfo := hsame hroams
      refine ⟨fun upcall hupcall ↦ ?_, by dsimp only; rw [hsame]⟩
      have hlast := List.append_cancel_left hupcall
      rw [← List.singleton_inj.mp hlast, fetchedInfo, hsame]
  · rw [roamingDoneWith_of_not_roams _ e hroams, roamingDoneWith_of_not_roams _ e hroams]
    refine iff_of_true ⟨fun upcall hupcall ↦ ?_, rfl⟩ fun h ↦ absurd h hroams
    exact absurd (List.self_eq_append_right.mp hupcall) (List.cons_ne_nil _ _)

/-! ## What the fetch can leave alone -/

theorem IePart.Allocated.fetchPart {part : IePart} {heap : Heap} (h : part.Allocated heap)
    (answer : IeAnswer) (other : IePart) :
    part.Allocated (Cfg80211.fetchPart answer other heap).2.2 ∧
      (Cfg80211.fetchPart answer part heap).2.1.Allocated
        (Cfg80211.fetchPart answer part heap).2.2 := by
  have hnone : ∀ len heap, (⟨none, len⟩ : IePart).Allocated heap := fun _ _ _ hie ↦ by cases hie
  constructor
  · rcases fetchPart_cases answer other heap with ⟨_, _, heq⟩ | ⟨_, heq⟩ | ⟨_, _, _, _, heq⟩ |
      ⟨_, _, _, heq⟩ <;> rw [heq]
    · exact h
    · exact h
    · exact fun ie hie ↦ Nat.lt_succ_of_lt (h ie hie)
    · exact h
  · rcases fetchPart_cases answer part heap with ⟨_, _, heq⟩ | ⟨_, heq⟩ | ⟨_, _, _, _, heq⟩ |
      ⟨_, _, _, heq⟩ <;> rw [heq]
    · exact h
    · exact hnone _ _
    · intro ie hie
      rw [← Option.some.inj hie]
      exact Nat.lt_succ_self _
    · exact hnone _ _

/-- A half that can be read is left as it was exactly when nothing is copied and it was empty with
the same length. -/
theorem fetchPart_eq_self_iff {answer : IeAnswer} {part : IePart} {heap : Heap}
    (h : part.Allocated heap) (hread : answer.len = 0 ∨ answer.err = 0) :
    (fetchPart answer part heap).2.1 = part ↔ NothingNew answer part := by
  unfold NothingNew
  rcases fetchPart_cases answer part heap with ⟨hlen, herr, heq⟩ | ⟨hlen, heq⟩ |
    ⟨hlen, _, hcopied, hnonneg, heq⟩ | ⟨hlen, _, hfailed, heq⟩ <;> rw [heq]
  · exact absurd herr (fun hne ↦ hread.elim hlen hne)
  · rw [hlen]
    exact ⟨fun heq ↦ ⟨.inl rfl, heq.symm⟩, fun hnew ↦ hnew.2.symm⟩
  · refine iff_of_false (fun hsame ↦ ?_) ?_
    · have hie : part.ie = some heap.next := by rw [← hsame]; rfl
      exact absurd (h _ hie) (Nat.lt_irrefl _)
    · rintro ⟨hzero | hfailed | hnegative, -⟩
      · exact hlen hzero
      · exact absurd (hfailed.symm.trans hcopied) (by decide)
      · omega
  · exact ⟨fun heq ↦ ⟨.inr hfailed, heq.symm⟩, fun hnew ↦ hnew.2.symm⟩

/-- The reports are those of the new association exactly when `cfg80211_roamed` is not reached, or
for both halves nothing is copied and `conn_info` was as empty before. -/
theorem reportsNewAssociation_iff (e : WlEventMsg) (answers : Answers) (priv : Priv)
    (hallocated : priv.Allocated) :
    ReportsNewAssociation e answers priv ↔
      (Roams answers → NothingNew answers.req priv.connInfo.req ∧
        NothingNew answers.resp priv.connInfo.resp) := by
  rw [reportsNewAssociation_iff_eq]
  refine forall_congr' fun hroams ↦ ?_
  have hreq := fetchPart_eq_self_iff hallocated.1 hroams.2.1
  have hresp := fetchPart_eq_self_iff
    (hallocated.2.fetchPart answers.req priv.connInfo.req).1 hroams.2.2.1
  rw [(wlGetAssocIes_of_roams hroams priv).2, ← hreq, ← hresp]
  constructor
  · intro hsame
    exact ⟨congrArg ConnectInfo.req hsame, congrArg ConnectInfo.resp hsame⟩
  · rintro ⟨hreq, hresp⟩
    rw [hreq, hresp]

/-! ## Every association of a session -/

theorem SameIes.wlGetAssocIes {next : Priv} (h : SameIes priv next) (answers : Answers) :
    SameIes (Cfg80211.wlGetAssocIes answers priv).2
      (Cfg80211.wlGetAssocIes answers next).2 := by
  obtain ⟨hinfo, hheap⟩ := h
  unfold SameIes Cfg80211.wlGetAssocIes
  rw [hinfo, hheap]
  dsimp only
  split
  · exact ⟨hinfo, hheap⟩
  · split <;> exact ⟨rfl, rfl⟩

theorem wlBssConnectDone_ies (e : WlEventMsg) (answers : Answers) (priv : Priv) :
    SameIes priv (wlBssConnectDone e answers true priv).2 ∨
      SameIes (wlGetAssocIes answers priv).2 (wlBssConnectDone e answers true priv).2 := by
  have hscan := sameIes_completeScan true priv
  unfold wlBssConnectDone testAndClearConnecting
  dsimp only
  split
  · exact .inr (@SameIes.wlGetAssocIes priv
      { completeScan true priv with connecting := false } hscan answers)
  · exact .inl hscan

/-- An event fetches the halves, frees them or leaves them alone. -/
theorem handleEvent_ies (e : WlEventMsg) (answers : Answers) (priv : Priv) :
    SameIes priv (handleEvent e answers priv) ∨
      SameIes (wlGetAssocIes answers priv).2 (handleEvent e answers priv) ∨
      SameIes (wlLinkDown priv) (handleEvent e answers priv) := by
  unfold handleEvent
  cases wlInitEloopHandler e.eventType with
  | none => exact .inl ⟨rfl, rfl⟩
  | some handler =>
    cases handler with
    | connectStatus =>
      dsimp only [Handler.run, wlNotifyConnectStatus]
      split
      · unfold notifyConnectStatusIbss
        dsimp only
        split
        · split <;> exact .inr (.inl ⟨rfl, rfl⟩)
        · split
          · exact .inr (.inr ⟨rfl, rfl⟩)
          · exact .inl ⟨rfl, rfl⟩
      · unfold notifyConnectStatusBss
        dsimp only
        split
        · rcases wlBssConnectDone_ies e answers priv with hkept | hfetched
          · exact .inl hkept
          · exact .inr (.inl hfetched)
        · split
          · exact .inr (.inr ⟨rfl, rfl⟩)
          · split
            · exact .inl sameIes_wlBssConnectDone_false
            · exact .inl ⟨rfl, rfl⟩
    | roamingStatus =>
      dsimp only [Handler.run, wlNotifyRoamingStatus]
      split
      · exact .inr (.inl sameIes_wlBssRoamingDone)
      · exact .inl ⟨rfl, rfl⟩
    | scanStatus => exact .inl (sameIes_completeScan false priv)
    | micStatus => exact .inl ⟨rfl, rfl⟩

theorem SameIes.allocated {next : Priv} (h : SameIes priv next) (hpriv : priv.Allocated) :
    next.Allocated := by
  unfold Priv.Allocated
  rw [h.1, h.2]
  exact hpriv

theorem Priv.Allocated.wlGetAssocIes (h : priv.Allocated) (answers : Answers) :
    (Cfg80211.wlGetAssocIes answers priv).2.Allocated := by
  obtain ⟨hreq, hresp⟩ := h
  have hfetched := hreq.fetchPart answers.req priv.connInfo.req
  have hkept := hresp.fetchPart answers.req priv.connInfo.req
  unfold Cfg80211.wlGetAssocIes
  dsimp only
  split
  · exact ⟨hreq, hresp⟩
  · split
    · exact ⟨hfetched.2, hkept.1⟩
    · exact ⟨(hfetched.2.fetchPart answers.resp priv.connInfo.resp).1,
        (hkept.1.fetchPart answers.resp priv.connInfo.resp).2⟩

theorem allocated_wlLinkDown (priv : Priv) : (wlLinkDown priv).Allocated := by
  constructor <;>
  · intro ie hie
    cases hie

theorem Priv.Allocated.handleEvent (h : priv.Allocated) (e : WlEventMsg) (answers : Answers) :
    (Cfg80211.handleEvent e answers priv).Allocated := by
  rcases handleEvent_ies e answers priv with hsame | hsame | hsame
  · exact hsame.allocated h
  · exact hsame.allocated (h.wlGetAssocIes answers)
  · exact hsame.allocated (allocated_wlLinkDown priv)

end Roam

namespace AssocIes

section Sessions

variable {Device : Type*} {firmware : Firmware Device} {state next : State Device}

theorem allocated_step {label : Label} (h : state.priv.Allocated)
    (hstep : step firmware state label = some next) : next.priv.Allocated := by
  cases label with
  | act action =>
    obtain ⟨_, hnext⟩ := Option.ite_none_left_eq_some.mp hstep
    cases hnext
    cases action with
    | call call =>
      unfold State.priv
      rw [step_call_priv]
      rcases @run_ies _ firmware state.session.world call with hsame | hsame
      · exact hsame.allocated h
      · exact hsame.allocated (allocated_wlLinkDown _)
    | event handled => exact h.handleEvent handled.e handled.answers
  | detach =>
    obtain ⟨_, hnext⟩ := Option.ite_none_left_eq_some.mp hstep
    cases hnext
    exact allocated_wlLinkDown _

/-- If the step handles a successful roam, the new association is reported. -/
def RoamReported (state : State Device) : Label → Prop
  | .act (.event handled) =>
      state.detached = false → wlInitEloopHandler handled.e.eventType = some .roamingStatus →
        handled.e.status = Wlc.eStatusSuccess →
          ReportsNewAssociation handled.e handled.answers state.priv
  | _ => True

/-- If the step handles a roam that is reported, the fetch changes nothing. -/
def RoamChangesNothing (state : State Device) : Label → Prop
  | .act (.event handled) =>
      state.detached = false → wlInitEloopHandler handled.e.eventType = some .roamingStatus →
        handled.e.status = Wlc.eStatusSuccess → Roams handled.answers →
          NothingNew handled.answers.req state.priv.connInfo.req ∧
            NothingNew handled.answers.resp state.priv.connInfo.resp
  | _ => True

/-- A fetch that reads both halves changes nothing exactly when neither half has anything new. -/
theorem fetchedInfo_eq_iff {answers : Answers} {priv : Priv} (hroams : Roams answers)
    (hallocated : priv.Allocated) :
    fetchedInfo answers priv = priv.connInfo ↔
      NothingNew answers.req priv.connInfo.req ∧ NothingNew answers.resp priv.connInfo.resp := by
  have hresp := hallocated.2.fetchPart answers.req priv.connInfo.req
  rw [(wlGetAssocIes_of_roams hroams priv).2,
    ← fetchPart_eq_self_iff hallocated.1 hroams.2.1, ← fetchPart_eq_self_iff hresp.1 hroams.2.2.1]
  exact iff_of_eq (ConnectInfo.mk.injEq ..)

/-- In every session from attach on, every roam reports the new association if and only if no
reported roam has anything new to report. -/
theorem roams_reported_iff (hattached : Attached state.priv) (labels : List Label) :
    (machine firmware).Along RoamReported state labels ↔
      (machine firmware).Along RoamChangesNothing state labels := by
  have hallocated : state.priv.Allocated := by
    unfold Priv.Allocated
    rw [hattached.connInfo]
    constructor <;>
    · intro ie hie
      cases hie
  let invariant := fun state : State Device ↦ state.priv.Allocated
  refine @Machine.along_congr _ _ _ invariant _ _ ?_ ?_ _ _ hallocated
  · intro state label hstate
    cases label with
    | act action =>
      cases action with
      | call call => exact Iff.rfl
      | event handled =>
        refine forall_congr' fun _ ↦ forall_congr' fun _ ↦ forall_congr' fun _ ↦ ?_
        rw [reportsNewAssociation_iff_eq]
        exact forall_congr' fun hroams ↦ fetchedInfo_eq_iff hroams hstate
    | detach => exact Iff.rfl
  · exact fun state label next hstate _ hstep ↦ allocated_step hstate hstep

end Sessions

/-- The association of a session in which the link came up with two bytes for each half. -/
def joinedPriv : Priv :=
  handleEvent linkUpEvent (twoBytes true)
    { attachedSession.world.priv with connecting := true }

theorem reportsNewAssociation_iff_joined :
    ReportsNewAssociation roamEvent (twoBytes true) joinedPriv ↔
      (Roams (twoBytes true) → NothingNew (twoBytes true).req joinedPriv.connInfo.req ∧
        NothingNew (twoBytes true).resp joinedPriv.connInfo.resp) := by
  refine reportsNewAssociation_iff roamEvent (twoBytes true) joinedPriv ⟨?_, ?_⟩
  · rintro ie ⟨⟩
    decide
  · rintro ie ⟨⟩
    decide

/-- After a join, a roam that fetches two bytes for each half reports the buffers of the join,
where older kernels get those of the roam. -/
theorem roam_reports_old_elements :
    ¬ReportsNewAssociation roamEvent (twoBytes true) joinedPriv ∧
      (wlBssRoamingDone roamEvent (twoBytes true) joinedPriv).2.upcalls =
        joinedPriv.upcalls ++ [.roamed roamEvent.addr ⟨⟨some 0, 2⟩, ⟨some 1, 2⟩⟩] ∧
      (wlBssRoamingDoneArguments roamEvent (twoBytes true) joinedPriv).2.upcalls =
        joinedPriv.upcalls ++ [.roamed roamEvent.addr ⟨⟨some 2, 2⟩, ⟨some 3, 2⟩⟩] := by
  refine ⟨fun hreports ↦ ?_, by decide, by decide⟩
  exact absurd hreports.2 (by decide)

end AssocIes

end BroadcomWl.Cfg80211
