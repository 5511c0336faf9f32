import BroadcomWl.Cfg80211.Priv
import BroadcomWl.Systems.Machine

/-!
# Firmware events

The handlers that `wl_init_eloop_handler` registers, and what they do to the connection
state. `bcmevent.h` is not part of the repository: the event numbers are those of the
table of event names, and the remaining constants are the firmware interface's.

The last section is about the bit `WL_STATUS_CONNECTED`. Only a loss of link clears it in
BSS mode. In IBSS mode the test for a lost link reads `~(flags & WLC_EVENT_MSG_LINK)`, which
is never zero, and no earlier branch takes the events of a link that came up.
-/

namespace BroadcomWl.Cfg80211

open BroadcomWl.Systems

namespace Wlc

def eSetSsid : ℕ := 0
def eJoin : ℕ := 1
def eStart : ℕ := 2
def eDeauthInd : ℕ := 6
def eDisassocInd : ℕ := 12
def eLink : ℕ := 16
def eMicError : ℕ := 17
def eNdisLink : ℕ := 18
def eRoam : ℕ := 19
def eScanComplete : ℕ := 26

def eventMsgLink : UInt16 := 1
def eventMsgGroup : UInt16 := 4

def eStatusSuccess : ℕ := 0
def eStatusNoNetworks : ℕ := 3

def chMax2gChannel : ℕ := 14

end Wlc

/-- The fields of `wl_event_msg_t` that handlers read. -/
structure WlEventMsg where
  eventType : ℕ
  flags : UInt16
  status : ℕ
  addr : EtherAddr
deriving DecidableEq

/-! ## Connection results -/

/-- `test_and_clear_bit` on `WL_STATUS_CONNECTING`: the old value and the state after it. -/
def testAndClearConnecting (priv : Priv) : Bool × Priv :=
  (priv.connecting, { priv with connecting := false })

/-- What `wl_bss_connect_done` does for a completed join before it reports. -/
def storeAssociation (e : WlEventMsg) (answers : Answers) (priv : Priv) : Priv :=
  let priv := (wlGetAssocIes answers priv).2
  { priv with
    bssid := e.addr
    profile := { priv.profile with bssid := e.addr }
    connected := true }

def reportConnectResult (completed : Bool) (priv : Priv) : Priv :=
  priv.call (.connectResult priv.bssid priv.connInfo completed)

/-- `wl_bss_connect_done`. -/
def wlBssConnectDone (e : WlEventMsg) (answers : Answers) (completed : Bool) (priv : Priv) :
    ℤ × Priv :=
  let priv := completeScan true priv
  let (connecting, priv) := testAndClearConnecting priv
  if connecting then
    let priv := if completed then storeAssociation e answers priv else priv
    (0, reportConnectResult completed priv)
  else (0, priv)

/-- `wl_bss_roaming_done` on kernels that take `struct cfg80211_roam_info`: its element pointers
are taken before the new elements are fetched, its BSSID is read through a pointer. -/
def wlBssRoamingDone (e : WlEventMsg) (answers : Answers) (priv : Priv) : ℤ × Priv :=
  let roamInfo := priv.connInfo
  let (err, priv) := wlGetAssocIes answers priv
  if err ≠ 0 then (err, priv)
  else
    let priv := { priv with profile := { priv.profile with bssid := e.addr }, bssid := e.addr }
    if answers.bssErr ≠ 0 then (answers.bssErr, priv)
    else (0, { priv.call (.roamed priv.profile.bssid roamInfo) with connected := true })

/-! ## Handlers -/

/-- `~(flags & WLC_EVENT_MSG_LINK)`, computed in `int`, as a condition. -/
def notLinkFlag (flags : UInt16) : Bool :=
  ~~~(flags &&& Wlc.eventMsgLink).toUInt32 != 0

/-- The condition of the branch for a lost link, the same in both modes. -/
def lostLinkTest (e : WlEventMsg) : Bool :=
  (e.eventType == Wlc.eLink && notLinkFlag e.flags) ||
    e.eventType == Wlc.eDeauthInd || e.eventType == Wlc.eDisassocInd

/-- The end of the branch for a lost link. -/
def dropAssociation (priv : Priv) : Priv :=
  { wlLinkDown { priv with connected := false } with profile := wlInitProf }

/-- `wl_notify_connect_status` in BSS mode. -/
def notifyConnectStatusBss (e : WlEventMsg) (answers : Answers) (priv : Priv) : ℤ × Priv :=
  if e.eventType = Wlc.eLink ∧ e.flags &&& Wlc.eventMsgLink ≠ 0 then
    let priv := (wlBssConnectDone e answers true priv).2
    (0, { priv with profile := { priv.profile with active := true } })
  else if lostLinkTest e then (0, dropAssociation (priv.call .disconnected))
  else if e.eventType = Wlc.eSetSsid ∧ e.status = Wlc.eStatusNoNetworks then
    (0, (wlBssConnectDone e answers false priv).2)
  else (0, priv)

/-- `wl_notify_connect_status` in IBSS mode. -/
def notifyConnectStatusIbss (e : WlEventMsg) (answers : Answers) (priv : Priv) : ℤ × Priv :=
  if e.eventType = Wlc.eJoin ∨ e.eventType = Wlc.eStart then
    let priv := { (wlGetAssocIes answers priv).2 with bssid := e.addr }
    if answers.chanspecErr ≠ 0 then (answers.chanspecErr, priv)
    else
      let band2GHz := decide (answers.ctlchan ≤ Wlc.chMax2gChannel)
      let priv := priv.call (.ibssJoined priv.bssid answers.ctlchan band2GHz)
      (0, { priv with connected := true, profile := { priv.profile with active := true } })
  else if lostLinkTest e then (0, dropAssociation priv)
  else (0, priv)

/-- `wl_notify_connect_status`. -/
def wlNotifyConnectStatus (e : WlEventMsg) (answers : Answers) (priv : Priv) : ℤ × Priv :=
  if wlIsIbssmode priv then notifyConnectStatusIbss e answers priv
  else notifyConnectStatusBss e answers priv

/-- `wl_notify_roaming_status`. -/
def wlNotifyRoamingStatus (e : WlEventMsg) (answers : Answers) (priv : Priv) : ℤ × Priv :=
  if e.status = Wlc.eStatusSuccess then
    let (err, priv) := wlBssRoamingDone e answers priv
    (err, { priv with profile := { priv.profile with active := true } })
  else (0, priv)

/-- `wl_notify_mic_status`. -/
def wlNotifyMicStatus (e : WlEventMsg) (priv : Priv) : ℤ × Priv :=
  (0, priv.call (.michaelMicFailure e.addr (e.flags &&& Wlc.eventMsgGroup != 0)))

/-- `wl_notify_scan_status`; every path ends by completing a pending scan. -/
def wlNotifyScanStatus (answers : Answers) (priv : Priv) : ℤ × Priv :=
  (answers.scanErr, completeScan false priv)

inductive Handler where
  | connectStatus
  | roamingStatus
  | scanStatus
  | micStatus
deriving DecidableEq, Repr

/-- The table that `wl_init_eloop_handler` fills. -/
def wlInitEloopHandler (eventType : ℕ) : Option Handler :=
  if eventType = Wlc.eScanComplete then some .scanStatus
  else if eventType ∈ [Wlc.eJoin, Wlc.eStart, Wlc.eLink, Wlc.eNdisLink, Wlc.eSetSsid,
      Wlc.eDisassocInd, Wlc.eDeauthInd] then some .connectStatus
  else if eventType = Wlc.eRoam then some .roamingStatus
  else if eventType = Wlc.eMicError then some .micStatus
  else none

def Handler.run (e : WlEventMsg) (answers : Answers) (priv : Priv) : Handler → ℤ × Priv
  | .connectStatus => wlNotifyConnectStatus e answers priv
  | .roamingStatus => wlNotifyRoamingStatus e answers priv
  | .scanStatus => wlNotifyScanStatus answers priv
  | .micStatus => wlNotifyMicStatus e priv

/-- The dispatch in `wl_event_handler`. -/
def handleEvent (e : WlEventMsg) (answers : Answers) (priv : Priv) : Priv :=
  match wlInitEloopHandler e.eventType with
  | some handler => (handler.run e answers priv).2
  | none => priv

/-- One handled event with the answers it met. -/
structure Handled where
  e : WlEventMsg
  answers : Answers

/-- Events are handled one after the other, from any state and in any mode. -/
def eventMachine : Machine Priv Handled where
  initial _ := True
  step priv handled := some (handleEvent handled.e handled.answers priv)

/-! ## What handlers leave alone -/

theorem completeScan_frame (aborted : Bool) (priv : Priv) :
    (completeScan aborted priv).mode = priv.mode ∧
      (completeScan aborted priv).connecting = priv.connecting := by
  unfold completeScan
  split <;> exact ⟨rfl, rfl⟩

theorem wlGetAssocIes_frame (answers : Answers) (priv : Priv) :
    (wlGetAssocIes answers priv).2.mode = priv.mode ∧
      (wlGetAssocIes answers priv).2.connecting = priv.connecting := by
  unfold wlGetAssocIes
  dsimp only
  split
  · exact ⟨rfl, rfl⟩
  · split <;> exact ⟨rfl, rfl⟩

theorem wlBssRoamingDone_frame (e : WlEventMsg) (answers : Answers) (priv : Priv) :
    (wlBssRoamingDone e answers priv).2.mode = priv.mode ∧
      (wlBssRoamingDone e answers priv).2.connecting = priv.connecting := by
  have hframe := wlGetAssocIes_frame answers priv
  unfold wlBssRoamingDone
  dsimp only
  split
  · exact hframe
  · split <;> exact hframe

/-! ## The connected bit -/

/-- The events that stand for a real loss of link. -/
def LinkLoss (e : WlEventMsg) : Prop :=
  (e.eventType = Wlc.eLink ∧ e.flags &&& Wlc.eventMsgLink = 0) ∨
    e.eventType = Wlc.eDeauthInd ∨ e.eventType = Wlc.eDisassocInd

/-- The event does not end a connection unless it is a loss of link. -/
def OnlyLinkLoss (priv : Priv) (handled : Handled) : Prop :=
  priv.connected = true → (handleEvent handled.e handled.answers priv).connected = false →
    LinkLoss handled.e

/-- A link comes up in IBSS mode while the connection exists. -/
def IbssLinkUp (priv : Priv) (handled : Handled) : Prop :=
  wlIsIbssmode priv = true ∧ priv.connected = true ∧ handled.e.eventType = Wlc.eLink ∧
    handled.e.flags &&& Wlc.eventMsgLink ≠ 0

variable {e : WlEventMsg} {answers : Answers} {priv : Priv}

@[simp]
theorem call_connected (upcall : Upcall) : (priv.call upcall).connected = priv.connected := rfl

@[simp]
theorem completeScan_connected (aborted : Bool) :
    (completeScan aborted priv).connected = priv.connected := by
  unfold completeScan
  split <;> rfl

@[simp]
theorem wlGetAssocIes_connected : (wlGetAssocIes answers priv).2.connected = priv.connected := by
  unfold wlGetAssocIes
  dsimp only
  split
  · rfl
  · split <;> rfl

@[simp]
theorem dropAssociation_connected : (dropAssociation priv).connected = false := rfl

theorem wlBssConnectDone_connected (completed : Bool) (h : priv.connected = true) :
    (wlBssConnectDone e answers completed priv).2.connected = true := by
  unfold wlBssConnectDone testAndClearConnecting
  dsimp only
  split
  · cases completed <;> simp [reportConnectResult, storeAssociation, h]
  · simp [h]

theorem wlBssRoamingDone_connected (h : priv.connected = true) :
    (wlBssRoamingDone e answers priv).2.connected = true := by
  unfold wlBssRoamingDone
  dsimp only
  split
  · simp [h]
  · split <;> simp [h]

/-- The complement of the masked flags is never zero. -/
theorem notLinkFlag_eq_true (flags : UInt16) : notLinkFlag flags = true := by
  unfold notLinkFlag
  rw [bne_iff_ne]
  intro hzero
  have hmask : (flags &&& Wlc.eventMsgLink).toUInt32 = 0xFFFFFFFF := by
    have hnot := congrArg (~~~·) hzero
    rwa [UInt32.not_not] at hnot
  have hlt := (flags &&& Wlc.eventMsgLink).toNat_lt
  rw [← UInt16.toNat_toUInt32, hmask] at hlt
  exact absurd hlt (by decide)

theorem lostLinkTest_eq_true_iff :
    lostLinkTest e = true ↔ e.eventType = Wlc.eLink ∨ e.eventType = Wlc.eDeauthInd ∨
      e.eventType = Wlc.eDisassocInd := by
  simp [lostLinkTest, notLinkFlag_eq_true, or_assoc]

/-- The branch for a lost link is right once the events of a link that came up are out of the
way. -/
theorem linkLoss_of_lostLinkTest (h : lostLinkTest e = true)
    (hup : ¬(e.eventType = Wlc.eLink ∧ e.flags &&& Wlc.eventMsgLink ≠ 0)) : LinkLoss e := by
  rcases lostLinkTest_eq_true_iff.mp h with hlink | hind
  · have hflag : e.flags &&& Wlc.eventMsgLink = 0 := by
      by_contra hne
      exact hup ⟨hlink, hne⟩
    exact .inl ⟨hlink, hflag⟩
  · exact .inr hind

/-- In BSS mode events of a link that came up never reach the branch for a lost link. -/
theorem notifyConnectStatusBss_connected (h : priv.connected = true) (hloss : ¬LinkLoss e) :
    (notifyConnectStatusBss e answers priv).2.connected = true := by
  unfold notifyConnectStatusBss
  split
  · exact wlBssConnectDone_connected true h
  rename_i hup
  split
  · rename_i hlost
    exact absurd (linkLoss_of_lostLinkTest hlost hup) hloss
  · split
    · exact wlBssConnectDone_connected false h
    · exact h

theorem notifyConnectStatusIbss_connected (h : priv.connected = true) (hloss : ¬LinkLoss e)
    (hup : ¬(e.eventType = Wlc.eLink ∧ e.flags &&& Wlc.eventMsgLink ≠ 0)) :
    (notifyConnectStatusIbss e answers priv).2.connected = true := by
  unfold notifyConnectStatusIbss
  dsimp only
  split
  · split
    · simp [h]
    · rfl
  · split
    · rename_i hlost
      exact absurd (linkLoss_of_lostLinkTest hlost hup) hloss
    · exact h

/-- Every `LINK` event clears the bit in IBSS mode. -/
theorem notifyConnectStatusIbss_link (hlink : e.eventType = Wlc.eLink) :
    (notifyConnectStatusIbss e answers priv).2.connected = false := by
  have hjoin : ¬(e.eventType = Wlc.eJoin ∨ e.eventType = Wlc.eStart) := by
    rw [hlink]
    decide
  rw [notifyConnectStatusIbss, if_neg hjoin, if_pos (lostLinkTest_eq_true_iff.mpr (.inl hlink))]
  rfl

theorem onlyLinkLoss_of_not_ibssLinkUp {handled : Handled} (h : ¬IbssLinkUp priv handled) :
    OnlyLinkLoss priv handled := by
  obtain ⟨e, answers⟩ := handled
  intro hconnected hcleared
  by_contra hloss
  rw [← Bool.not_eq_true] at hcleared
  refine hcleared ?_
  unfold handleEvent
  split
  · rename_i handler _
    cases handler with
    | connectStatus =>
      change (wlNotifyConnectStatus e answers priv).2.connected = true
      unfold wlNotifyConnectStatus
      split
      · rename_i hibss
        have hup : ¬(e.eventType = Wlc.eLink ∧ e.flags &&& Wlc.eventMsgLink ≠ 0) := fun hup ↦
          h ⟨hibss, hconnected, hup⟩
        exact notifyConnectStatusIbss_connected hconnected hloss hup
      · exact notifyConnectStatusBss_connected hconnected hloss
    | roamingStatus =>
      change (wlNotifyRoamingStatus e answers priv).2.connected = true
      unfold wlNotifyRoamingStatus
      split
      · exact wlBssRoamingDone_connected hconnected
      · exact hconnected
    | scanStatus => exact (completeScan_connected false).trans hconnected
    | micStatus => exact hconnected
  · exact hconnected

theorem not_onlyLinkLoss_of_ibssLinkUp {handled : Handled} (h : IbssLinkUp priv handled) :
    ¬OnlyLinkLoss priv handled := by
  obtain ⟨e, answers⟩ := handled
  obtain ⟨hibss, hconnected, hlink, hflag⟩ := h
  have hhandler : wlInitEloopHandler e.eventType = some .connectStatus := by
    rw [hlink]
    decide
  have hcleared : (handleEvent e answers priv).connected = false := by
    rw [handleEvent, hhandler]
    change (wlNotifyConnectStatus e answers priv).2.connected = false
    rw [wlNotifyConnectStatus, if_pos hibss]
    exact notifyConnectStatusIbss_link hlink
  intro honly
  rcases honly hconnected hcleared with ⟨_, hzero⟩ | hdeauth | hdisassoc
  · exact hflag hzero
  · rw [hlink] at hdeauth
    exact absurd hdeauth (by decide)
  · rw [hlink] at hdisassoc
    exact absurd hdisassoc (by decide)

/-- From any state, in any mode and for any sequence of events: the bit is only cleared by a loss
of link exactly when no link comes up in IBSS mode while the connection exists. -/
theorem connected_cleared_by_link_loss_iff (start : Priv) (events : List Handled) :
    eventMachine.Along OnlyLinkLoss start events ↔
      eventMachine.Along (fun priv handled ↦ ¬IbssLinkUp priv handled) start events := by
  have hcondition : ∀ priv handled, True → (OnlyLinkLoss priv handled ↔ ¬IbssLinkUp priv handled) :=
    fun priv handled _ ↦ ⟨fun honly hup ↦ not_onlyLinkLoss_of_ibssLinkUp hup honly,
      onlyLinkLoss_of_not_ibssLinkUp⟩
  exact Machine.along_congr hcondition (fun _ _ _ _ _ _ ↦ trivial) trivial

/-- An IBSS is joined and the connection established; then the link comes up. -/
def ibssStart : Priv where
  mode := .ibss
  scanRequest := none
  bssid := Vector.replicate 6 0
  profile := wlInitProf
  connInfo := ⟨⟨none, 0⟩, ⟨none, 0⟩⟩
  connecting := false
  connected := false
  heap := ⟨0, fun _ ↦ [], fun _ ↦ 0⟩
  upcalls := []

def noElements : Answers :=
  ⟨0, ⟨0, 0, fun _ ↦ 0, true⟩, ⟨0, 0, fun _ ↦ 0, true⟩, 0, 0, 6, 0⟩

def joinEvent : WlEventMsg := ⟨Wlc.eJoin, 0, 0, Vector.replicate 6 2⟩

def linkUpEvent : WlEventMsg := ⟨Wlc.eLink, 1, 0, Vector.replicate 6 2⟩

theorem ibss_link_up_clears_connected :
    (handleEvent joinEvent noElements ibssStart).connected = true ∧
      ¬eventMachine.Along OnlyLinkLoss ibssStart
        [⟨joinEvent, noElements⟩, ⟨linkUpEvent, noElements⟩] := by
  refine ⟨by decide, fun halong ↦ ?_⟩
  have hsecond := (halong.2 _ rfl).1
  have hloss : LinkLoss linkUpEvent := hsecond (by decide) (by decide)
  rcases hloss with ⟨_, hzero⟩ | hdeauth | hdisassoc
  · exact absurd hzero (by decide)
  · exact absurd hdeauth (by decide)
  · exact absurd hdisassoc (by decide)

end BroadcomWl.Cfg80211
