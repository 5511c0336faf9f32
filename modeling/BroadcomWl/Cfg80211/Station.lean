import BroadcomWl.Cfg80211.Coherence

/-!
# What is said of the access point

`wl_cfg80211_get_station` answers for the address in `wl->profile`, and reports a signal while
`WL_STATUS_CONNECTED` is set. cfg80211 itself goes by the associations that it was told of.

The two agree as long as the address in the profile changes only together with such a report. A
connect call writes it before there is a result, a roam whose report is dropped leaves it behind,
and an IBSS never writes it. The module says exactly which sessions report a signal for the
announced access point only.
-/

namespace BroadcomWl.Cfg80211.Station

open BroadcomWl.Systems

def enoent : ℤ := 2

def nl80211StaInfoSignal : UInt64 := 0x80
def nl80211StaInfoTxBitrate : UInt64 := 0x100

/-- `struct station_info`, as far as it is used. -/
structure StationInfo where
  filled : UInt64
  txrateLegacy : UInt16
  signal : Int8
deriving DecidableEq, Repr

/-- The answers to `WLC_GET_RATE` and to `WLC_GET_RSSI`. -/
structure StationAnswers where
  rateErr : ℤ
  rate : Int32
  rssiErr : ℤ
  val : UInt32

/-- `wl_cfg80211_get_station`: a rate that could not be read is only logged. -/
def wlCfg80211GetStation (mac : EtherAddr) (answers : StationAnswers) (priv : Priv)
    (sinfo : StationInfo) : ℤ × StationInfo :=
  if mac ≠ priv.profile.bssid then (-enoent, sinfo)
  else
    let sinfo :=
      if answers.rateErr ≠ 0 then sinfo
      else
        { sinfo with
          filled := sinfo.filled ||| nl80211StaInfoTxBitrate
          txrateLegacy := (answers.rate * 5).toUInt32.toUInt16 }
    if priv.connected then
      if answers.rssiErr ≠ 0 then (answers.rssiErr, sinfo)
      else
        (0, { sinfo with
          filled := sinfo.filled ||| nl80211StaInfoSignal
          signal := answers.val.toInt32.toInt8 })
    else (answers.rateErr, sinfo)

/-! ## Announcements -/

/-- The association that cfg80211 knows of after a call; a result other than success ends one. -/
def tell (known : Option EtherAddr) : Upcall → Option EtherAddr
  | .connectResult bssid _ success => if success then some bssid else none
  | .roamed bssid _ => some bssid
  | .ibssJoined bssid _ _ => some bssid
  | .disconnected => none
  | .scanDone _ _ | .michaelMicFailure _ _ => known

def told (priv : Priv) : Option EtherAddr := priv.upcalls.foldl tell none

theorem told_call (priv : Priv) (upcall : Upcall) :
    told (priv.call upcall) = tell (told priv) upcall := List.foldl_concat ..

/-- The answer to a query has a signal. -/
def ReportsSignal (priv : Priv) (mac : EtherAddr) (answers : StationAnswers) : Prop :=
  (wlCfg80211GetStation mac answers priv ⟨0, 0, 0⟩).2.filled &&& nl80211StaInfoSignal ≠ 0

/-- A signal is only reported for the association that cfg80211 was told of. -/
def Announced (priv : Priv) : Prop :=
  ∀ mac answers, ReportsSignal priv mac answers → told priv = some mac

theorem reportsSignal_iff {priv : Priv} {mac : EtherAddr} {answers : StationAnswers} :
    ReportsSignal priv mac answers ↔
      mac = priv.profile.bssid ∧ priv.connected = true ∧ answers.rssiErr = 0 := by
  unfold ReportsSignal wlCfg80211GetStation
  by_cases hmac : mac = priv.profile.bssid
  · cases priv.connected <;> by_cases hrssi : answers.rssiErr = 0 <;>
      by_cases hrate : answers.rateErr = 0 <;> simp [hmac, hrssi, hrate] <;> decide
  · simp [hmac]

theorem announced_iff {priv : Priv} :
    Announced priv ↔ (priv.connected = true → told priv = some priv.profile.bssid) := by
  constructor
  · intro h hconnected
    exact h priv.profile.bssid ⟨0, 0, 0, 0⟩ (reportsSignal_iff.mpr ⟨rfl, hconnected, rfl⟩)
  · intro h mac answers hsignal
    obtain ⟨rfl, hconnected, -⟩ := reportsSignal_iff.mp hsignal
    exact h hconnected

/-- Neither the answers to queries nor the association that was announced change. -/
structure SameStation (priv next : Priv) : Prop where
  connected : next.connected = priv.connected
  bssid : next.profile.bssid = priv.profile.bssid
  told : told next = told priv

theorem SameStation.refl (priv : Priv) : SameStation priv priv := ⟨rfl, rfl, rfl⟩

theorem SameStation.trans {first second third : Priv} (h : SameStation first second)
    (hnext : SameStation second third) : SameStation first third :=
  ⟨hnext.connected.trans h.connected, hnext.bssid.trans h.bssid, hnext.told.trans h.told⟩

theorem SameStation.announced {priv next : Priv} (h : SameStation priv next)
    (hannounced : Announced priv) : Announced next := by
  rw [announced_iff] at *
  rw [h.connected, h.bssid, h.told]
  exact hannounced

/-- Without a connection there is nothing to report. -/
theorem announced_of_not_connected {priv : Priv} (h : priv.connected = false) : Announced priv :=
  announced_iff.mpr fun hconnected ↦ absurd (h.symm.trans hconnected) Bool.false_ne_true

theorem announced_of_told {priv : Priv} (h : told priv = some priv.profile.bssid) :
    Announced priv :=
  announced_iff.mpr fun _ ↦ h

theorem announced_iff_of_not_told {priv : Priv} (h : told priv = none) :
    Announced priv ↔ priv.connected = false := by
  rw [announced_iff, h, ← Bool.not_eq_true]
  exact forall_congr' fun _ ↦ iff_of_false (Option.some_ne_none _).symm not_false

/-- Another address in the profile, with nothing announced, only matters while there is a
connection. -/
theorem announced_rename_iff {priv next : Priv} (h : Announced priv)
    (hconnected : next.connected = priv.connected) (htold : told next = told priv) :
    Announced next ↔
      (priv.connected = true → next.profile.bssid = priv.profile.bssid) := by
  rw [announced_iff] at *
  rw [hconnected, htold]
  refine forall_congr' fun hpriv ↦ ?_
  rw [h hpriv, Option.some_inj]
  exact eq_comm

theorem sameStation_completeScan (aborted : Bool) (priv : Priv) :
    SameStation priv (completeScan aborted priv) := by
  unfold completeScan
  split
  · exact .refl priv
  · exact ⟨rfl, rfl, told_call priv _⟩

theorem sameStation_wlGetAssocIes (answers : Answers) (priv : Priv) :
    SameStation priv (wlGetAssocIes answers priv).2 := by
  unfold wlGetAssocIes
  dsimp only
  split
  · exact .refl priv
  · split <;> exact ⟨rfl, rfl, rfl⟩

/-! ## Events -/

variable {e : WlEventMsg} {answers : Answers} {priv : Priv}

/-- A join that completed is announced, if it was awaited. -/
theorem announced_wlBssConnectDone_true (h : Announced priv) :
    Announced (wlBssConnectDone e answers true priv).2 := by
  have hscan := sameStation_completeScan true priv
  unfold wlBssConnectDone testAndClearConnecting
  dsimp only
  split
  · refine announced_of_told ?_
    unfold reportConnectResult
    rw [told_call]
    rfl
  · exact (hscan.trans ⟨rfl, rfl, rfl⟩).announced h

/-- A join that failed ends the announced association, if it was awaited. -/
theorem announced_wlBssConnectDone_false_iff (h : Announced priv) :
    Announced (wlBssConnectDone e answers false priv).2 ↔
      (priv.connecting = true → priv.connected = false) := by
  have hscan := sameStation_completeScan true priv
  have hconnecting : (completeScan true priv).connecting = priv.connecting :=
    (completeScan_frame true priv).2
  unfold wlBssConnectDone testAndClearConnecting
  dsimp only
  rw [hconnecting]
  cases hawaited : priv.connecting with
  | false =>
    refine iff_of_true ?_ fun hfalse ↦ absurd hfalse Bool.false_ne_true
    exact (hscan.trans ⟨rfl, rfl, rfl⟩).announced h
  | true =>
    rw [if_pos rfl, announced_iff_of_not_told (told_call ..), forall_prop_of_true rfl]
    exact Eq.congr_left hscan.connected

/-- The events that leave only the announced association to be reported: an IBSS that is joined has
the address of the profile, no join fails while there is a connection, and a roam that is not
announced does not change the access point. -/
structure Tells (priv : Priv) (e : WlEventMsg) (answers : Answers) : Prop where
  ibss : wlIsIbssmode priv = true → e.eventType = Wlc.eJoin ∨ e.eventType = Wlc.eStart →
    answers.chanspecErr = 0 → e.addr = priv.profile.bssid
  failed : wlIsIbssmode priv = false → e.eventType = Wlc.eSetSsid →
    e.status = Wlc.eStatusNoNetworks → priv.connecting = true → priv.connected = false
  roam : e.eventType = Wlc.eRoam → e.status = Wlc.eStatusSuccess →
    (wlGetAssocIes answers priv).1 = 0 → answers.bssErr ≠ 0 → priv.connected = true →
      e.addr = priv.profile.bssid

theorem announced_notifyConnectStatusIbss_iff (h : Announced priv) :
    Announced (notifyConnectStatusIbss e answers priv).2 ↔
      (e.eventType = Wlc.eJoin ∨ e.eventType = Wlc.eStart → answers.chanspecErr = 0 →
        e.addr = priv.profile.bssid) := by
  have hies := sameStation_wlGetAssocIes answers priv
  unfold notifyConnectStatusIbss
  by_cases hjoin : e.eventType = Wlc.eJoin ∨ e.eventType = Wlc.eStart
  · rw [if_pos hjoin, forall_prop_of_true hjoin]
    dsimp only
    by_cases herr : answers.chanspecErr = 0
    · rw [if_neg (not_not.mpr herr), forall_prop_of_true herr, announced_iff]
      have htold : told ({ (wlGetAssocIes answers priv).2 with bssid := e.addr }.call
          (.ibssJoined e.addr answers.ctlchan (decide (answers.ctlchan ≤ Wlc.chMax2gChannel)))) =
            some e.addr := told_call ..
      refine (forall_prop_of_true rfl).trans (Eq.congr htold ?_ |>.trans Option.some_inj)
      exact congrArg some hies.bssid
    · rw [if_pos herr, forall_prop_of_false herr]
      exact iff_of_true ((hies.trans ⟨rfl, rfl, rfl⟩).announced h) trivial
  · rw [if_neg hjoin, forall_prop_of_false hjoin]
    refine iff_of_true ?_ trivial
    split
    · exact announced_of_not_connected rfl
    · exact h

theorem announced_notifyConnectStatusBss_iff (h : Announced priv) :
    Announced (notifyConnectStatusBss e answers priv).2 ↔
      (e.eventType = Wlc.eSetSsid → e.status = Wlc.eStatusNoNetworks →
        priv.connecting = true → priv.connected = false) := by
  unfold notifyConnectStatusBss
  by_cases hfailed : e.eventType = Wlc.eSetSsid ∧ e.status = Wlc.eStatusNoNetworks
  · have hup : ¬(e.eventType = Wlc.eLink ∧ e.flags &&& Wlc.eventMsgLink ≠ 0) := by
      rw [hfailed.1]
      exact fun h ↦ absurd h.1 (by decide)
    have hlost : ¬lostLinkTest e = true := by
      rw [lostLinkTest_eq_true_iff, hfailed.1]
      decide
    rw [if_neg hup, if_neg hlost, if_pos hfailed, forall_prop_of_true hfailed.1,
      forall_prop_of_true hfailed.2]
    exact announced_wlBssConnectDone_false_iff h
  · refine iff_of_true ?_ fun htype hstatus ↦ absurd ⟨htype, hstatus⟩ hfailed
    split
    · have hdone := @announced_wlBssConnectDone_true e answers priv h
      exact (SameStation.mk rfl rfl rfl).announced hdone
    · split
      · exact announced_of_not_connected rfl
      · exact h

theorem announced_wlNotifyRoamingStatus_iff (h : Announced priv) :
    Announced (wlNotifyRoamingStatus e answers priv).2 ↔
      (e.status = Wlc.eStatusSuccess → (wlGetAssocIes answers priv).1 = 0 →
        answers.bssErr ≠ 0 → priv.connected = true → e.addr = priv.profile.bssid) := by
  have hies := sameStation_wlGetAssocIes answers priv
  unfold wlNotifyRoamingStatus wlBssRoamingDone
  by_cases hstatus : e.status = Wlc.eStatusSuccess
  · rw [if_pos hstatus, forall_prop_of_true hstatus]
    dsimp only
    by_cases herr : (wlGetAssocIes answers priv).1 = 0
    · rw [if_neg (not_not.mpr herr), forall_prop_of_true herr]
      by_cases hbss : answers.bssErr = 0
      · rw [if_neg (not_not.mpr hbss), forall_prop_of_false (not_not.mpr hbss)]
        exact iff_of_true (announced_of_told (told_call ..)) trivial
      · rw [if_pos hbss, forall_prop_of_true hbss]
        exact announced_rename_iff h hies.connected hies.told
    · rw [if_pos herr, forall_prop_of_false herr]
      exact iff_of_true ((hies.trans ⟨rfl, rfl, rfl⟩).announced h) trivial
  · rw [if_neg hstatus, forall_prop_of_false hstatus]
    exact iff_of_true h trivial

/-- Events that neither of the two handlers gets meet the conditions. -/
theorem tells_of_other (hconnect : wlInitEloopHandler e.eventType ≠ some .connectStatus)
    (hroaming : wlInitEloopHandler e.eventType ≠ some .roamingStatus) : Tells priv e answers where
  ibss _ htype := by
    refine absurd ?_ hconnect
    rcases htype with htype | htype <;> rw [htype] <;> decide
  failed _ htype := by
    refine absurd ?_ hconnect
    rw [htype]
    decide
  roam htype := by
    refine absurd ?_ hroaming
    rw [htype]
    decide

theorem announced_handleEvent_iff (h : Announced priv) :
    Announced (handleEvent e answers priv) ↔ Tells priv e answers := by
  unfold handleEvent
  cases hhandler : wlInitEloopHandler e.eventType with
  | none => exact iff_of_true h (tells_of_other (by simp [hhandler]) (by simp [hhandler]))
  | some handler =>
    cases handler with
    | connectStatus =>
      have hroam : e.eventType ≠ Wlc.eRoam := by
        intro htype
        rw [htype] at hhandler
        exact absurd hhandler (by decide)
      change Announced (wlNotifyConnectStatus e answers priv).2 ↔ _
      unfold wlNotifyConnectStatus
      cases hmode : wlIsIbssmode priv with
      | true =>
        rw [if_pos rfl, announced_notifyConnectStatusIbss_iff h]
        refine ⟨fun hibss ↦ ⟨fun _ ↦ hibss, ?_, ?_⟩, fun htells ↦ htells.ibss hmode⟩
        · exact fun hbss ↦ absurd (hmode.symm.trans hbss) Bool.false_ne_true.symm
        · exact fun htype ↦ absurd htype hroam
      | false =>
        rw [if_neg Bool.false_ne_true, announced_notifyConnectStatusBss_iff h]
        refine ⟨fun hfailed ↦ ⟨?_, fun _ ↦ hfailed, ?_⟩, fun htells ↦ htells.failed hmode⟩
        · exact fun hibss ↦ absurd (hmode.symm.trans hibss) Bool.false_ne_true
        · exact fun htype ↦ absurd htype hroam
    | roamingStatus =>
      have htype : e.eventType = Wlc.eRoam := by
        unfold wlInitEloopHandler at hhandler
        by_contra hroam
        rw [if_neg hroam] at hhandler
        split_ifs at hhandler <;> cases hhandler
      change Announced (wlNotifyRoamingStatus e answers priv).2 ↔ _
      rw [announced_wlNotifyRoamingStatus_iff h]
      refine ⟨fun hroam ↦ ⟨fun _ hjoin ↦ ?_, fun _ hssid ↦ ?_, fun _ ↦ hroam⟩,
        fun htells ↦ htells.roam htype⟩
      · rw [htype] at hjoin
        exact absurd hjoin (by decide)
      · rw [htype] at hssid
        exact absurd hssid (by decide)
    | scanStatus =>
      refine iff_of_true ?_ (tells_of_other (by simp [hhandler]) (by simp [hhandler]))
      exact (sameStation_completeScan false priv).announced h
    | micStatus =>
      refine iff_of_true ?_ (tells_of_other (by simp [hhandler]) (by simp [hhandler]))
      have hsame : SameStation priv (wlNotifyMicStatus e priv).2 := ⟨rfl, rfl, told_call priv _⟩
      exact hsame.announced h

/-! ## Calls -/

section Sessions

variable {Device : Type*} {firmware : Firmware Device}

variable (firmware) in
/-- What `wl_cfg80211_connect` does before it notes the network. -/
def setSecurity (sme : ConnectParams) (world : World Device) : ℤ × World Device :=
  ifOk (wlSetAuthType firmware sme world) fun world ↦
  ifOk (wlSetWpaVersion firmware sme world) fun world ↦
  ifOk (wlSetSetCipher firmware sme world) fun world ↦
  ifOk (wlSetKeyMgmt firmware sme world) fun world ↦
  wlSetSetSharedkey firmware sme world

theorem ifOk_assoc (result : ℤ × World Device) (first second : World Device → ℤ × World Device) :
    ifOk (ifOk result first) second = ifOk result fun world ↦ ifOk (first world) second := by
  unfold ifOk
  by_cases herr : result.1 = 0
  · rw [if_neg (not_not.mpr herr), if_neg (not_not.mpr herr)]
  · rw [if_pos herr, if_pos herr, if_pos herr]

theorem wlCfg80211Connect_eq (sme : ConnectParams) (ssid : Ssid) (world : World Device)
    (h : sme.ssid = some ssid) :
    wlCfg80211Connect firmware sme world =
      ifOk (setSecurity firmware sme world) (joinBss firmware sme ssid) := by
  unfold wlCfg80211Connect setSecurity
  rw [h]
  simp only [ifOk_assoc]

theorem onlySec_setSecurity (sme : ConnectParams) (world : World Device) :
    OnlySec world.priv (setSecurity firmware sme world).2.priv := by
  refine ifOk_rule ((OnlySec.refl _).wlSetAuthType sme) fun _ hworld ↦ ?_
  refine ifOk_rule (hworld.wlSetWpaVersion sme) fun _ hworld ↦ ?_
  refine ifOk_rule (hworld.wlSetSetCipher sme) fun _ hworld ↦ ?_
  exact ifOk_rule (hworld.wlSetKeyMgmt sme) fun _ hworld ↦ hworld.wlSetSetSharedkey sme

/-- The address that a connect call leaves in the profile. -/
theorem wlCfg80211Connect_bssid (sme : ConnectParams) (world : World Device) :
    (wlCfg80211Connect firmware sme world).2.priv.profile.bssid =
      if sme.ssid.isSome ∧ (setSecurity firmware sme world).1 = 0 then
        sme.bssid.getD (Vector.replicate 6 0)
      else world.priv.profile.bssid := by
  cases hssid : sme.ssid with
  | none =>
    unfold wlCfg80211Connect
    rw [hssid]
    rfl
  | some ssid =>
    obtain ⟨sec, hsec⟩ := @onlySec_setSecurity _ firmware sme world
    rw [wlCfg80211Connect_eq sme ssid world hssid]
    unfold ifOk
    by_cases herr : (setSecurity firmware sme world).1 = 0
    · rw [if_neg (not_not.mpr herr), if_pos ⟨rfl, herr⟩]
      unfold joinBss ifOk
      dsimp only
      split <;> rfl
    · rw [if_pos herr, if_neg (fun h ↦ herr h.2), hsec]

/-- The actions that leave only the announced association to be reported: an event that does, and a
call other than one to connect to another address while there is a connection. -/
def Respects (firmware : Firmware Device) (session : Session Device) : Action → Prop
  | .event handled => Tells session.world.priv handled.e handled.answers
  | .call (.connect sme) =>
      session.world.priv.connected = true → sme.ssid.isSome →
        (setSecurity firmware sme session.world).1 = 0 →
          sme.bssid.getD (Vector.replicate 6 0) = session.world.priv.profile.bssid
  | .call _ => True

theorem announced_connect_iff {session : Session Device} (h : Announced session.world.priv)
    (sme : ConnectParams) :
    Announced (wlCfg80211Connect firmware sme session.world).2.priv ↔
      Respects firmware session (.call (.connect sme)) := by
  obtain ⟨profile, -, hpriv⟩ := @connects_wlCfg80211Connect _ firmware sme session.world
  have hconnected := congrArg Priv.connected hpriv
  have htold : told (wlCfg80211Connect firmware sme session.world).2.priv =
      told session.world.priv := (congrArg told hpriv).trans rfl
  rw [announced_rename_iff h hconnected htold, wlCfg80211Connect_bssid]
  refine forall_congr' fun _ ↦ ?_
  by_cases hjoins : sme.ssid.isSome ∧ (setSecurity firmware sme session.world).1 = 0
  · rw [if_pos hjoins, forall_prop_of_true hjoins.1, forall_prop_of_true hjoins.2]
  · rw [if_neg hjoins]
    exact iff_of_true rfl fun hssid herr ↦ absurd ⟨hssid, herr⟩ hjoins

/-- The other calls change neither the profile nor what was announced. -/
theorem sameStation_step (session : Session Device) {call : Call}
    (hcall : ∀ sme, call ≠ .connect sme) :
    SameStation session.world.priv (session.step firmware (.call call)).world.priv := by
  cases call with
  | connect sme => exact absurd rfl (hcall sme)
  | disconnect reasonCode =>
    change SameStation _ (wlCfg80211Disconnect firmware reasonCode session.world).2.priv
    rw [wlCfg80211Disconnect_priv]
    exact .refl _
  | changeIface type =>
    obtain ⟨mode, hpriv⟩ := @wlCfg80211ChangeIface_priv _ firmware type session.world
    change SameStation _ (wlCfg80211ChangeIface firmware type session.world).2.priv
    rw [hpriv]
    exact ⟨rfl, rfl, rfl⟩
  | joinIbss params =>
    change SameStation _ (wlCfg80211JoinIbss firmware params session.world).2.priv
    rw [wlCfg80211JoinIbss_priv]
    exact .refl _
  | leaveIbss => exact ⟨rfl, rfl, rfl⟩
  | scan request ssid =>
    obtain ⟨pending, hpriv⟩ := @wlCfg80211Scan_priv _ firmware request ssid session.world
    change SameStation _ (wlCfg80211Scan firmware request ssid session.world).2.priv
    rw [hpriv]
    exact ⟨rfl, rfl, rfl⟩

theorem announced_step_iff {session : Session Device} (h : Announced session.world.priv)
    (action : Action) :
    Announced (session.step firmware action).world.priv ↔ Respects firmware session action := by
  cases action with
  | event handled => exact announced_handleEvent_iff h
  | call call =>
    by_cases hconnect : ∃ sme, call = .connect sme
    · obtain ⟨sme, rfl⟩ := hconnect
      exact announced_connect_iff h sme
    · have hsame := @sameStation_step _ firmware session _ (not_exists.mp hconnect)
      refine iff_of_true (hsame.announced h) ?_
      cases call with
      | connect sme => exact absurd ⟨sme, rfl⟩ hconnect
      | disconnect | changeIface | joinIbss | leaveIbss | scan => trivial

/-- In every session, with any firmware, a query reports a signal only for the association that
cfg80211 was last told of, if and only if every action respects it, the events and the calls to
connect to another address while there is a connection. -/
theorem signals_announced_iff {start : Session Device}
    (h : (sessionMachine firmware).initial start) (actions : List Action) :
    (sessionMachine firmware).Along
        (fun session action ↦ Announced (session.step firmware action).world.priv) start actions ↔
      (sessionMachine firmware).Along (Respects firmware) start actions := by
  refine @Machine.along_congr _ _ _ (fun session ↦ Announced session.world.priv) _ _
    (fun session action hsession ↦ announced_step_iff hsession action)
    (fun session action next _ hannounced hstep ↦ ?_) _ _
    (announced_of_not_connected h.1.connected)
  cases hstep
  exact hannounced

end Sessions

/-- A network with an address of its own. -/
def otherNetwork : ConnectParams :=
  { openNetwork with bssid := some #v[2, 0, 0, 0, 0, 9] }

/-- A call to connect elsewhere, while there is a connection, makes the driver report the signal for
the new address. -/
theorem signals_announced_iff_elsewhere :
    ¬(sessionMachine acceptingFirmware).Along
      (fun session action ↦ Announced (session.step acceptingFirmware action).world.priv)
      attachedSession
      [.call (.connect openNetwork), .event ⟨linkUpEvent, noElements⟩,
        .call (.connect otherNetwork)] := by
  rw [signals_announced_iff ⟨⟨rfl, rfl, rfl, rfl, ⟨rfl, fun _ ↦ rfl⟩, rfl⟩, rfl⟩]
  intro h
  have hlast := ((h.2 _ rfl).2 _ rfl).1
  exact absurd (hlast rfl rfl rfl) (by decide)

end BroadcomWl.Cfg80211.Station
