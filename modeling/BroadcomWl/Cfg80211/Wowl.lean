import BroadcomWl.Memory.Bytes
import BroadcomWl.Systems.Machine

/-!
# What wakes the host

`wl_cfg80211_suspend` turns a request of cfg80211 into a word of trigger bits for the firmware. It
reads the word that the firmware has, adds the bits of the request, and writes it back; what an
earlier request has armed stays armed. A read that fails is reported to the log, and the value it
has left in its buffer is used.

The state is the firmware's word together with the triggers that were ever requested. All calls are
made while associated.
-/

namespace BroadcomWl.Cfg80211.Wowl

open BroadcomWl.Memory BroadcomWl.Systems

def wlWowlMagic : UInt32 := 0x1
def wlWowlDis : UInt32 := 0x4
def wlWowlBcn : UInt32 := 0x10
def wlWowlM1 : UInt32 := 0x40
def wlWowlGtkFailure : UInt32 := 0x400
def wlWowlKeyrot : UInt32 := 0x4000

/-- `struct cfg80211_wowlan`, as far as it is used. -/
structure Cfg80211Wowlan where
  disconnect : Bool
  magicPkt : Bool
  gtkRekeyFailure : Bool
  fourWayHandshake : Bool
deriving DecidableEq, Repr

/-- How the firmware answers: the errors of the read and of the write, and what a failed read
leaves in `var.val`. -/
structure Answers where
  getErr : ℤ
  leftover : UInt32
  setErr : ℤ
deriving DecidableEq, Repr

/-- `wl_dev_intvar_get`: the error, and the value that is stored in any case. -/
def wlDevIntvarGet (answers : Answers) (wowl : UInt32) : ℤ × UInt32 :=
  (answers.getErr, if answers.getErr = 0 then wowl else answers.leftover)

/-- `wl_cfg80211_suspend`: what it returns, and the firmware's word. -/
def wlCfg80211Suspend (connected : Bool) (answers : Answers) (request : Option Cfg80211Wowlan)
    (device : UInt32) : ℤ × UInt32 :=
  match request with
  | none => (0, device)
  | some wowlan =>
      if !connected then (0, device)
      else
        -- an error of the read is only logged
        let (_, wowl) := wlDevIntvarGet answers device
        let wowl := if wowlan.disconnect then wowl ||| (wlWowlDis ||| wlWowlBcn) else wowl
        let wowl := if wowlan.magicPkt then wowl ||| wlWowlMagic else wowl
        let wowl := if wowlan.gtkRekeyFailure then wowl ||| wlWowlGtkFailure else wowl
        let wowl := if wowlan.fourWayHandshake then wowl ||| wlWowlM1 else wowl
        let wowl := wowl ||| wlWowlKeyrot
        if answers.setErr = 0 then (0, wowl) else (answers.setErr, device)

/-! ## Runs -/

/-- The bits of the triggers of a request. -/
def Cfg80211Wowlan.bits (wowlan : Cfg80211Wowlan) : UInt32 :=
  (if wowlan.disconnect then wlWowlDis ||| wlWowlBcn else 0) |||
    (if wowlan.magicPkt then wlWowlMagic else 0) |||
    (if wowlan.gtkRekeyFailure then wlWowlGtkFailure else 0) |||
    (if wowlan.fourWayHandshake then wlWowlM1 else 0)

structure Call where
  request : Option Cfg80211Wowlan
  answers : Answers
deriving DecidableEq, Repr

structure State where
  wowl : UInt32
  requested : UInt32
deriving DecidableEq, Repr

/-- What a call returns while associated, and the state after it. -/
def execute (state : State) (call : Call) : ℤ × State :=
  let (err, wowl) := wlCfg80211Suspend true call.answers call.request state.wowl
  (err, ⟨wowl, state.requested ||| (call.request.map Cfg80211Wowlan.bits).getD 0⟩)

def suspend : Machine State Call where
  initial state := state = ⟨0, 0⟩
  step state call := some (execute state call).2

/-- After a request that was taken exactly its triggers are armed, and after a NULL request no
trigger that was ever requested. -/
def Call.Follows (state : State) (call : Call) : Prop :=
  match call.request with
  | some wowlan =>
      (execute state call).1 = 0 → (execute state call).2.wowl = wowlan.bits ||| wlWowlKeyrot
  | none => (execute state call).2.wowl &&& state.requested = 0

/-- The value that is read has no bit that is not requested, or the write fails; a NULL request
finds no requested trigger armed. -/
def Call.Fresh (state : State) (call : Call) : Prop :=
  match call.request with
  | some wowlan =>
      call.answers.setErr = 0 →
        (wlDevIntvarGet call.answers state.wowl).2 &&& ~~~(wowlan.bits ||| wlWowlKeyrot) = 0
  | none => state.wowl &&& state.requested = 0

/-- The bits of a request are added to what was read. -/
theorem suspend_request (answers : Answers) (wowlan : Cfg80211Wowlan) (device : UInt32) :
    wlCfg80211Suspend true answers (some wowlan) device =
      if answers.setErr = 0 then
        (0, (wlDevIntvarGet answers device).2 ||| (wowlan.bits ||| wlWowlKeyrot))
      else (answers.setErr, device) := by
  unfold wlCfg80211Suspend Cfg80211Wowlan.bits
  simp only [ite_or_eq]
  simp only [UInt32.or_assoc]
  rfl

theorem follows_iff_fresh (state : State) (call : Call) :
    call.Follows state ↔ call.Fresh state := by
  obtain ⟨request, answers⟩ := call
  cases request with
  | none => exact Iff.rfl
  | some wowlan =>
    unfold Call.Follows Call.Fresh execute
    dsimp only
    rw [suspend_request]
    by_cases herr : answers.setErr = 0
    · rw [if_pos herr, forall_prop_of_true rfl, forall_prop_of_true herr, or_eq_right_iff]
    · rw [if_neg herr]
      exact iff_of_true (fun h ↦ absurd h herr) (fun h ↦ absurd h herr)

/-- In a run of requests the armed triggers follow the requests if and only if every word that is
read and written back has no other bit than those requested, and no NULL request finds a requested
trigger armed. -/
theorem wake_triggers_iff (calls : List Call) :
    suspend.Along (fun state call ↦ call.Follows state) ⟨0, 0⟩ calls ↔
      suspend.Along (fun state call ↦ call.Fresh state) ⟨0, 0⟩ calls :=
  @Machine.along_congr _ _ suspend (fun _ ↦ True) _ _
    (fun state call _ ↦ follows_iff_fresh state call) (fun _ _ _ _ _ _ ↦ trivial) _ calls trivial

/-- Nothing but a disconnect. -/
def onDisconnect : Cfg80211Wowlan := ⟨true, false, false, false⟩

def onMagicPkt : Cfg80211Wowlan := ⟨false, true, false, false⟩

/-- A wake on disconnect is armed, then one on a magic packet: both are, and stay so when nothing is
requested any more. -/
theorem wakeOnDisconnect_stays :
    (execute (execute ⟨0, 0⟩ ⟨some onDisconnect, ⟨0, 0, 0⟩⟩).2
        ⟨some onMagicPkt, ⟨0, 0, 0⟩⟩).2.wowl =
      wlWowlDis ||| wlWowlBcn ||| wlWowlMagic ||| wlWowlKeyrot ∧
    ¬suspend.Along (fun state call ↦ call.Follows state) ⟨0, 0⟩
      [⟨some onDisconnect, ⟨0, 0, 0⟩⟩, ⟨some onMagicPkt, ⟨0, 0, 0⟩⟩] := by
  refine ⟨by decide, fun h ↦ ?_⟩
  have hsecond := (h.2 _ rfl).1
  exact absurd (hsecond rfl) (by decide)

end BroadcomWl.Cfg80211.Wowl
