import BroadcomWl.Cfg80211.Calls
import BroadcomWl.Memory.Bytes

/-!
# Authentication parameters of the wireless extensions

`wl_iw_set_wpaauth` sets one parameter of the association; which one, and to what, is in the
`struct iw_param`. The driver remembers the pairwise and the group ciphers and whether privacy was
invoked; the rest are variables of the firmware. `wl_iw_get_wpaauth` reads a parameter back.

The firmware is its variables, together with the answers that an operation gets: the errors of the
read, of the write, of the write of `is_WPS_enrollee`, and of the accesses to one-byte buffers. The
constants of the wireless extensions are those of the kernel's interface.
-/

namespace BroadcomWl.Wext.IwAuth

open BroadcomWl.Memory BroadcomWl.Systems
open BroadcomWl.Cfg80211 (wepEnabled tkipEnabled aesEnabled wpaAuthDisabled wpaAuthNone
  wpaAuthUnspecified wpaAuthPsk wpa2AuthUnspecified wpa2AuthPsk)

def iwAuthIndex : UInt16 := 0x0FFF

def iwAuthWpaVersionDisabled : UInt32 := 0x01
def iwAuthWpaVersionWpa : UInt32 := 0x02
def iwAuthWpaVersionWpa2 : UInt32 := 0x04

def iwAuthCipherWep40 : UInt32 := 0x02
def iwAuthCipherTkip : UInt32 := 0x04
def iwAuthCipherCcmp : UInt32 := 0x08
def iwAuthCipherWep104 : UInt32 := 0x10

def iwAuthKeyMgmt8021x : UInt32 := 1
def iwAuthKeyMgmtPsk : UInt32 := 2

def iwAuthAlgOpenSystem : UInt32 := 1
def iwAuthAlgSharedKey : UInt32 := 2

/-- `struct iw_param`, as far as it is used. -/
structure IwParam where
  value : Int32
  flags : UInt16
deriving DecidableEq, Repr

/-- The parameters `IW_AUTH_*`. -/
inductive AuthParam where
  | wpaVersion
  | cipherPairwise
  | cipherGroup
  | keyMgmt
  | tkipCountermeasures
  | dropUnencrypted
  | auth80211Alg
  | wpaEnabled
  | rxUnencryptedEapol
  | roamingControl
  | privacyInvoked
deriving DecidableEq, Repr

/-- `vwrq->flags & IW_AUTH_INDEX`, when it is one of the parameters. -/
def paramid (vwrq : IwParam) : Option AuthParam :=
  match (vwrq.flags &&& iwAuthIndex).toNat with
  | 0 => some .wpaVersion
  | 1 => some .cipherPairwise
  | 2 => some .cipherGroup
  | 3 => some .keyMgmt
  | 4 => some .tkipCountermeasures
  | 5 => some .dropUnencrypted
  | 6 => some .auth80211Alg
  | 7 => some .wpaEnabled
  | 8 => some .rxUnencryptedEapol
  | 9 => some .roamingControl
  | 10 => some .privacyInvoked
  | _ => none

/-- `struct wl_iw`, as far as it is used. -/
structure WlIw where
  pwsec : UInt32
  gwsec : UInt32
  privacyInvoked : Bool
deriving DecidableEq, Repr

/-- The variables of the firmware. -/
structure Device where
  wsec : UInt32
  wpaAuth : UInt32
  auth : UInt32
  isWpsEnrollee : Bool
  tkipCountermeasures : UInt8
  wsecRestrict : UInt8
  rxUnencryptedEapol : UInt8
deriving DecidableEq, Repr

structure State where
  iw : WlIw
  device : Device
deriving DecidableEq, Repr

/-- The errors that one operation gets. -/
structure Answers where
  get : ℤ
  set : ℤ
  setEnrollee : ℤ
  bufvar : ℤ
deriving DecidableEq, Repr

/-- `dev_wlc_intvar_set` or `dev_wlc_bufvar_set`: an error, or the new value of a variable. -/
def devWlcSet (error : ℤ) (set : Device → Device) (state : State) : ℤ × State :=
  if error = 0 then (0, { state with device := set state.device }) else (error, state)

def cipherMask : UInt32 := wepEnabled ||| tkipEnabled ||| aesEnabled

/-- `WSEC_ENABLED`. -/
def wsecEnabled (wsec : UInt32) : UInt32 := wsec &&& cipherMask

/-- The new value of `wsec`. -/
def combineCiphers (iw : WlIw) (wsec : UInt32) : UInt32 :=
  let cipherCombined := iw.gwsec ||| iw.pwsec
  let val := wsec &&& ~~~cipherMask
  let val := if cipherCombined &&& (iwAuthCipherWep40 ||| iwAuthCipherWep104) ≠ 0
    then val ||| wepEnabled else val
  let val := if cipherCombined &&& iwAuthCipherTkip ≠ 0 then val ||| tkipEnabled else val
  if cipherCombined &&& iwAuthCipherCcmp ≠ 0 then val ||| aesEnabled else val

/-- What becomes of `is_WPS_enrollee` when `wsec` is to be `val`. -/
def updateEnrollee (answers : Answers) (val : UInt32) (state : State) : ℤ × State :=
  if state.iw.privacyInvoked ∧ val = 0 then
    devWlcSet answers.setEnrollee ({ · with isWpsEnrollee := true }) state
  else if val ≠ 0 then
    devWlcSet answers.setEnrollee ({ · with isWpsEnrollee := false }) state
  else (0, state)

/-- The cases `IW_AUTH_CIPHER_PAIRWISE` and `IW_AUTH_CIPHER_GROUP`, once the value is stored. -/
def setCiphers (answers : Answers) (state : State) : ℤ × State :=
  if answers.get ≠ 0 then (answers.get, state)
  else
    let val := combineCiphers state.iw state.device.wsec
    let (error, state) := updateEnrollee answers val state
    if error ≠ 0 then (error, state)
    else devWlcSet answers.set ({ · with wsec := val }) state

/-- The case `IW_AUTH_PRIVACY_INVOKED`. -/
def setPrivacyInvoked (answers : Answers) (paramval : Int32) (state : State) : ℤ × State :=
  if paramval = 0 then
    devWlcSet answers.setEnrollee ({ · with isWpsEnrollee := false })
      { state with iw := { state.iw with privacyInvoked := false } }
  else
    let state := { state with iw := { state.iw with privacyInvoked := true } }
    if answers.get ≠ 0 then (answers.get, state)
    else if wsecEnabled state.device.wsec = 0 then
      devWlcSet answers.setEnrollee ({ · with isWpsEnrollee := true }) state
    else devWlcSet answers.setEnrollee ({ · with isWpsEnrollee := false }) state

/-- The value of `wpa_auth` in the case `IW_AUTH_WPA_VERSION`. -/
def wpaVersionVal (paramval : UInt32) : UInt32 :=
  if paramval &&& iwAuthWpaVersionDisabled ≠ 0 then wpaAuthDisabled
  else if paramval &&& iwAuthWpaVersionWpa ≠ 0 then wpaAuthPsk ||| wpaAuthUnspecified
  else if paramval &&& iwAuthWpaVersionWpa2 ≠ 0 then wpa2AuthPsk ||| wpa2AuthUnspecified
  else 0

/-- The value of `wpa_auth` in the case `IW_AUTH_KEY_MGMT`. -/
def keyMgmtVal (paramval val : UInt32) : UInt32 :=
  if val &&& (wpaAuthPsk ||| wpaAuthUnspecified) ≠ 0 then
    if paramval &&& iwAuthKeyMgmtPsk ≠ 0 then wpaAuthPsk else wpaAuthUnspecified
  else if val &&& (wpa2AuthPsk ||| wpa2AuthUnspecified) ≠ 0 then
    if paramval &&& iwAuthKeyMgmtPsk ≠ 0 then wpa2AuthPsk else wpa2AuthUnspecified
  else val

/-- `wl_iw_set_wpaauth`. -/
def wlIwSetWpaauth (answers : Answers) (vwrq : IwParam) (state : State) : ℤ × State :=
  let paramval := vwrq.value.toUInt32
  match paramid vwrq with
  | some .wpaVersion => devWlcSet answers.set ({ · with wpaAuth := wpaVersionVal paramval }) state
  | some .cipherPairwise =>
      setCiphers answers { state with iw := { state.iw with pwsec := paramval } }
  | some .cipherGroup =>
      setCiphers answers { state with iw := { state.iw with gwsec := paramval } }
  | some .keyMgmt =>
      if answers.get ≠ 0 then (answers.get, state)
      else
        devWlcSet answers.set
          ({ · with wpaAuth := keyMgmtVal paramval state.device.wpaAuth }) state
  -- the errors of the one-byte variables are not looked at
  | some .tkipCountermeasures =>
      (0, (devWlcSet answers.bufvar ({ · with tkipCountermeasures := paramval.toUInt8 }) state).2)
  | some .auth80211Alg =>
      if paramval &&& iwAuthAlgOpenSystem ≠ 0 then
        devWlcSet answers.set ({ · with auth := 0 }) state
      else if paramval &&& iwAuthAlgSharedKey ≠ 0 then
        devWlcSet answers.set ({ · with auth := 1 }) state
      else (0, state)
  | some .wpaEnabled =>
      if vwrq.value = 0 then devWlcSet answers.set ({ · with wpaAuth := 0 }) state else (0, state)
  | some .dropUnencrypted =>
      (0, (devWlcSet answers.bufvar ({ · with wsecRestrict := paramval.toUInt8 }) state).2)
  | some .rxUnencryptedEapol =>
      (0, (devWlcSet answers.bufvar ({ · with rxUnencryptedEapol := paramval.toUInt8 }) state).2)
  | some .privacyInvoked => setPrivacyInvoked answers vwrq.value state
  | some .roamingControl | none => (0, state)

/-- A one-byte variable, read into an `int` that is 0. -/
def devWlcBufvarGet (error : ℤ) (value : UInt8) : UInt32 :=
  if error = 0 then value.toUInt32 else 0

/-- `wl_iw_get_wpaauth`: an error, or `vwrq->value`. -/
def wlIwGetWpaauth (answers : Answers) (flags : UInt16) (state : State) : Except ℤ Int32 :=
  let intvar (paramval : UInt32) : Except ℤ Int32 :=
    if answers.get ≠ 0 then .error answers.get else .ok paramval.toInt32
  let device := state.device
  match paramid ⟨0, flags⟩ with
  | some .wpaVersion =>
      intvar
        (if device.wpaAuth &&& (wpaAuthNone ||| wpaAuthDisabled) ≠ 0 then iwAuthWpaVersionDisabled
        else if device.wpaAuth &&& (wpaAuthPsk ||| wpaAuthUnspecified) ≠ 0 then iwAuthWpaVersionWpa
        else if device.wpaAuth &&& (wpa2AuthPsk ||| wpa2AuthUnspecified) ≠ 0 then
          iwAuthWpaVersionWpa2
        else 0)
  | some .cipherPairwise => .ok state.iw.pwsec.toInt32
  | some .cipherGroup => .ok state.iw.gwsec.toInt32
  | some .keyMgmt =>
      intvar
        (if device.wpaAuth &&& wpaAuthPsk ≠ 0 ∨ device.wpaAuth &&& wpa2AuthPsk ≠ 0 then
          iwAuthKeyMgmtPsk
        else iwAuthKeyMgmt8021x)
  | some .tkipCountermeasures =>
      .ok (devWlcBufvarGet answers.bufvar device.tkipCountermeasures).toInt32
  | some .dropUnencrypted => .ok (devWlcBufvarGet answers.bufvar device.wsecRestrict).toInt32
  | some .rxUnencryptedEapol =>
      .ok (devWlcBufvarGet answers.bufvar device.rxUnencryptedEapol).toInt32
  | some .auth80211Alg =>
      intvar (if device.auth = 0 then iwAuthAlgOpenSystem else iwAuthAlgSharedKey)
  | some .wpaEnabled => intvar (if device.wpaAuth ≠ 0 then 1 else 0)
  | some .privacyInvoked => .ok (if state.iw.privacyInvoked then 1 else 0)
  | some .roamingControl | none => .ok 0

/-! ## Runs of successful operations -/

structure Op where
  vwrq : IwParam
  answers : Answers
deriving DecidableEq, Repr

/-- An operation that the firmware accepts. -/
def accepted (param : UInt16) (value : Int32) : Op := ⟨⟨value, param⟩, ⟨0, 0, 0, 0⟩⟩

/-- The parameter that an operation sets. -/
def Op.param (op : Op) : Option AuthParam := paramid op.vwrq

/-- A step is an operation that returns 0. -/
def step (state : State) (op : Op) : Option State :=
  let (error, next) := wlIwSetWpaauth op.answers op.vwrq state
  if error = 0 then some next else none

def wpaauth : Machine State Op where
  initial _ := True
  step := step

/-- The cipher bits that stand for a set of ciphers. -/
def cipherBits (ciphers : UInt32) : UInt32 :=
  (if ciphers &&& (iwAuthCipherWep40 ||| iwAuthCipherWep104) ≠ 0 then wepEnabled else 0) |||
    (if ciphers &&& iwAuthCipherTkip ≠ 0 then tkipEnabled else 0) |||
    (if ciphers &&& iwAuthCipherCcmp ≠ 0 then aesEnabled else 0)

theorem cipherBits_and_mask (ciphers : UInt32) : cipherBits ciphers &&& cipherMask =
    cipherBits ciphers := by
  unfold cipherBits
  split <;> split <;> split <;> decide

/-- The cipher bits are replaced, the others are kept. -/
theorem combineCiphers_eq (iw : WlIw) (wsec : UInt32) :
    combineCiphers iw wsec = wsec &&& ~~~cipherMask ||| cipherBits (iw.pwsec ||| iw.gwsec) := by
  unfold combineCiphers cipherBits
  rw [UInt32.or_comm iw.pwsec]
  simp only [ite_or_eq]
  simp only [UInt32.or_assoc]

/-- The ciphers of the driver after an operation has stored its own. -/
def WlIw.store (iw : WlIw) (param : AuthParam) (value : UInt32) : WlIw :=
  match param with
  | .cipherPairwise => { iw with pwsec := value }
  | .cipherGroup => { iw with gwsec := value }
  | _ => iw

def AuthParam.isCipher : AuthParam → Bool
  | .cipherPairwise | .cipherGroup => true
  | _ => false

theorem devWlcSet_of_zero {error : ℤ} {set : Device → Device} {state next : State}
    (h : devWlcSet error set state = (0, next)) :
    next = { state with device := set state.device } := by
  unfold devWlcSet at h
  split at h
  next => exact (Prod.mk.inj h).2.symm
  next hne => exact absurd (Prod.mk.inj h).1 hne

/-- The flag is set, cleared or left alone. -/
def enrolleeAfter (iw : WlIw) (val : UInt32) (before : Bool) : Bool :=
  if iw.privacyInvoked ∧ val = 0 then true else if val ≠ 0 then false else before

theorem updateEnrollee_of_zero {answers : Answers} {val : UInt32} {state next : State}
    (h : updateEnrollee answers val state = (0, next)) :
    next =
      { state with
        device :=
          { state.device with
            isWpsEnrollee := enrolleeAfter state.iw val state.device.isWpsEnrollee } } := by
  unfold updateEnrollee at h
  unfold enrolleeAfter
  by_cases henrollee : state.iw.privacyInvoked ∧ val = 0
  · rw [if_pos henrollee] at h ⊢
    exact devWlcSet_of_zero h
  rw [if_neg henrollee] at h ⊢
  by_cases hval : val ≠ 0
  · rw [if_pos hval] at h ⊢
    exact devWlcSet_of_zero h
  · rw [if_neg hval] at h ⊢
    exact (Prod.mk.inj h).2.symm

theorem setCiphers_of_zero {answers : Answers} {state next : State}
    (h : setCiphers answers state = (0, next)) :
    next =
      { state with
        device :=
          { state.device with
            wsec := combineCiphers state.iw state.device.wsec
            isWpsEnrollee :=
              enrolleeAfter state.iw (combineCiphers state.iw state.device.wsec)
                state.device.isWpsEnrollee } } := by
  unfold setCiphers at h
  by_cases hget : answers.get ≠ 0
  · rw [if_pos hget] at h
    exact absurd (Prod.mk.inj h).1 hget
  rw [if_neg hget] at h
  dsimp only at h
  cases hflag : updateEnrollee answers (combineCiphers state.iw state.device.wsec) state with
  | mk error flagged =>
    rw [hflag] at h
    dsimp only at h
    by_cases herror : error ≠ 0
    · rw [if_pos herror] at h
      exact absurd (Prod.mk.inj h).1 herror
    · rw [if_neg herror] at h
      rw [not_ne_iff.mp herror] at hflag
      rw [devWlcSet_of_zero h, updateEnrollee_of_zero hflag]

theorem setPrivacyInvoked_of_zero {answers : Answers} {paramval : Int32} {state next : State}
    (h : setPrivacyInvoked answers paramval state = (0, next)) :
    next =
      { state with
        iw := { state.iw with privacyInvoked := paramval ≠ 0 }
        device :=
          { state.device with
            isWpsEnrollee := paramval ≠ 0 ∧ wsecEnabled state.device.wsec = 0 } } := by
  unfold setPrivacyInvoked at h
  by_cases hvalue : paramval = 0
  · rw [if_pos hvalue] at h
    rw [devWlcSet_of_zero h]
    simp [hvalue]
  rw [if_neg hvalue] at h
  dsimp only at h
  by_cases hget : answers.get ≠ 0
  · rw [if_pos hget] at h
    exact absurd (Prod.mk.inj h).1 hget
  rw [if_neg hget] at h
  by_cases hwsec : wsecEnabled state.device.wsec = 0
  · rw [if_pos hwsec] at h
    rw [devWlcSet_of_zero h]
    simp [hvalue, hwsec]
  · rw [if_neg hwsec] at h
    rw [devWlcSet_of_zero h]
    simp [hvalue, hwsec]

/-- What an operation on another parameter leaves as it was. -/
structure Unchanged (state next : State) : Prop where
  iw : next.iw = state.iw
  wsec : next.device.wsec = state.device.wsec
  isWpsEnrollee : next.device.isWpsEnrollee = state.device.isWpsEnrollee

/-- A write of another variable. -/
theorem devWlcSet_unchanged (error : ℤ) {set : Device → Device} (state : State)
    (hwsec : (set state.device).wsec = state.device.wsec)
    (henrollee : (set state.device).isWpsEnrollee = state.device.isWpsEnrollee) :
    Unchanged state (devWlcSet error set state).2 := by
  unfold devWlcSet
  split
  · exact ⟨rfl, hwsec, henrollee⟩
  · exact ⟨rfl, rfl, rfl⟩

/-- An operation on another parameter, whatever the firmware answers. -/
theorem wlIwSetWpaauth_unchanged (answers : Answers) {vwrq : IwParam} (state : State)
    (hother : ∀ param, paramid vwrq = some param →
      param.isCipher = false ∧ param ≠ .privacyInvoked) :
    Unchanged state (wlIwSetWpaauth answers vwrq state).2 := by
  have hsame : Unchanged state state := ⟨rfl, rfl, rfl⟩
  unfold wlIwSetWpaauth
  cases hid : paramid vwrq with
  | none => exact hsame
  | some param =>
    obtain ⟨hcipher, hprivacy⟩ := hother param hid
    cases param with
    | cipherPairwise | cipherGroup => cases hcipher
    | privacyInvoked => exact absurd rfl hprivacy
    | wpaVersion | tkipCountermeasures | dropUnencrypted | rxUnencryptedEapol =>
      apply devWlcSet_unchanged <;> rfl
    | keyMgmt =>
      dsimp only
      split
      · exact hsame
      · apply devWlcSet_unchanged <;> rfl
    | auth80211Alg =>
      dsimp only
      split
      · apply devWlcSet_unchanged <;> rfl
      split
      · apply devWlcSet_unchanged <;> rfl
      · exact hsame
    | wpaEnabled =>
      dsimp only
      split
      · apply devWlcSet_unchanged <;> rfl
      · exact hsame
    | roamingControl => exact hsame

theorem step_eq_some {state next : State} {op : Op} (h : step state op = some next) :
    wlIwSetWpaauth op.answers op.vwrq state = (0, next) := by
  unfold step at h
  cases hset : wlIwSetWpaauth op.answers op.vwrq state with
  | mk error after =>
    rw [hset] at h
    obtain ⟨herror, hnext⟩ := Option.ite_none_right_eq_some.mp h
    rw [herror, Option.some.inj hnext]

/-- A successful operation on a cipher. -/
structure SetsCipher (param : AuthParam) (value : UInt32) (state next : State) : Prop where
  iw : next.iw = state.iw.store param value
  wsec : next.device.wsec = combineCiphers next.iw state.device.wsec
  isWpsEnrollee : next.device.isWpsEnrollee =
    enrolleeAfter next.iw next.device.wsec state.device.isWpsEnrollee

/-- A successful operation on the privacy. -/
structure SetsPrivacy (value : Int32) (state next : State) : Prop where
  iw : next.iw = { state.iw with privacyInvoked := value ≠ 0 }
  wsec : next.device.wsec = state.device.wsec
  isWpsEnrollee : next.device.isWpsEnrollee =
    decide (value ≠ 0 ∧ wsecEnabled state.device.wsec = 0)

/-- What a successful operation does to the ciphers and to what depends on them. -/
theorem step_cases {state next : State} {op : Op} (h : step state op = some next) :
    (∃ param, op.param = some param ∧ param.isCipher = true ∧
      SetsCipher param op.vwrq.value.toUInt32 state next) ∨
    op.param = some .privacyInvoked ∧ SetsPrivacy op.vwrq.value state next ∨
    (∀ param, op.param = some param → param.isCipher = false ∧ param ≠ .privacyInvoked) ∧
      Unchanged state next := by
  have hset := step_eq_some h
  by_cases hother : ∀ param, op.param = some param →
      param.isCipher = false ∧ param ≠ .privacyInvoked
  · have hunchanged := wlIwSetWpaauth_unchanged op.answers state hother
    rw [hset] at hunchanged
    exact .inr (.inr ⟨hother, hunchanged⟩)
  push Not at hother
  obtain ⟨param, hparam, hkind⟩ := hother
  unfold wlIwSetWpaauth at hset
  rw [show paramid op.vwrq = some param from hparam] at hset
  by_cases hprivacy : param = .privacyInvoked
  · subst hprivacy
    rw [setPrivacyInvoked_of_zero hset]
    exact .inr (.inl ⟨hparam, rfl, rfl, rfl⟩)
  -- the two ciphers are the parameters that are left
  have hcipher : param.isCipher = true := by
    rw [← Bool.not_eq_false]
    intro hfalse
    exact hprivacy (hkind hfalse)
  cases param with
  | cipherPairwise | cipherGroup =>
    rw [setCiphers_of_zero hset]
    exact .inl ⟨_, hparam, rfl, rfl, rfl, rfl⟩
  | _ => cases hcipher

end BroadcomWl.Wext.IwAuth
