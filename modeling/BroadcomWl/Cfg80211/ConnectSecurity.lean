import BroadcomWl.Cfg80211.Calls
import BroadcomWl.Memory.Bytes

/-!
# The security settings of a connect call

`wl_cfg80211_connect` programs the firmware with five setters that read back and refine what
earlier ones have written. Whatever the firmware and the driver held before, a call that returns
zero leaves the settings that the request asks for.

All that matters of the state is a view: the variables of the firmware, the settings noted in the
profile, and the keys installed so far. A setter that returns zero acts on the view like a pure
function. The firmware is any that keeps its variables: a get returns the last value that was
set, and other requests leave the variable alone.
-/

namespace BroadcomWl.Cfg80211

open BroadcomWl.Memory

/-! ## What a request asks for -/

/-- The bits of `wsec` that stand for ciphers. -/
def cipherBits : UInt32 := wepEnabled ||| tkipEnabled ||| aesEnabled

/-- What the firmware is left with. -/
structure Settings where
  auth : UInt32
  wpaAuth : UInt32
  ciphers : UInt32
deriving DecidableEq, Repr

def authOf (authType : UInt32) : UInt32 :=
  if authType = Nl80211.authtypeOpenSystem then 0
  else if authType = Nl80211.authtypeSharedKey then 1
  else 2

/-- Without an AKM suite both kinds of key management are allowed. -/
def akmOf (crypto : CryptoSettings) (unspecified psk : UInt32) : UInt32 :=
  if crypto.nAkmSuites = 0 then psk ||| unspecified
  else if crypto.akmSuites0 = Wlan.akmSuite8021x then unspecified
  else psk

/-- The first version of WPA counts. -/
def wpaAuthOf (crypto : CryptoSettings) : UInt32 :=
  if crypto.wpaVersions &&& Nl80211.wpaVersion1 ≠ 0 then
    akmOf crypto wpaAuthUnspecified wpaAuthPsk
  else if crypto.wpaVersions &&& Nl80211.wpaVersion2 ≠ 0 then
    akmOf crypto wpa2AuthUnspecified wpa2AuthPsk
  else wpaAuthDisabled

def cipherOf (suite : UInt32) : UInt32 :=
  if suite = Wlan.cipherSuiteWep40 ∨ suite = Wlan.cipherSuiteWep104 then wepEnabled
  else if suite = Wlan.cipherSuiteTkip then tkipEnabled
  else if suite = Wlan.cipherSuiteCcmp ∨ suite = Wlan.cipherSuiteAesCmac then aesEnabled
  else 0

/-- The settings for a request. -/
def settingsOf (sme : ConnectParams) : Settings where
  auth := authOf sme.authType
  wpaAuth := wpaAuthOf sme.crypto
  ciphers :=
    (if sme.crypto.nCiphersPairwise = 0 then 0 else cipherOf sme.crypto.ciphersPairwise0) |||
      cipherOf sme.crypto.cipherGroup

/-- The profile describes the request. -/
def securityOf (sme : ConnectParams) : Security where
  wpaVersions := sme.crypto.wpaVersions
  authType := sme.authType
  cipherPairwise := sme.crypto.ciphersPairwise0
  cipherGroup := sme.crypto.cipherGroup
  wpaAuth := sme.crypto.akmSuites0

/-- The algorithm of a WEP cipher. -/
def wepAlgo (suite : UInt32) : Option UInt32 :=
  if suite = Wlan.cipherSuiteWep40 then some cryptoAlgoWep1
  else if suite = Wlan.cipherSuiteWep104 then some cryptoAlgoWep128
  else none

def noWpa (crypto : CryptoSettings) : Prop :=
  crypto.wpaVersions &&& (Nl80211.wpaVersion1 ||| Nl80211.wpaVersion2) = 0

instance (crypto : CryptoSettings) : Decidable (noWpa crypto) :=
  inferInstanceAs (Decidable (_ = _))

/-- The key that a request carries for WEP, with its padding; cfg80211 gives every request with a
key a first pairwise cipher. -/
def wepKeyOf (sme : ConnectParams) : Option WsecKey :=
  if sme.key ≠ [] ∧ noWpa sme.crypto then
    (wepAlgo sme.crypto.ciphersPairwise0).map fun algo ↦
      { index := sme.keyIdx.toUInt32
        len := sme.key.length
        data := sme.key ++ List.replicate (dot11MaxKeySize - sme.key.length) 0
        algo := algo
        flags := wlPrimaryKey }
  else none

/-! ## The view -/

structure View where
  vars : Iovar → UInt32
  sec : Security
  installed : List WsecKey

namespace View

def set (view : View) (name : Iovar) (val : UInt32) : View :=
  { view with vars := Function.update view.vars name val }

def mapSec (view : View) (update : Security → Security) : View :=
  { view with sec := update view.sec }

def install (view : View) (key : WsecKey) : View :=
  { view with installed := view.installed ++ [key] }

def settings (view : View) : Settings where
  auth := view.vars .auth
  wpaAuth := view.vars .wpaAuth
  ciphers := view.vars .wsec &&& cipherBits

end View

/-- The key that a request installs. -/
def Request.key : Request → Option WsecKey
  | .setKey key => some key
  | _ => none

/-- The variables are what was last set. -/
structure KeepsVars {Device : Type*} (firmware : Firmware Device)
    (vars : Device → Iovar → UInt32) : Prop where
  set : ∀ device name val, (firmware device (.setVar name val)).1.err = 0 →
    vars (firmware device (.setVar name val)).2 name = val
  get : ∀ device name, (firmware device (.getVar name)).1.err = 0 →
    (firmware device (.getVar name)).1.val = vars device name
  keep : ∀ device request name, (∀ val, request ≠ .setVar name val) →
    vars (firmware device request).2 name = vars device name

section Setters

variable {Device : Type*} {firmware : Firmware Device} {vars : Device → Iovar → UInt32}

def World.view (vars : Device → Iovar → UInt32) (world : World Device) : View where
  vars := vars world.device
  sec := world.priv.profile.sec
  installed := world.requests.filterMap Request.key

/-- A call that went on past a check returned zero there. -/
theorem ifOk_of_zero {result : ℤ × World Device} {rest : World Device → ℤ × World Device}
    (h : (ifOk result rest).1 = 0) : result.1 = 0 ∧ ifOk result rest = rest result.2 := by
  unfold ifOk at h ⊢
  by_cases herr : result.1 = 0
  · exact ⟨herr, if_neg (not_not_intro herr)⟩
  · rw [if_pos herr] at h
    exact absurd h herr

variable {world : World Device}

theorem view_set (hkeeps : KeepsVars firmware vars) {name : Iovar} {val : UInt32}
    (h : (wlDevIntvarSet firmware name val world).1 = 0) :
    (wlDevIntvarSet firmware name val world).2.view vars = (world.view vars).set name val := by
  have hvars : vars (firmware world.device (.setVar name val)).2 =
      Function.update (vars world.device) name val := by
    funext other
    by_cases hsame : other = name
    · rw [hsame, Function.update_self]
      exact hkeeps.set _ _ _ h
    · rw [Function.update_of_ne hsame]
      refine hkeeps.keep _ _ _ fun val' heq ↦ ?_
      exact hsame (Request.setVar.inj heq).1.symm
  have hrequests : (world.requests ++ [Request.setVar name val]).filterMap Request.key =
      world.requests.filterMap Request.key := by
    rw [List.filterMap_append]
    exact List.append_nil _
  exact congrArg₂ (View.mk · world.priv.profile.sec ·) hvars hrequests

/-- A get hands on the variable, and changes nothing that matters. -/
theorem view_get (hkeeps : KeepsVars firmware vars) {name : Iovar}
    {rest : UInt32 → World Device → ℤ × World Device}
    (h : (wlDevIntvarGet firmware name world rest).1 = 0) :
    ∃ next : World Device, next.view vars = world.view vars ∧
      wlDevIntvarGet firmware name world rest = rest ((world.view vars).vars name) next := by
  have hvars : vars (firmware world.device (.getVar name)).2 = vars world.device :=
    funext fun other ↦ hkeeps.keep _ _ _ nofun
  have hrequests : (world.requests ++ [Request.getVar name]).filterMap Request.key =
      world.requests.filterMap Request.key := by
    rw [List.filterMap_append]
    exact List.append_nil _
  refine ⟨(wlDevIoctl firmware (.getVar name) world).2,
    congrArg₂ (View.mk · world.priv.profile.sec ·) hvars hrequests, ?_⟩
  unfold wlDevIntvarGet at h ⊢
  dsimp only at h ⊢
  by_cases herr : (wlDevIoctl firmware (.getVar name) world).1.err = 0
  · rw [if_neg (not_not_intro herr)]
    exact congrArg (rest · _) (hkeeps.get _ _ herr)
  · rw [if_pos herr] at h
    exact absurd h herr

theorem view_setKey (hkeeps : KeepsVars firmware vars) (key : WsecKey) :
    (wlDevSet firmware (.setKey key) world).2.view vars = (world.view vars).install key := by
  have hvars : vars (firmware world.device (.setKey key)).2 = vars world.device :=
    funext fun other ↦ hkeeps.keep _ _ _ nofun
  have hrequests : (world.requests ++ [Request.setKey key]).filterMap Request.key =
      world.requests.filterMap Request.key ++ [key] := by
    rw [List.filterMap_append]
    rfl
  exact congrArg₂ (View.mk · world.priv.profile.sec ·) hvars hrequests

/-- A variable is set, and what was set is noted in the profile. -/
theorem view_set_setSec (hkeeps : KeepsVars firmware vars) {name : Iovar} {val : UInt32}
    {update : Security → Security}
    (h : (ifOk (wlDevIntvarSet firmware name val world) (setSec update)).1 = 0) :
    (ifOk (wlDevIntvarSet firmware name val world) (setSec update)).2.view vars =
      ((world.view vars).set name val).mapSec update := by
  obtain ⟨hset, hrest⟩ := ifOk_of_zero h
  rw [hrest, ← view_set hkeeps hset]
  rfl

/-! ## The setters -/

variable {sme : ConnectParams}

theorem wlSetAuthType_view (hkeeps : KeepsVars firmware vars)
    (h : (wlSetAuthType firmware sme world).1 = 0) :
    (wlSetAuthType firmware sme world).2.view vars =
      ((world.view vars).set .auth (authOf sme.authType)).mapSec
        fun sec ↦ { sec with authType := sme.authType } := view_set_setSec hkeeps h

/-- What `wl_set_wpa_version` sets: both kinds of key management. -/
def wpaVersionVal (crypto : CryptoSettings) : UInt32 :=
  if crypto.wpaVersions &&& Nl80211.wpaVersion1 ≠ 0 then wpaAuthPsk ||| wpaAuthUnspecified
  else if crypto.wpaVersions &&& Nl80211.wpaVersion2 ≠ 0 then
    wpa2AuthPsk ||| wpa2AuthUnspecified
  else wpaAuthDisabled

theorem wlSetWpaVersion_view (hkeeps : KeepsVars firmware vars)
    (h : (wlSetWpaVersion firmware sme world).1 = 0) :
    (wlSetWpaVersion firmware sme world).2.view vars =
      ((world.view vars).set .wpaAuth (wpaVersionVal sme.crypto)).mapSec
        fun sec ↦ { sec with wpaVersions := sme.crypto.wpaVersions } := view_set_setSec hkeeps h

theorem cipherOf_of_cipherVal {suite val : UInt32} (h : cipherVal suite = some val) :
    cipherOf suite = val := by
  unfold cipherVal at h
  unfold cipherOf
  split_ifs at h ⊢
  all_goals exact Option.some.inj h

/-- What `wl_set_set_cipher` makes of the old `wsec`. -/
def wsecVal (sme : ConnectParams) (wsec : UInt32) : UInt32 :=
  (wsec &&& ~~~cipherBits) ||| (settingsOf sme).ciphers

/-- The two switches of `wl_set_set_cipher` find the ciphers of the request. -/
theorem ciphers_of_cipherVal {pval gval : UInt32}
    (hpairwise : (if sme.crypto.nCiphersPairwise ≠ 0 then cipherVal sme.crypto.ciphersPairwise0
      else some 0) = some pval)
    (hgroup : (if sme.crypto.cipherGroup ≠ 0 then cipherVal sme.crypto.cipherGroup
      else some 0) = some gval) :
    (settingsOf sme).ciphers = pval ||| gval := by
  have hfirst : (if sme.crypto.nCiphersPairwise = 0 then 0
      else cipherOf sme.crypto.ciphersPairwise0) = pval := by
    by_cases hcount : sme.crypto.nCiphersPairwise = 0
    · rw [if_neg (not_not_intro hcount)] at hpairwise
      rw [if_pos hcount]
      exact Option.some.inj hpairwise
    · rw [if_pos hcount] at hpairwise
      rw [if_neg hcount]
      exact cipherOf_of_cipherVal hpairwise
  have hsecond : cipherOf sme.crypto.cipherGroup = gval := by
    by_cases hnone : sme.crypto.cipherGroup = 0
    · rw [if_neg (not_not_intro hnone)] at hgroup
      rw [hnone]
      exact Option.some.inj hgroup
    · rw [if_pos hnone] at hgroup
      exact cipherOf_of_cipherVal hgroup
  exact congrArg₂ (· ||| ·) hfirst hsecond

theorem wlSetSetCipher_view (hkeeps : KeepsVars firmware vars)
    (h : (wlSetSetCipher firmware sme world).1 = 0) :
    (wlSetSetCipher firmware sme world).2.view vars =
      ((world.view vars).set .wsec (wsecVal sme ((world.view vars).vars .wsec))).mapSec
        fun sec ↦
          { sec with
            cipherPairwise := sme.crypto.ciphersPairwise0
            cipherGroup := sme.crypto.cipherGroup } := by
  unfold wlSetSetCipher at h ⊢
  dsimp only at h ⊢
  cases hpairwise : (if sme.crypto.nCiphersPairwise ≠ 0 then
      cipherVal sme.crypto.ciphersPairwise0 else some 0) with
  | none =>
    rw [hpairwise] at h
    exact absurd h (show -Errno.einval ≠ 0 by decide)
  | some pval =>
    cases hgroup : (if sme.crypto.cipherGroup ≠ 0 then cipherVal sme.crypto.cipherGroup
        else some 0) with
    | none =>
      rw [hpairwise, hgroup] at h
      exact absurd h (show -Errno.einval ≠ 0 by decide)
    | some gval =>
      rw [hpairwise, hgroup] at h
      dsimp only at h ⊢
      obtain ⟨next, hnext, hrest⟩ := view_get hkeeps h
      rw [hrest] at h ⊢
      rw [view_set_setSec hkeeps h, hnext, wsecVal, ciphers_of_cipherVal hpairwise hgroup]
      rfl

/-- The value that `wl_set_key_mgmt` makes of the one it has read. -/
def keyMgmtVal (crypto : CryptoSettings) (val : UInt32) : Option UInt32 :=
  if val &&& (wpaAuthPsk ||| wpaAuthUnspecified) ≠ 0 then
    akmVal crypto.akmSuites0 wpaAuthUnspecified wpaAuthPsk
  else if val &&& (wpa2AuthPsk ||| wpa2AuthUnspecified) ≠ 0 then
    akmVal crypto.akmSuites0 wpa2AuthUnspecified wpa2AuthPsk
  else some val

theorem akmOf_of_akmVal {crypto : CryptoSettings} (hcount : crypto.nAkmSuites ≠ 0)
    {unspecified psk val : UInt32} (h : akmVal crypto.akmSuites0 unspecified psk = some val) :
    akmOf crypto unspecified psk = val := by
  unfold akmVal at h
  rw [akmOf, if_neg hcount]
  split_ifs at h ⊢
  all_goals exact Option.some.inj h

/-- Read back, the value of `wl_set_wpa_version` is narrowed down to the AKM suite. -/
theorem wpaAuthOf_of_keyMgmtVal {crypto : CryptoSettings} (hcount : crypto.nAkmSuites ≠ 0)
    {val : UInt32} (h : keyMgmtVal crypto (wpaVersionVal crypto) = some val) :
    wpaAuthOf crypto = val := by
  unfold wpaVersionVal at h
  unfold wpaAuthOf
  by_cases hfirst : crypto.wpaVersions &&& Nl80211.wpaVersion1 ≠ 0
  · rw [if_pos hfirst] at h ⊢
    rw [keyMgmtVal, if_pos (by decide)] at h
    exact akmOf_of_akmVal hcount h
  · rw [if_neg hfirst] at h ⊢
    by_cases hsecond : crypto.wpaVersions &&& Nl80211.wpaVersion2 ≠ 0
    · rw [if_pos hsecond] at h ⊢
      rw [keyMgmtVal, if_neg (by decide), if_pos (by decide)] at h
      exact akmOf_of_akmVal hcount h
    · rw [if_neg hsecond] at h ⊢
      rw [keyMgmtVal, if_neg (by decide), if_neg (by decide)] at h
      exact Option.some.inj h

/-- Without a suite that value stays. -/
theorem wpaAuthOf_of_no_akm {crypto : CryptoSettings} (hcount : crypto.nAkmSuites = 0) :
    wpaAuthOf crypto = wpaVersionVal crypto := by
  unfold wpaAuthOf akmOf wpaVersionVal
  rw [if_pos hcount, if_pos hcount]

theorem wlSetKeyMgmt_view (hkeeps : KeepsVars firmware vars)
    (hversion : (world.view vars).vars .wpaAuth = wpaVersionVal sme.crypto)
    (h : (wlSetKeyMgmt firmware sme world).1 = 0) :
    (wlSetKeyMgmt firmware sme world).2.view vars =
      ((world.view vars).set .wpaAuth (wpaAuthOf sme.crypto)).mapSec
        fun sec ↦ { sec with wpaAuth := sme.crypto.akmSuites0 } := by
  unfold wlSetKeyMgmt at h ⊢
  dsimp only at h ⊢
  by_cases hcount : sme.crypto.nAkmSuites = 0
  · rw [if_neg (not_not_intro hcount), wpaAuthOf_of_no_akm hcount, ← hversion, View.set,
      Function.update_eq_self]
    rfl
  · rw [if_pos hcount] at h ⊢
    obtain ⟨next, hnext, hrest⟩ := view_get hkeeps h
    rw [hrest] at h ⊢
    rw [hversion] at h ⊢
    cases hval : keyMgmtVal sme.crypto (wpaVersionVal sme.crypto) with
    | none =>
      unfold keyMgmtVal at hval
      rw [hval] at h
      exact absurd h (show -Errno.einval ≠ 0 by decide)
    | some val =>
      have hreference := wpaAuthOf_of_keyMgmtVal hcount hval
      unfold keyMgmtVal at hval
      rw [hval] at h ⊢
      dsimp only at h ⊢
      rw [view_set_setSec hkeeps h, hnext, hreference]

/-- A suite outside the mask is not a WEP one. -/
theorem wepAlgo_of_mask {suite : UInt32}
    (hmask : suite &&& (Wlan.cipherSuiteWep40 ||| Wlan.cipherSuiteWep104) = 0) :
    wepAlgo suite = none := by
  have hwep40 : suite ≠ Wlan.cipherSuiteWep40 := by
    rintro rfl
    exact absurd hmask (by decide)
  have hwep104 : suite ≠ Wlan.cipherSuiteWep104 := by
    rintro rfl
    exact absurd hmask (by decide)
  rw [wepAlgo, if_neg hwep40, if_neg hwep104]

/-- Without a key for WEP, or without a suite inside the mask, there is none to install. -/
theorem wepKeyOf_eq_none
    (h : ¬(sme.key.length ≠ 0 ∧
      sme.crypto.wpaVersions &&& (Nl80211.wpaVersion1 ||| Nl80211.wpaVersion2) = 0 ∧
      sme.crypto.ciphersPairwise0 &&&
        (Wlan.cipherSuiteWep40 ||| Wlan.cipherSuiteWep104) ≠ 0)) :
    wepKeyOf sme = none := by
  unfold wepKeyOf
  by_cases hkey : sme.key ≠ [] ∧ noWpa sme.crypto
  · have hmask : sme.crypto.ciphersPairwise0 &&&
        (Wlan.cipherSuiteWep40 ||| Wlan.cipherSuiteWep104) = 0 := by
      by_contra hmask
      exact h ⟨fun hlength ↦ hkey.1 (List.length_eq_zero_iff.mp hlength), hkey.2, hmask⟩
    rw [if_pos hkey, wepAlgo_of_mask hmask]
    rfl
  · exact if_neg hkey

/-- A key is installed when the request carries one for WEP; any other suite inside the mask is
refused. -/
theorem wlSetSetSharedkey_view (hkeeps : KeepsVars firmware vars)
    (hversions : world.priv.profile.sec.wpaVersions = sme.crypto.wpaVersions)
    (hcipher : world.priv.profile.sec.cipherPairwise = sme.crypto.ciphersPairwise0)
    (h : (wlSetSetSharedkey firmware sme world).1 = 0) :
    (wlSetSetSharedkey firmware sme world).2.view vars =
      { world.view vars with
        installed := (world.view vars).installed ++ (wepKeyOf sme).toList } := by
  unfold wlSetSetSharedkey at h ⊢
  dsimp only at h ⊢
  rw [hversions, hcipher] at h ⊢
  by_cases hcarries : sme.key.length ≠ 0 ∧
      sme.crypto.wpaVersions &&& (Nl80211.wpaVersion1 ||| Nl80211.wpaVersion2) = 0 ∧
      sme.crypto.ciphersPairwise0 &&&
        (Wlan.cipherSuiteWep40 ||| Wlan.cipherSuiteWep104) ≠ 0
  · have hkey : sme.key ≠ [] ∧ noWpa sme.crypto :=
      ⟨fun hnil ↦ hcarries.1 (congrArg List.length hnil), hcarries.2.1⟩
    rw [if_pos hcarries] at h ⊢
    rw [wepKeyOf, if_pos hkey, wepAlgo]
    by_cases hlong : dot11MaxKeySize < sme.key.length
    · rw [if_pos hlong] at h
      exact absurd h (show -Errno.einval ≠ 0 by decide)
    rw [if_neg hlong] at h ⊢
    by_cases hwep40 : sme.crypto.ciphersPairwise0 = Wlan.cipherSuiteWep40
    · rw [if_pos hwep40, if_pos hwep40]
      exact view_setKey hkeeps _
    rw [if_neg hwep40] at h ⊢
    rw [if_neg hwep40]
    by_cases hwep104 : sme.crypto.ciphersPairwise0 = Wlan.cipherSuiteWep104
    · rw [if_pos hwep104, if_pos hwep104]
      exact view_setKey hkeeps _
    · rw [if_neg hwep104] at h
      exact absurd h (show -Errno.einval ≠ 0 by decide)
  · rw [if_neg hcarries, wepKeyOf_eq_none hcarries, Option.toList_none, List.append_nil]

/-! ## The call -/

/-- What is joined behind the setters keeps what they have programmed; only `wsec_restrict` is
set. -/
theorem joinBss_view (hkeeps : KeepsVars firmware vars) (ssid : Ssid) :
    (∀ name, name ≠ .wsecRestrict →
      vars (joinBss firmware sme ssid world).2.device name = vars world.device name) ∧
      (joinBss firmware sme ssid world).2.priv.profile.sec = world.priv.profile.sec ∧
      ((joinBss firmware sme ssid world).2.view vars).installed =
        (world.view vars).installed := by
  let params : JoinParams := ⟨ssid.take ieee80211SsidLen, etherBcast, sme.channel⟩
  have hdevice : (joinBss firmware sme ssid world).2.device =
      (firmware (firmware world.device (.setVar .wsecRestrict 1)).2 (.setSsid params)).2 := by
    unfold joinBss ifOk
    dsimp only
    split <;> rfl
  have hsec : (joinBss firmware sme ssid world).2.priv.profile.sec =
      world.priv.profile.sec := by
    unfold joinBss ifOk
    dsimp only
    split <;> rfl
  have hrequests : (joinBss firmware sme ssid world).2.requests =
      world.requests ++ [.setVar .wsecRestrict 1] ++ [.setSsid params] := by
    unfold joinBss ifOk
    dsimp only
    split <;> rfl
  refine ⟨fun name hname ↦ ?_, hsec, ?_⟩
  · rw [hdevice, hkeeps.keep _ (.setSsid params) name nofun]
    exact hkeeps.keep _ _ name fun val heq ↦ hname (Request.setVar.inj heq).1.symm
  · rw [World.view, hrequests, List.filterMap_append, List.filterMap_append]
    exact (List.append_nil _).trans (List.append_nil _)

/-- The call has programmed the firmware and noted the profile as the request asks for, without
touching the other bits of `wsec`, and has installed the WEP key that the request carries. -/
structure Programmed (vars : Device → Iovar → UInt32) (sme : ConnectParams)
    (before after : World Device) : Prop where
  settings : (after.view vars).settings = settingsOf sme
  otherBits : vars after.device .wsec &&& ~~~cipherBits =
    vars before.device .wsec &&& ~~~cipherBits
  sec : after.priv.profile.sec = securityOf sme
  installed : (after.view vars).installed =
    (before.view vars).installed ++ (wepKeyOf sme).toList

theorem cipherOf_and (suite : UInt32) : cipherOf suite &&& cipherBits = cipherOf suite := by
  unfold cipherOf
  split_ifs <;> rfl

theorem ciphers_and (sme : ConnectParams) :
    (settingsOf sme).ciphers &&& cipherBits = (settingsOf sme).ciphers := by
  refine or_and_of_mem ?_ (cipherOf_and _)
  split_ifs
  · rfl
  · exact cipherOf_and _

/-- The view behind the setters, without the key. -/
def View.program (view : View) (sme : ConnectParams) : View where
  vars := Function.update (Function.update (Function.update view.vars
    .auth (authOf sme.authType)) .wsec (wsecVal sme (view.vars .wsec)))
    .wpaAuth (wpaAuthOf sme.crypto)
  sec := securityOf sme
  installed := view.installed

theorem View.settings_program (view : View) (sme : ConnectParams) :
    (view.program sme).settings = settingsOf sme := by
  have hwsec : wsecVal sme (view.vars .wsec) &&& cipherBits = (settingsOf sme).ciphers :=
    replace_and _ (ciphers_and sme)
  have hauth : (view.program sme).vars .auth = authOf sme.authType := by simp [program]
  have hwpaAuth : (view.program sme).vars .wpaAuth = wpaAuthOf sme.crypto := by simp [program]
  have hvar : (view.program sme).vars .wsec = wsecVal sme (view.vars .wsec) := by simp [program]
  rw [settings, hauth, hwpaAuth, hvar, hwsec]
  rfl

theorem View.otherBits_program (view : View) (sme : ConnectParams) :
    (view.program sme).vars .wsec &&& ~~~cipherBits = view.vars .wsec &&& ~~~cipherBits := by
  have hvar : (view.program sme).vars .wsec = wsecVal sme (view.vars .wsec) := by simp [program]
  rw [hvar]
  exact replace_and_not _ (ciphers_and sme)

/-- The first four setters, one after the other. -/
theorem program_of_setters {view auth version cipher : View} {sme : ConnectParams}
    (hauth : auth = (view.set .auth (authOf sme.authType)).mapSec
      fun sec ↦ { sec with authType := sme.authType })
    (hversion : version = (auth.set .wpaAuth (wpaVersionVal sme.crypto)).mapSec
      fun sec ↦ { sec with wpaVersions := sme.crypto.wpaVersions })
    (hcipher : cipher = (version.set .wsec (wsecVal sme (version.vars .wsec))).mapSec
      fun sec ↦
        { sec with
          cipherPairwise := sme.crypto.ciphersPairwise0
          cipherGroup := sme.crypto.cipherGroup }) :
    cipher.vars .wpaAuth = wpaVersionVal sme.crypto ∧
      (cipher.set .wpaAuth (wpaAuthOf sme.crypto)).mapSec
        (fun sec ↦ { sec with wpaAuth := sme.crypto.akmSuites0 }) = view.program sme := by
  subst hauth hversion hcipher
  constructor
  · simp [View.set, View.mapSec]
  · simp only [View.set, View.mapSec, View.program, securityOf]
    congr 1
    funext name
    cases name <;> simp

/-- Joining leaves what the setters have programmed. -/
theorem programmed_joinBss {keyWorld : World Device} (hkeeps : KeepsVars firmware vars)
    (hview : keyWorld.view vars =
      { (world.view vars).program sme with
        installed := ((world.view vars).program sme).installed ++ (wepKeyOf sme).toList })
    (ssid : Ssid) : Programmed vars sme world (joinBss firmware sme ssid keyWorld).2 := by
  obtain ⟨hvars, hsecJoined, hinstalled⟩ := @joinBss_view _ _ _ keyWorld sme hkeeps ssid
  have hkeyVars : vars keyWorld.device = ((world.view vars).program sme).vars :=
    congrArg View.vars hview
  have hsettings : ((joinBss firmware sme ssid keyWorld).2.view vars).settings =
      ((world.view vars).program sme).settings := by
    simp only [View.settings, World.view, hvars _ (nofun : Iovar.auth ≠ .wsecRestrict),
      hvars _ (nofun : Iovar.wpaAuth ≠ .wsecRestrict),
      hvars _ (nofun : Iovar.wsec ≠ .wsecRestrict), hkeyVars]
  exact
    { settings := hsettings.trans (View.settings_program _ sme)
      otherBits := by
        rw [hvars .wsec nofun, hkeyVars]
        exact View.otherBits_program (world.view vars) sme
      sec := hsecJoined.trans (congrArg View.sec hview)
      installed := hinstalled.trans (congrArg View.installed hview) }

/-- A call that returns zero programs what the request asks for. -/
theorem programmed_of_zero (hkeeps : KeepsVars firmware vars)
    (h : (wlCfg80211Connect firmware sme world).1 = 0) :
    Programmed vars sme world (wlCfg80211Connect firmware sme world).2 := by
  unfold wlCfg80211Connect at h ⊢
  cases hssid : sme.ssid with
  | none =>
    rw [hssid] at h
    exact absurd h (show -Errno.eopnotsupp ≠ 0 by decide)
  | some ssid =>
    rw [hssid] at h
    dsimp only at h ⊢
    obtain ⟨hauth, hrest⟩ := ifOk_of_zero h
    rw [hrest] at h ⊢
    have hauthView := wlSetAuthType_view hkeeps hauth
    obtain ⟨hversion, hrest⟩ := ifOk_of_zero h
    rw [hrest] at h ⊢
    have hversionView := wlSetWpaVersion_view hkeeps hversion
    obtain ⟨hcipher, hrest⟩ := ifOk_of_zero h
    rw [hrest] at h ⊢
    have hcipherView := wlSetSetCipher_view hkeeps hcipher
    obtain ⟨hwpaAuth, hprogram⟩ := program_of_setters hauthView hversionView hcipherView
    obtain ⟨hkeyMgmt, hrest⟩ := ifOk_of_zero h
    rw [hrest] at h ⊢
    have hkeyMgmtView := (wlSetKeyMgmt_view hkeeps hwpaAuth hkeyMgmt).trans hprogram
    have hsec := congrArg View.sec hkeyMgmtView
    obtain ⟨hkey, hrest⟩ := ifOk_of_zero h
    rw [hrest]
    have hkeyView := wlSetSetSharedkey_view hkeeps (congrArg Security.wpaVersions hsec)
      (congrArg Security.cipherPairwise hsec) hkey
    rw [hkeyMgmtView] at hkeyView
    exact programmed_joinBss hkeeps hkeyView ssid

end Setters

/-- Two calls with the same request that return zero leave the same settings behind, whatever
firmware they meet and whatever it and the driver held before. -/
theorem connect_security_independent {Device Device' : Type*} {firmware : Firmware Device}
    {firmware' : Firmware Device'} {vars : Device → Iovar → UInt32}
    {vars' : Device' → Iovar → UInt32} (hkeeps : KeepsVars firmware vars)
    (hkeeps' : KeepsVars firmware' vars') (sme : ConnectParams) (world : World Device)
    (world' : World Device') (h : (wlCfg80211Connect firmware sme world).1 = 0)
    (h' : (wlCfg80211Connect firmware' sme world').1 = 0) :
    ((wlCfg80211Connect firmware sme world).2.view vars).settings =
        ((wlCfg80211Connect firmware' sme world').2.view vars').settings ∧
      Programmed vars sme world (wlCfg80211Connect firmware sme world).2 ∧
      Programmed vars' sme world' (wlCfg80211Connect firmware' sme world').2 := by
  have hprogrammed := programmed_of_zero hkeeps h
  have hprogrammed' := programmed_of_zero hkeeps' h'
  exact ⟨hprogrammed.settings.trans hprogrammed'.settings.symm, hprogrammed, hprogrammed'⟩

/-- A firmware that consists of its variables. -/
def storingFirmware : Firmware (Iovar → UInt32)
  | device, .setVar name val => (⟨0, 0⟩, Function.update device name val)
  | device, .getVar name => (⟨0, device name⟩, device)
  | device, _ => (⟨0, 0⟩, device)

theorem keepsVars_storingFirmware : KeepsVars storingFirmware id where
  set _ _ _ _ := Function.update_self ..
  get _ _ _ := rfl
  keep device request name hname := by
    cases request with
    | setVar other val =>
      refine Function.update_of_ne (fun hsame ↦ ?_) val device
      exact hname val (by rw [hsame])
    | _ => rfl

/-- A network with WEP40 and shared keys. -/
def wepNetwork : ConnectParams where
  channel := none
  bssid := none
  ssid := some [65]
  authType := Nl80211.authtypeSharedKey
  crypto := ⟨0, Wlan.cipherSuiteWep40, 1, Wlan.cipherSuiteWep40, 0, 0⟩
  key := [1, 2, 3, 4, 5]
  keyIdx := 0

/-- Before the call all variables have the same value. -/
def leftWith (val : UInt32) : World (Iovar → UInt32) :=
  ⟨{ ibssStart with mode := .bss }, .station, true, [], fun _ ↦ val, []⟩

theorem connect_security_independent_wep :
    ((wlCfg80211Connect storingFirmware wepNetwork (leftWith 0)).2.view id).settings =
        ((wlCfg80211Connect storingFirmware wepNetwork (leftWith 0xC6)).2.view id).settings ∧
      Programmed id wepNetwork (leftWith 0)
        (wlCfg80211Connect storingFirmware wepNetwork (leftWith 0)).2 ∧
      Programmed id wepNetwork (leftWith 0xC6)
        (wlCfg80211Connect storingFirmware wepNetwork (leftWith 0xC6)).2 :=
  connect_security_independent keepsVars_storingFirmware keepsVars_storingFirmware wepNetwork
    (leftWith 0) (leftWith 0xC6) (by decide) (by decide)

end BroadcomWl.Cfg80211
