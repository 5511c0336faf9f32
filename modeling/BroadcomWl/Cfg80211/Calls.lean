import BroadcomWl.Cfg80211.Events

/-!
# The calls of cfg80211

`wl_cfg80211_connect`, `wl_cfg80211_disconnect`, `wl_cfg80211_change_iface`,
`wl_cfg80211_join_ibss`, `wl_cfg80211_leave_ibss` and `wl_cfg80211_scan`, each as one step
between handled firmware events. The firmware is any function that answers a request and
changes its own state; every request is recorded. What `wl_ch_to_chanspec` makes of a channel
is not part of this module: join parameters hold the channel.

A session takes calls and events in any order. The spec lemmas say which fields of the
driver's state each call can change.
-/

namespace BroadcomWl.Cfg80211

open BroadcomWl.Systems

/-! ## Constants -/

namespace Errno

def eio : ℤ := 5
def einval : ℤ := 22
def eopnotsupp : ℤ := 95

end Errno

namespace Nl80211

def wpaVersion1 : UInt32 := 1
def wpaVersion2 : UInt32 := 2

def authtypeOpenSystem : UInt32 := 0
def authtypeSharedKey : UInt32 := 1

end Nl80211

namespace Wlan

def cipherSuiteWep40 : UInt32 := 0x000FAC01
def cipherSuiteTkip : UInt32 := 0x000FAC02
def cipherSuiteCcmp : UInt32 := 0x000FAC04
def cipherSuiteWep104 : UInt32 := 0x000FAC05
def cipherSuiteAesCmac : UInt32 := 0x000FAC06

def akmSuite8021x : UInt32 := 0x000FAC01
def akmSuitePsk : UInt32 := 0x000FAC02

end Wlan

def wepEnabled : UInt32 := 1
def tkipEnabled : UInt32 := 2
def aesEnabled : UInt32 := 4

def wpaAuthDisabled : UInt32 := 0
def wpaAuthNone : UInt32 := 1
def wpaAuthUnspecified : UInt32 := 2
def wpaAuthPsk : UInt32 := 4
def wpa2AuthUnspecified : UInt32 := 0x40
def wpa2AuthPsk : UInt32 := 0x80

def wlPrimaryKey : UInt32 := 2
def cryptoAlgoWep1 : UInt32 := 1
def cryptoAlgoWep128 : UInt32 := 3
def dot11MaxKeySize : ℕ := 32
def ieee80211SsidLen : ℕ := 32

def etherBcast : EtherAddr := Vector.replicate 6 0xFF

/-! ## Arguments -/

/-- `struct ieee80211_channel`, as far as it reaches the join parameters. -/
structure Ieee80211Channel where
  centerFreq : ℕ
  band2GHz : Bool
deriving DecidableEq, Repr

/-- `struct cfg80211_crypto_settings`; the first element of an array is there even when the count
is zero. -/
structure CryptoSettings where
  wpaVersions : UInt32
  cipherGroup : UInt32
  nCiphersPairwise : ℕ
  ciphersPairwise0 : UInt32
  nAkmSuites : ℕ
  akmSuites0 : UInt32

/-- `struct cfg80211_connect_params`. -/
structure ConnectParams where
  channel : Option Ieee80211Channel
  bssid : Option EtherAddr
  ssid : Option Ssid
  authType : UInt32
  crypto : CryptoSettings
  key : List UInt8
  keyIdx : UInt8

/-- `struct cfg80211_ibss_params`. -/
structure IbssParams where
  ssid : Ssid
  bssid : Option EtherAddr
  channel : Option Ieee80211Channel

/-- `enum nl80211_iftype`; `other` are the types without a case of their own. -/
inductive Iftype where
  | adhoc
  | station
  | wds
  | monitor
  | other
deriving DecidableEq, Repr

/-! ## The firmware -/

/-- The integer and byte variables that the calls name. -/
inductive Iovar where
  | auth
  | wpaAuth
  | wsec
  | wsecRestrict
deriving DecidableEq, Repr

/-- `struct wl_wsec_key`, without the members that no caller fills. -/
structure WsecKey where
  index : UInt32
  len : ℕ
  data : List UInt8
  algo : UInt32
  flags : UInt32
deriving DecidableEq

/-- `struct wl_join_params`, before its channel is encoded. -/
structure JoinParams where
  ssid : Ssid
  bssid : EtherAddr
  channel : Option Ieee80211Channel
deriving DecidableEq

/-- What the driver asks the firmware. -/
inductive Request where
  | setVar (name : Iovar) (val : UInt32)
  | getVar (name : Iovar)
  | setKey (key : WsecKey)
  | setSsid (params : JoinParams)
  | disassoc (ea : EtherAddr) (val : UInt32)
  | setInfra (val : UInt32)
  | setAp (val : UInt32)
  | setPassiveScan (val : UInt32)
  | scan (ssid : Ssid)
deriving DecidableEq

/-- The result of an ioctl, and the value that a get leaves in its buffer. -/
structure Reply where
  err : ℤ
  val : UInt32

/-- Any firmware: it answers a request and goes on to its next state. -/
abbrev Firmware (Device : Type*) := Device → Request → Reply × Device

/-- The driver, the firmware's state, and the requests so far. -/
structure World (Device : Type*) where
  priv : Priv
  iftype : Iftype
  activeScan : Bool
  scanReqSsid : Ssid
  device : Device
  requests : List Request

section Calls

variable {Device : Type*} (firmware : Firmware Device)

/-- `wl_dev_ioctl`. -/
def wlDevIoctl (request : Request) (world : World Device) : Reply × World Device :=
  let (reply, device) := firmware world.device request
  (reply, { world with device := device, requests := world.requests ++ [request] })

/-- `wl_dev_ioctl` where only the result matters. -/
def wlDevSet (request : Request) (world : World Device) : ℤ × World Device :=
  let (reply, world) := wlDevIoctl firmware request world
  (reply.err, world)

/-- `wl_dev_intvar_set`. -/
def wlDevIntvarSet (name : Iovar) (val : UInt32) (world : World Device) : ℤ × World Device :=
  wlDevSet firmware (.setVar name val) world

/-- `wl_dev_intvar_get`, followed by `if (err) return err`. -/
def wlDevIntvarGet (name : Iovar) (world : World Device)
    (rest : UInt32 → World Device → ℤ × World Device) : ℤ × World Device :=
  let (reply, world) := wlDevIoctl firmware (.getVar name) world
  if reply.err ≠ 0 then (reply.err, world) else rest reply.val world

/-- `if (err) return err` between two parts of a function. -/
def ifOk (result : ℤ × World Device) (rest : World Device → ℤ × World Device) :
    ℤ × World Device :=
  if result.1 ≠ 0 then result else rest result.2

/-- An assignment to `wl->profile->sec`, at the end of a function. -/
def setSec (update : Security → Security) (world : World Device) : ℤ × World Device :=
  (0, { world with priv := { world.priv with profile :=
    { world.priv.profile with sec := update world.priv.profile.sec } } })

/-! ## Connect -/

/-- `wl_set_auth_type`. -/
def wlSetAuthType (sme : ConnectParams) (world : World Device) : ℤ × World Device :=
  let val : UInt32 :=
    if sme.authType = Nl80211.authtypeOpenSystem then 0
    else if sme.authType = Nl80211.authtypeSharedKey then 1
    else 2
  ifOk (wlDevIntvarSet firmware .auth val world)
    (setSec fun sec ↦ { sec with authType := sme.authType })

/-- `wl_set_wpa_version`. -/
def wlSetWpaVersion (sme : ConnectParams) (world : World Device) : ℤ × World Device :=
  let val : UInt32 :=
    if sme.crypto.wpaVersions &&& Nl80211.wpaVersion1 ≠ 0 then wpaAuthPsk ||| wpaAuthUnspecified
    else if sme.crypto.wpaVersions &&& Nl80211.wpaVersion2 ≠ 0 then
      wpa2AuthPsk ||| wpa2AuthUnspecified
    else wpaAuthDisabled
  ifOk (wlDevIntvarSet firmware .wpaAuth val world)
    (setSec fun sec ↦ { sec with wpaVersions := sme.crypto.wpaVersions })

/-- The switch of `wl_set_set_cipher`, the same for both kinds of cipher; `none` is its default. -/
def cipherVal (suite : UInt32) : Option UInt32 :=
  if suite = Wlan.cipherSuiteWep40 ∨ suite = Wlan.cipherSuiteWep104 then some wepEnabled
  else if suite = Wlan.cipherSuiteTkip then some tkipEnabled
  else if suite = Wlan.cipherSuiteCcmp ∨ suite = Wlan.cipherSuiteAesCmac then some aesEnabled
  else none

/-- `wl_set_set_cipher`. -/
def wlSetSetCipher (sme : ConnectParams) (world : World Device) : ℤ × World Device :=
  let pval := if sme.crypto.nCiphersPairwise ≠ 0 then cipherVal sme.crypto.ciphersPairwise0
    else some 0
  let gval := if sme.crypto.cipherGroup ≠ 0 then cipherVal sme.crypto.cipherGroup else some 0
  match pval, gval with
  | some pval, some gval =>
      wlDevIntvarGet firmware .wsec world fun val world ↦
        let val := (val &&& ~~~(wepEnabled ||| tkipEnabled ||| aesEnabled)) ||| (pval ||| gval)
        ifOk (wlDevIntvarSet firmware .wsec val world) (setSec fun sec ↦
          { sec with
            cipherPairwise := sme.crypto.ciphersPairwise0
            cipherGroup := sme.crypto.cipherGroup })
  | _, _ => (-Errno.einval, world)

/-- One half of `wl_set_key_mgmt`: the switch over the first AKM suite; `none` is its default. -/
def akmVal (suite unspecified psk : UInt32) : Option UInt32 :=
  if suite = Wlan.akmSuite8021x then some unspecified
  else if suite = Wlan.akmSuitePsk then some psk
  else none

/-- `wl_set_key_mgmt`. -/
def wlSetKeyMgmt (sme : ConnectParams) (world : World Device) : ℤ × World Device :=
  let store := setSec fun sec ↦ { sec with wpaAuth := sme.crypto.akmSuites0 }
  if sme.crypto.nAkmSuites ≠ 0 then
    wlDevIntvarGet firmware .wpaAuth world fun val world ↦
      let val :=
        if val &&& (wpaAuthPsk ||| wpaAuthUnspecified) ≠ 0 then
          akmVal sme.crypto.akmSuites0 wpaAuthUnspecified wpaAuthPsk
        else if val &&& (wpa2AuthPsk ||| wpa2AuthUnspecified) ≠ 0 then
          akmVal sme.crypto.akmSuites0 wpa2AuthUnspecified wpa2AuthPsk
        else some val
      match val with
      | some val => ifOk (wlDevIntvarSet firmware .wpaAuth val world) store
      | none => (-Errno.einval, world)
  else store world

/-- The key of `wl_set_set_sharedkey`, in a structure that was cleared. -/
def sharedKey (sme : ConnectParams) (algo : UInt32) : WsecKey where
  index := sme.keyIdx.toUInt32
  len := sme.key.length
  data := sme.key ++ List.replicate (dot11MaxKeySize - sme.key.length) 0
  algo := algo
  flags := wlPrimaryKey

/-- `wl_set_set_sharedkey`; the test of the cipher is a bitwise and. -/
def wlSetSetSharedkey (sme : ConnectParams) (world : World Device) : ℤ × World Device :=
  let sec := world.priv.profile.sec
  if sme.key.length ≠ 0 ∧
      sec.wpaVersions &&& (Nl80211.wpaVersion1 ||| Nl80211.wpaVersion2) = 0 ∧
      sec.cipherPairwise &&& (Wlan.cipherSuiteWep40 ||| Wlan.cipherSuiteWep104) ≠ 0 then
    if dot11MaxKeySize < sme.key.length then (-Errno.einval, world)
    else if sec.cipherPairwise = Wlan.cipherSuiteWep40 then
      wlDevSet firmware (.setKey (sharedKey sme cryptoAlgoWep1)) world
    else if sec.cipherPairwise = Wlan.cipherSuiteWep104 then
      wlDevSet firmware (.setKey (sharedKey sme cryptoAlgoWep128)) world
    else (-Errno.einval, world)
  else (0, world)

/-- The network that `wl_cfg80211_connect` notes in the profile. -/
def noteNetwork (bssid : Option EtherAddr) (ssid : Ssid) (priv : Priv) : Priv :=
  { priv with profile :=
      { priv.profile with bssid := bssid.getD (Vector.replicate 6 0), ssid := ssid } }

/-- The part of `wl_cfg80211_connect` behind the security settings; the result of `wsec_restrict`
is not looked at. -/
def joinBss (sme : ConnectParams) (ssid : Ssid) (world : World Device) : ℤ × World Device :=
  let world := (wlDevIntvarSet firmware .wsecRestrict 1 world).2
  let ssid := ssid.take ieee80211SsidLen
  let world := { world with priv := noteNetwork sme.bssid ssid world.priv }
  ifOk (wlDevSet firmware (.setSsid ⟨ssid, etherBcast, sme.channel⟩) world) fun world ↦
    (0, { world with priv := { world.priv with connecting := true } })

/-- `wl_cfg80211_connect`. -/
def wlCfg80211Connect (sme : ConnectParams) (world : World Device) : ℤ × World Device :=
  match sme.ssid with
  | none => (-Errno.eopnotsupp, world)
  | some ssid =>
      ifOk (wlSetAuthType firmware sme world) fun world ↦
      ifOk (wlSetWpaVersion firmware sme world) fun world ↦
      ifOk (wlSetSetCipher firmware sme world) fun world ↦
      ifOk (wlSetKeyMgmt firmware sme world) fun world ↦
      ifOk (wlSetSetSharedkey firmware sme world) fun world ↦
      joinBss firmware sme ssid world

/-! ## The other calls -/

/-- `wl_cfg80211_disconnect`. -/
def wlCfg80211Disconnect (reasonCode : UInt16) (world : World Device) : ℤ × World Device :=
  if world.priv.profile.active then
    wlDevSet firmware (.disassoc world.priv.bssid reasonCode.toUInt32) world
  else (-Errno.eio, world)

/-- `wl_cfg80211_change_iface` behind the switch. -/
def setIface (type : Iftype) (mode : Mode) (infra : UInt32) (world : World Device) :
    ℤ × World Device :=
  let world := { world with priv := { world.priv with mode := mode }, iftype := type }
  ifOk (wlDevSet firmware (.setInfra infra) world) (wlDevSet firmware (.setAp 0))

/-- `wl_cfg80211_change_iface`. -/
def wlCfg80211ChangeIface (type : Iftype) (world : World Device) : ℤ × World Device :=
  match type with
  | .monitor | .wds => (-Errno.eopnotsupp, world)
  | .adhoc => setIface firmware type .ibss 0 world
  | .station => setIface firmware type .bss 1 world
  | .other => (-Errno.einval, world)

/-- `wl_cfg80211_join_ibss`. -/
def wlCfg80211JoinIbss (params : IbssParams) (world : World Device) : ℤ × World Device :=
  if params.bssid.isSome then (-Errno.eopnotsupp, world)
  else
    ifOk (wlDevIntvarSet firmware .auth 0 world) fun world ↦
    ifOk (wlDevIntvarSet firmware .wpaAuth wpaAuthNone world) fun world ↦
    wlDevIntvarGet firmware .wsec world fun val world ↦
    ifOk (wlDevIntvarSet firmware .wsec
      (val &&& ~~~(wepEnabled ||| tkipEnabled ||| aesEnabled)) world) fun world ↦
    wlDevSet firmware (.setSsid ⟨params.ssid, Vector.replicate 6 0, params.channel⟩) world

/-- `wl_cfg80211_leave_ibss`. -/
def wlCfg80211LeaveIbss (world : World Device) : ℤ × World Device :=
  (0, { world with priv := wlLinkDown world.priv })

/-- The two ioctls of `wl_cfg80211_scan`. -/
def scanIoctls (world : World Device) : ℤ × World Device :=
  let passiveScan : UInt32 := if world.activeScan then 0 else 1
  ifOk (wlDevSet firmware (.setPassiveScan passiveScan) world) fun world ↦
    wlDevSet firmware (.scan world.scanReqSsid) world

/-- `wl_cfg80211_scan` with a request; a failed ioctl leads to `scan_out`. -/
def wlCfg80211Scan (request : ℕ) (ssid : Option Ssid) (world : World Device) :
    ℤ × World Device :=
  let world := { world with
    priv := { world.priv with scanRequest := some request }
    scanReqSsid := (ssid.getD []).take ieee80211SsidLen }
  let (err, world) := scanIoctls firmware world
  if err ≠ 0 then (err, { world with priv := { world.priv with scanRequest := none } })
  else (0, world)

/-! ## What the calls leave alone -/

variable {firmware}

@[simp]
theorem wlDevSet_priv (request : Request) (world : World Device) :
    (wlDevSet firmware request world).2.priv = world.priv := rfl

@[simp]
theorem wlDevIntvarSet_priv (name : Iovar) (val : UInt32) (world : World Device) :
    (wlDevIntvarSet firmware name val world).2.priv = world.priv := rfl

/-- What both parts of a function keep, the function keeps. -/
theorem ifOk_rule {P : Priv → Prop} {result : ℤ × World Device}
    {rest : World Device → ℤ × World Device} (hresult : P result.2.priv)
    (hrest : ∀ world : World Device, P world.priv → P (rest world).2.priv) :
    P (ifOk result rest).2.priv := by
  unfold ifOk
  split
  · exact hresult
  · exact hrest _ hresult

theorem wlDevIntvarGet_rule {P : Priv → Prop} {name : Iovar} {world : World Device}
    {rest : UInt32 → World Device → ℤ × World Device} (hworld : P world.priv)
    (hrest : ∀ val (world : World Device), P world.priv → P (rest val world).2.priv) :
    P (wlDevIntvarGet firmware name world rest).2.priv := by
  unfold wlDevIntvarGet
  dsimp only
  split
  · exact hworld
  · exact hrest _ _ hworld

/-- The states differ at most in the security settings of the profile. -/
def OnlySec (priv next : Priv) : Prop :=
  ∃ sec, next = { priv with profile := { priv.profile with sec := sec } }

theorem OnlySec.refl (priv : Priv) : OnlySec priv priv := ⟨priv.profile.sec, rfl⟩

section OnlySec

variable {priv : Priv} {world : World Device}

theorem OnlySec.setSec (h : OnlySec priv world.priv) (update : Security → Security) :
    OnlySec priv (setSec update world).2.priv := by
  obtain ⟨sec, hsec⟩ := h
  refine ⟨update world.priv.profile.sec, ?_⟩
  simp only [Cfg80211.setSec, hsec]

variable (sme : ConnectParams)

theorem OnlySec.wlSetAuthType (h : OnlySec priv world.priv) :
    OnlySec priv (wlSetAuthType firmware sme world).2.priv :=
  ifOk_rule h fun _ hworld ↦ hworld.setSec _

theorem OnlySec.wlSetWpaVersion (h : OnlySec priv world.priv) :
    OnlySec priv (wlSetWpaVersion firmware sme world).2.priv :=
  ifOk_rule h fun _ hworld ↦ hworld.setSec _

theorem OnlySec.wlSetSetCipher (h : OnlySec priv world.priv) :
    OnlySec priv (wlSetSetCipher firmware sme world).2.priv := by
  unfold Cfg80211.wlSetSetCipher
  dsimp only
  split
  · refine wlDevIntvarGet_rule h fun val world hworld ↦ ?_
    exact ifOk_rule hworld fun _ hworld ↦ hworld.setSec _
  · exact h

theorem OnlySec.wlSetKeyMgmt (h : OnlySec priv world.priv) :
    OnlySec priv (wlSetKeyMgmt firmware sme world).2.priv := by
  unfold Cfg80211.wlSetKeyMgmt
  dsimp only
  split
  · refine wlDevIntvarGet_rule h fun val world hworld ↦ ?_
    split
    · exact ifOk_rule hworld fun _ hworld ↦ hworld.setSec _
    · exact hworld
  · exact h.setSec _

theorem OnlySec.wlSetSetSharedkey (h : OnlySec priv world.priv) :
    OnlySec priv (wlSetSetSharedkey firmware sme world).2.priv := by
  unfold Cfg80211.wlSetSetSharedkey
  dsimp only
  split
  · split
    · exact h
    · split
      · exact h
      · split <;> exact h
  · exact h

end OnlySec

/-- What a connect call makes of the driver's state: it changes the profile, but not whether it is
active, and sets the bit when it returns zero. -/
def Connects (priv : Priv) (result : ℤ × World Device) : Prop :=
  ∃ profile, profile.active = priv.profile.active ∧
    result.2.priv = { priv with
      profile := profile
      connecting := decide (result.1 = 0) || priv.connecting }

theorem OnlySec.connects {priv : Priv} {result : ℤ × World Device}
    (h : OnlySec priv result.2.priv) (herr : result.1 ≠ 0) : Connects priv result := by
  obtain ⟨sec, hsec⟩ := h
  refine ⟨{ priv.profile with sec := sec }, rfl, ?_⟩
  rw [hsec, decide_eq_false herr, Bool.false_or]

theorem connects_ifOk {priv : Priv} {result : ℤ × World Device}
    {rest : World Device → ℤ × World Device} (hresult : OnlySec priv result.2.priv)
    (hrest : ∀ world : World Device, OnlySec priv world.priv → Connects priv (rest world)) :
    Connects priv (ifOk result rest) := by
  unfold ifOk
  split
  · rename_i herr
    exact hresult.connects herr
  · exact hrest _ hresult

theorem connects_joinBss {priv : Priv} {world : World Device} (h : OnlySec priv world.priv)
    (sme : ConnectParams) (ssid : Ssid) : Connects priv (joinBss firmware sme ssid world) := by
  obtain ⟨sec, hsec⟩ := h
  let noted := noteNetwork sme.bssid (ssid.take ieee80211SsidLen) world.priv
  have hactive : noted.profile.active = priv.profile.active := by
    simp only [noted, noteNetwork, hsec]
  have hnoted : noted = { priv with profile := noted.profile } := by
    simp only [noted, noteNetwork, hsec]
  refine ⟨noted.profile, hactive, ?_⟩
  unfold joinBss ifOk
  dsimp only
  split
  · rename_i herr
    rw [decide_eq_false herr, Bool.false_or]
    exact hnoted
  · exact congrArg (fun priv : Priv ↦ { priv with connecting := true }) hnoted

theorem connects_wlCfg80211Connect (sme : ConnectParams) (world : World Device) :
    Connects world.priv (wlCfg80211Connect firmware sme world) := by
  unfold wlCfg80211Connect
  split
  · have herr : -Errno.eopnotsupp ≠ 0 := by decide
    exact @OnlySec.connects _ _ (-Errno.eopnotsupp, world) (.refl world.priv) herr
  · refine connects_ifOk ((OnlySec.refl _).wlSetAuthType sme) fun world hworld ↦ ?_
    refine connects_ifOk (hworld.wlSetWpaVersion sme) fun world hworld ↦ ?_
    refine connects_ifOk (hworld.wlSetSetCipher sme) fun world hworld ↦ ?_
    refine connects_ifOk (hworld.wlSetKeyMgmt sme) fun world hworld ↦ ?_
    refine connects_ifOk (hworld.wlSetSetSharedkey sme) fun world hworld ↦ ?_
    exact connects_joinBss hworld sme _

theorem wlCfg80211Disconnect_priv (reasonCode : UInt16) (world : World Device) :
    (wlCfg80211Disconnect firmware reasonCode world).2.priv = world.priv := by
  unfold wlCfg80211Disconnect
  split <;> rfl

theorem wlCfg80211ChangeIface_priv (type : Iftype) (world : World Device) :
    ∃ mode, (wlCfg80211ChangeIface firmware type world).2.priv =
      { world.priv with mode := mode } := by
  have hsame : ∃ mode, world.priv = { world.priv with mode := mode } := ⟨world.priv.mode, rfl⟩
  have hset : ∀ mode infra, (setIface firmware type mode infra world).2.priv =
      { world.priv with mode := mode } := fun mode infra ↦
    @ifOk_rule _ (· = { world.priv with mode := mode }) _ _ rfl fun _ hworld ↦ hworld
  cases type with
  | adhoc => exact ⟨.ibss, hset .ibss 0⟩
  | station => exact ⟨.bss, hset .bss 1⟩
  | monitor | wds | other => exact hsame

theorem wlCfg80211JoinIbss_priv (params : IbssParams) (world : World Device) :
    (wlCfg80211JoinIbss firmware params world).2.priv = world.priv := by
  unfold wlCfg80211JoinIbss
  split
  · rfl
  · refine @ifOk_rule _ (· = world.priv) _ _ rfl fun _ hworld ↦ ?_
    refine @ifOk_rule _ (· = world.priv) _ _ hworld fun _ hworld ↦ ?_
    refine @wlDevIntvarGet_rule _ _ (· = world.priv) _ _ _ hworld fun val _ hworld ↦ ?_
    exact @ifOk_rule _ (· = world.priv) _ _ hworld fun _ hworld ↦ hworld

theorem scanIoctls_priv (world : World Device) :
    (scanIoctls firmware world).2.priv = world.priv := by
  unfold scanIoctls
  exact @ifOk_rule _ (· = world.priv) (wlDevSet ..) _ rfl fun _ hworld ↦ hworld

theorem wlCfg80211Scan_priv (request : ℕ) (ssid : Option Ssid) (world : World Device) :
    ∃ pending, (wlCfg80211Scan firmware request ssid world).2.priv =
      { world.priv with scanRequest := pending } := by
  unfold wlCfg80211Scan
  dsimp only
  split
  · refine ⟨none, ?_⟩
    rw [scanIoctls_priv]
  · exact ⟨some request, scanIoctls_priv _⟩

/-! ## Calls and events in any order -/

inductive Call where
  | connect (sme : ConnectParams)
  | disconnect (reasonCode : UInt16)
  | changeIface (type : Iftype)
  | joinIbss (params : IbssParams)
  | leaveIbss
  | scan (request : ℕ) (ssid : Option Ssid)

variable (firmware) in
def Call.run (world : World Device) : Call → ℤ × World Device
  | .connect sme => wlCfg80211Connect firmware sme world
  | .disconnect reasonCode => wlCfg80211Disconnect firmware reasonCode world
  | .changeIface type => wlCfg80211ChangeIface firmware type world
  | .joinIbss params => wlCfg80211JoinIbss firmware params world
  | .leaveIbss => wlCfg80211LeaveIbss world
  | .scan request ssid => wlCfg80211Scan firmware request ssid world

/-- One step of a session: a call, or an event with the answers its handler met. -/
inductive Action where
  | call (call : Call)
  | event (handled : Handled)

/-- The number of connect calls that returned zero is history. -/
structure Session (Device : Type*) where
  world : World Device
  connects : ℕ

variable (firmware) in
def Session.step (session : Session Device) : Action → Session Device
  | .call call =>
      let (err, world) := call.run firmware session.world
      match call with
      | .connect _ => ⟨world, if err = 0 then session.connects + 1 else session.connects⟩
      | _ => ⟨world, session.connects⟩
  | .event handled =>
      { session with world := { session.world with
          priv := handleEvent handled.e handled.answers session.world.priv } }

/-- The state that `wl_init_cfg80211_priv` leaves behind, in any mode. -/
structure Attached (priv : Priv) : Prop where
  profile : priv.profile = wlInitProf
  connInfo : priv.connInfo = ⟨⟨none, 0⟩, ⟨none, 0⟩⟩
  connecting : priv.connecting = false
  connected : priv.connected = false
  heap : priv.heap.next = 0 ∧ ∀ ie, priv.heap.frees ie = 0
  upcalls : priv.upcalls = []

variable (firmware) in
def sessionMachine : Machine (Session Device) Action where
  initial session := Attached session.world.priv ∧ session.connects = 0
  step session action := some (session.step firmware action)

end Calls

end BroadcomWl.Cfg80211
