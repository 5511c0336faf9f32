import BroadcomWl.Cfg80211.Priv
import BroadcomWl.Memory.Bytes

/-!
# Keys

`wl_cfg80211_add_key` translates a key of cfg80211 into a `struct wl_wsec_key`, hands it to
`WLC_SET_KEY`, adds the bit of its cipher to the iovar `wsec` and notes the cipher in the
profile. `wl_cfg80211_get_key` reads a key back with `WLC_GET_KEY`, reads `WLC_GET_WSEC`, and
reports both to a callback of cfg80211.

The firmware's answers are arguments. The endian helpers are the macros of the header, which
are the identity.
-/

namespace BroadcomWl.Cfg80211.Keys

open BroadcomWl.Memory

def einval : ℤ := 22

def wlanCipherSuiteWep40 : UInt32 := 0x000FAC01
def wlanCipherSuiteTkip : UInt32 := 0x000FAC02
def wlanCipherSuiteCcmp : UInt32 := 0x000FAC04
def wlanCipherSuiteWep104 : UInt32 := 0x000FAC05
def wlanCipherSuiteAesCmac : UInt32 := 0x000FAC06

def cryptoAlgoOff : UInt32 := 0
def cryptoAlgoWep1 : UInt32 := 1
def cryptoAlgoTkip : UInt32 := 2
def cryptoAlgoWep128 : UInt32 := 3
def cryptoAlgoAesCcm : UInt32 := 4

def wepEnabled : Int32 := 0x0001
def tkipEnabled : Int32 := 0x0002
def aesEnabled : Int32 := 0x0004

def dot11MaxKeySize : ℕ := 32

/-- `ETHER_ISMULTI`. -/
def etherIsmulti (addr : EtherAddr) : Bool := addr[0] &&& 1 != 0

/-- `struct wl_wsec_key`, with the bytes that the compiler adds behind `rxiv` and at the end. -/
@[ext]
structure WlWsecKey where
  index : UInt32
  len : UInt32
  data : Vector UInt8 32
  pad1 : Vector UInt32 18
  algo : UInt32
  flags : UInt32
  pad2 : Vector UInt32 2
  pad3 : Int32
  ivInitialized : Int32
  pad4 : Int32
  rxivHi : UInt32
  rxivLo : UInt16
  rxivPadding : Vector UInt8 2
  pad5 : Vector UInt32 2
  ea : EtherAddr
  padding : Vector UInt8 2
deriving DecidableEq

/-- A key after `memset`. -/
def WlWsecKey.zeroed : WlWsecKey where
  index := 0
  len := 0
  data := Vector.replicate 32 0
  pad1 := Vector.replicate 18 0
  algo := cryptoAlgoOff
  flags := 0
  pad2 := Vector.replicate 2 0
  pad3 := 0
  ivInitialized := 0
  pad4 := 0
  rxivHi := 0
  rxivLo := 0
  rxivPadding := Vector.replicate 2 0
  pad5 := Vector.replicate 2 0
  ea := Vector.replicate 6 0
  padding := Vector.replicate 2 0

def htod32 (i : UInt32) : UInt32 := i

def htod16 (i : UInt16) : UInt16 := i

def dtoh32 (i : UInt32) : UInt32 := i

def dtoh16 (i : UInt16) : UInt16 := i

/-- `key_endian_to_device`. -/
def keyEndianToDevice (key : WlWsecKey) : WlWsecKey :=
  { key with
    index := htod32 key.index
    len := htod32 key.len
    algo := htod32 key.algo
    flags := htod32 key.flags
    rxivHi := htod32 key.rxivHi
    rxivLo := htod16 key.rxivLo
    ivInitialized := (htod32 key.ivInitialized.toUInt32).toInt32 }

/-- `key_endian_to_host`. -/
def keyEndianToHost (key : WlWsecKey) : WlWsecKey :=
  { key with
    index := dtoh32 key.index
    len := dtoh32 key.len
    algo := dtoh32 key.algo
    flags := dtoh32 key.flags
    rxivHi := dtoh32 key.rxivHi
    rxivLo := dtoh16 key.rxivLo
    ivInitialized := (dtoh32 key.ivInitialized.toUInt32).toInt32 }

@[simp]
theorem keyEndianToDevice_eq (key : WlWsecKey) : keyEndianToDevice key = key := rfl

@[simp]
theorem keyEndianToHost_eq (key : WlWsecKey) : keyEndianToHost key = key := rfl

/-! ## Adding a key -/

/-- `struct key_params` as cfg80211 fills it; `key` and `seq` are what the pointers point to. -/
structure KeyParams where
  key : ℕ → UInt8
  seq : ℕ → UInt8
  keyLen : Int32
  seqLen : Int32
  cipher : UInt32

/-- The bytes of the key. -/
def KeyParams.keyBytes (params : KeyParams) : List UInt8 :=
  (List.range params.keyLen.toUInt32.toNat).map params.key

/-- The switch over the cipher: the algorithm and the bit of `wsec`. -/
def cipherAlgo (cipher : UInt32) : Option (UInt32 × Int32) :=
  if cipher = wlanCipherSuiteWep40 then some (cryptoAlgoWep1, wepEnabled)
  else if cipher = wlanCipherSuiteWep104 then some (cryptoAlgoWep128, wepEnabled)
  else if cipher = wlanCipherSuiteTkip then some (cryptoAlgoTkip, tkipEnabled)
  else if cipher = wlanCipherSuiteAesCmac then some (cryptoAlgoAesCcm, aesEnabled)
  else if cipher = wlanCipherSuiteCcmp then some (cryptoAlgoAesCcm, aesEnabled)
  else none

/-- The address of a unicast peer goes into the key. -/
def copyPeer (macAddr : Option EtherAddr) (key : WlWsecKey) : WlWsecKey :=
  match macAddr with
  | none => key
  | some addr => if !etherIsmulti addr then { key with ea := addr } else key

/-- The MIC halves of a TKIP key change places through `keybuf`. -/
def swapMicHalves (data : Vector UInt8 32) : Vector UInt8 32 :=
  let keybuf := memcpy (Vector.replicate 8 0) 0 (readAt data 24) 8
  let data := memcpy data 24 (readAt data 16) 8
  memcpy data 16 (readAt keybuf 0) 8

/-- The receive sequence: `ivptr[5]` to `ivptr[2]`, and `ivptr[1]` with `ivptr[0]`. -/
def packRxiv (ivptr : ℕ → UInt8) (key : WlWsecKey) : WlWsecKey :=
  { key with
    rxivHi :=
      (ivptr 5).toUInt32 <<< 24 ||| (ivptr 4).toUInt32 <<< 16 ||| (ivptr 3).toUInt32 <<< 8 |||
        (ivptr 2).toUInt32
    rxivLo := (ivptr 1).toUInt16 <<< 8 ||| (ivptr 0).toUInt16
    ivInitialized := 1 }

/-- What `wl_cfg80211_add_key` hands to `WLC_SET_KEY`, with the bit of `wsec`; `none` stands for
`-EINVAL`. -/
def addKeyRequest (keyIdx : UInt8) (macAddr : Option EtherAddr) (params : KeyParams) :
    Option (WlWsecKey × Int32) :=
  match cipherAlgo params.cipher with
  | none => none
  | some (algo, secnew) =>
      let key := { WlWsecKey.zeroed with index := keyIdx.toUInt32, algo := algo }
      let key := copyPeer macAddr key
      let key := { key with len := params.keyLen.toUInt32 }
      if key.len.toNat > dot11MaxKeySize then none
      else
        let key := { key with data := memcpy key.data 0 params.key key.len.toNat }
        let key :=
          if params.cipher = wlanCipherSuiteTkip then { key with data := swapMicHalves key.data }
          else key
        let key := if params.seqLen ≠ 0 then packRxiv params.seq key else key
        some (keyEndianToDevice key, secnew)

/-- The value of `wsec` with the bit of the new cipher. -/
def updateWsec (secnew secval : Int32) : Int32 :=
  (if secnew = wepEnabled then secval &&& ~~~(tkipEnabled ||| aesEnabled)
    else secval &&& ~~~wepEnabled) ||| secnew

/-- The firmware's answers to `WLC_SET_KEY` and to reading and writing `wsec`. -/
structure AddKeyAnswers where
  setKeyErr : ℤ
  getErr : ℤ
  wsec : Int32
  setErr : ℤ

/-- What one call of `wl_cfg80211_add_key` returns, what it hands to `WLC_SET_KEY` and writes to
`wsec`, and the security settings it leaves in the profile. -/
structure AddKeyResult where
  err : ℤ
  key : Option WlWsecKey
  wsec : Option Int32
  sec : Security

/-- The cipher is noted in the profile. -/
def noteCipher (macAddr : Option EtherAddr) (cipher : UInt32) (sec : Security) : Security :=
  match macAddr with
  | some _ => { sec with cipherPairwise := cipher }
  | none => { sec with cipherGroup := cipher }

/-- `wl_cfg80211_add_key`. -/
def wlCfg80211AddKey (keyIdx : UInt8) (macAddr : Option EtherAddr) (params : KeyParams)
    (answers : AddKeyAnswers) (sec : Security) : AddKeyResult :=
  match addKeyRequest keyIdx macAddr params with
  | none => ⟨-einval, none, none, sec⟩
  | some (key, secnew) =>
      if answers.setKeyErr ≠ 0 then ⟨answers.setKeyErr, some key, none, sec⟩
      else if answers.getErr ≠ 0 then ⟨answers.getErr, some key, none, sec⟩
      else
        let secval := updateWsec secnew answers.wsec
        if answers.setErr ≠ 0 then ⟨answers.setErr, some key, some secval, sec⟩
        else ⟨0, some key, some secval, noteCipher macAddr params.cipher sec⟩

/-! ## Reading a key -/

/-- What the callback finds in its `struct key_params`. -/
structure Reported where
  cipher : UInt32
  key : List UInt8
deriving DecidableEq

/-- `min_t(u8, ..)`. -/
def minU8 (x y : UInt8) : UInt8 := if x < y then x else y

/-- `memcpy` to `params.key`, which `memset` has made `NULL`: only an empty copy is harmless. -/
def copyToNull (len : UInt8) : Option (List UInt8) := if len = 0 then some [] else none

/-- The switch over `wsec`; `none` stands for `-EINVAL`. The field `cipher` is zero before. -/
def reportedCipher (wsec : Int32) (sec : Security) : Option UInt32 :=
  if wsec = wepEnabled then
    if sec.cipherPairwise &&& wlanCipherSuiteWep40 ≠ 0 then some wlanCipherSuiteWep40
    else if sec.cipherPairwise &&& wlanCipherSuiteWep104 ≠ 0 then some wlanCipherSuiteWep104
    else some 0
  else if wsec = tkipEnabled then some wlanCipherSuiteTkip
  else if wsec = aesEnabled then some wlanCipherSuiteAesCmac
  else none

/-- `wl_cfg80211_get_key`: its result and what the callback gets, or `none` when it writes to
`NULL`. `wlcGetKey` answers for the buffer it is given. -/
def wlCfg80211GetKey (keyIdx : UInt8) (wlcGetKey : WlWsecKey → ℤ × WlWsecKey)
    (wlcGetWsec : ℤ × Int32) (sec : Security) : Option (ℤ × Option Reported) :=
  let (err, key) := wlcGetKey (keyEndianToDevice { WlWsecKey.zeroed with index := keyIdx.toUInt32 })
  if err ≠ 0 then some (err, none)
  else
    let key := keyEndianToHost key
    match copyToNull (minU8 (UInt8.ofNat dot11MaxKeySize) key.len.toUInt8) with
    | none => none
    | some bytes =>
        let (err, wsec) := wlcGetWsec
        if err ≠ 0 then some (err, none)
        else
          match reportedCipher wsec sec with
          | none => some (-einval, none)
          | some cipher => some (0, some ⟨cipher, bytes⟩)

/-! ## The round trip -/

/-- The answer to `WLC_GET_KEY` of a firmware that keeps the keys in `store`. -/
def storedKey (store : UInt32 → WlWsecKey) (request : WlWsecKey) : ℤ × WlWsecKey :=
  (0, store request.index)

/-- What was added is reported: nothing is written to `NULL`, and the callback gets the cipher
and the bytes of the key. -/
def RoundTrip (keyIdx : UInt8) (params : KeyParams) (added : AddKeyResult) : Prop :=
  ∀ key wsec store, added.key = some key → added.wsec = some wsec → store key.index = key →
    wlCfg80211GetKey keyIdx (storedKey store) (0, wsec) added.sec =
      some (0, some ⟨params.cipher, params.keyBytes⟩)

/-- The key is empty, no bit of another cipher is left in `wsec`, and the cipher is the one that
the pairwise cipher of the profile and the switch over `wsec` lead to. -/
def Recoverable (macAddr : Option EtherAddr) (params : KeyParams) (wsec : Int32)
    (sec : Security) : Prop :=
  params.keyLen = 0 ∧
    ((params.cipher = wlanCipherSuiteWep40 ∧
        wsec &&& ~~~(wepEnabled ||| tkipEnabled ||| aesEnabled) = 0 ∧
        (macAddr = none → sec.cipherPairwise &&& wlanCipherSuiteWep40 ≠ 0)) ∨
      (params.cipher = wlanCipherSuiteWep104 ∧
        wsec &&& ~~~(wepEnabled ||| tkipEnabled ||| aesEnabled) = 0 ∧
        macAddr = none ∧ sec.cipherPairwise &&& wlanCipherSuiteWep40 = 0 ∧
        sec.cipherPairwise &&& wlanCipherSuiteWep104 ≠ 0) ∨
      (params.cipher = wlanCipherSuiteAesCmac ∧ wsec &&& ~~~(wepEnabled ||| aesEnabled) = 0))

/-- The address in a key after `copyPeer`, where `ea` was before. -/
def peerAddress (macAddr : Option EtherAddr) (ea : EtherAddr) : EtherAddr :=
  match macAddr with
  | none => ea
  | some addr => if !etherIsmulti addr then addr else ea

theorem copyPeer_eq (macAddr : Option EtherAddr) (key : WlWsecKey) :
    copyPeer macAddr key = { key with ea := peerAddress macAddr key.ea } := by
  unfold copyPeer peerAddress
  cases macAddr with
  | none => rfl
  | some addr =>
    dsimp only
    split <;> rfl

/-- Only six bytes of the sequence matter. -/
theorem packRxiv_congr {ivptr ivptr' : ℕ → UInt8} (h : ∀ i < 6, ivptr i = ivptr' i)
    (key : WlWsecKey) : packRxiv ivptr key = packRxiv ivptr' key := by
  unfold packRxiv
  rw [h 0 (by decide), h 1 (by decide), h 2 (by decide), h 3 (by decide), h 4 (by decide),
    h 5 (by decide)]

/-- A request carries the index and the length, and the length fits the key. -/
theorem addKeyRequest_eq_some {keyIdx : UInt8} {macAddr : Option EtherAddr} {params : KeyParams}
    {key : WlWsecKey} {secnew : Int32}
    (h : addKeyRequest keyIdx macAddr params = some (key, secnew)) :
    key.index = keyIdx.toUInt32 ∧ key.len = params.keyLen.toUInt32 ∧
      params.keyLen.toUInt32.toNat ≤ dot11MaxKeySize ∧
      ∃ algo, cipherAlgo params.cipher = some (algo, secnew) := by
  unfold addKeyRequest at h
  cases hcipher : cipherAlgo params.cipher with
  | none => simp [hcipher] at h
  | some choice =>
    obtain ⟨algo, bit⟩ := choice
    simp only [hcipher, keyEndianToDevice_eq, copyPeer_eq] at h
    split at h
    · cases h
    · rename_i hlen
      obtain ⟨rfl, rfl⟩ := Prod.mk.inj (Option.some.inj h)
      refine ⟨?_, ?_, Nat.le_of_not_gt hlen, algo, rfl⟩
      · split <;> split <;> rfl
      · split <;> split <;> rfl

/-- A call that returned 0 handed over its request, wrote `wsec` and noted the cipher. -/
theorem wlCfg80211AddKey_accepted {keyIdx : UInt8} {macAddr : Option EtherAddr}
    {params : KeyParams} {answers : AddKeyAnswers} {sec : Security}
    (h : (wlCfg80211AddKey keyIdx macAddr params answers sec).err = 0) :
    ∃ key secnew, addKeyRequest keyIdx macAddr params = some (key, secnew) ∧
      wlCfg80211AddKey keyIdx macAddr params answers sec =
        ⟨0, some key, some (updateWsec secnew answers.wsec),
          noteCipher macAddr params.cipher sec⟩ := by
  unfold wlCfg80211AddKey at h ⊢
  cases hrequest : addKeyRequest keyIdx macAddr params with
  | none =>
    rw [hrequest] at h
    have herr : (-einval : ℤ) = 0 := h
    exact absurd herr (by decide)
  | some request =>
    obtain ⟨key, secnew⟩ := request
    refine ⟨key, secnew, rfl, ?_⟩
    simp only [hrequest] at h ⊢
    by_cases hset : answers.setKeyErr = 0
    · by_cases hget : answers.getErr = 0
      · by_cases hwsec : answers.setErr = 0
        · rw [if_neg (not_not.mpr hset), if_neg (not_not.mpr hget), if_neg (not_not.mpr hwsec)]
        · rw [if_neg (not_not.mpr hset), if_neg (not_not.mpr hget), if_pos hwsec] at h
          exact absurd h hwsec
      · rw [if_neg (not_not.mpr hset), if_pos hget] at h
        exact absurd h hget
    · rw [if_pos hset] at h
      exact absurd h hset

/-- A key that was read back is reported only when it is empty. -/
theorem wlCfg80211GetKey_stored {keyIdx : UInt8} {store : UInt32 → WlWsecKey} {key : WlWsecKey}
    (hkey : store keyIdx.toUInt32 = key) (hlen : key.len.toNat ≤ dot11MaxKeySize)
    (wsec : Int32) (sec : Security) (cipher : UInt32) (bytes : List UInt8) :
    wlCfg80211GetKey keyIdx (storedKey store) (0, wsec) sec = some (0, some ⟨cipher, bytes⟩) ↔
      key.len = 0 ∧ bytes = [] ∧ reportedCipher wsec sec = some cipher := by
  have hbyte : key.len.toUInt8 = 0 ↔ key.len = 0 := by
    unfold dot11MaxKeySize at hlen
    rw [← UInt8.toNat_inj, ← UInt32.toNat_inj, UInt32.toNat_toUInt8, Nat.mod_eq_of_lt (by omega)]
    rfl
  have hzero : minU8 (UInt8.ofNat dot11MaxKeySize) key.len.toUInt8 = 0 ↔ key.len = 0 := by
    unfold minU8
    split
    · rename_i hlt
      refine ⟨fun h ↦ absurd h (by decide), fun h ↦ ?_⟩
      rw [hbyte.mpr h] at hlt
      exact absurd hlt (by decide)
    · exact hbyte
  have hanswer : storedKey store
      (keyEndianToDevice { WlWsecKey.zeroed with index := keyIdx.toUInt32 }) = (0, key) := by
    rw [← hkey]
    rfl
  have hcopy : copyToNull (minU8 (UInt8.ofNat dot11MaxKeySize) key.len.toUInt8) =
      if key.len = 0 then some [] else none := by
    unfold copyToNull
    simp only [hzero]
  unfold wlCfg80211GetKey
  rw [hanswer]
  simp only [ne_eq, not_true_eq_false, if_false, keyEndianToHost_eq, hcopy]
  by_cases hempty : key.len = 0
  · cases reportedCipher wsec sec with
    | none => simp [hempty]
    | some reported => simp [hempty, eq_comm, and_comm]
  · simp [hempty]

/-! ### What the switch over `wsec` finds -/

/-- After a WEP key the switch finds WEP exactly when no bit of another kind was set. -/
theorem reportedCipher_wep (wsec : Int32) (sec : Security) :
    reportedCipher (updateWsec wepEnabled wsec) sec =
      if wsec &&& ~~~(wepEnabled ||| tkipEnabled ||| aesEnabled) = 0 then
        some (if sec.cipherPairwise &&& wlanCipherSuiteWep40 ≠ 0 then wlanCipherSuiteWep40
          else if sec.cipherPairwise &&& wlanCipherSuiteWep104 ≠ 0 then wlanCipherSuiteWep104
          else 0)
      else none := by
  have hwep : updateWsec wepEnabled wsec = wepEnabled ↔
      wsec &&& ~~~(wepEnabled ||| tkipEnabled ||| aesEnabled) = 0 :=
    and_or_eq_right_iff wsec (~~~(tkipEnabled ||| aesEnabled)) wepEnabled
  have htkip : updateWsec wepEnabled wsec ≠ tkipEnabled := or_ne _ (by decide)
  have haes : updateWsec wepEnabled wsec ≠ aesEnabled := or_ne _ (by decide)
  unfold reportedCipher
  rw [if_neg htkip, if_neg haes]
  by_cases hclear : wsec &&& ~~~(wepEnabled ||| tkipEnabled ||| aesEnabled) = 0
  · rw [if_pos hclear, if_pos (hwep.mpr hclear)]
    split_ifs <;> rfl
  · rw [if_neg hclear, if_neg (mt hwep.mp hclear)]

/-- After an AES key the switch reports AES-CMAC, or nothing. -/
theorem reportedCipher_aes (wsec : Int32) (sec : Security) :
    reportedCipher (updateWsec aesEnabled wsec) sec =
      if wsec &&& ~~~(wepEnabled ||| aesEnabled) = 0 then some wlanCipherSuiteAesCmac
      else none := by
  have haes : updateWsec aesEnabled wsec = aesEnabled ↔
      wsec &&& ~~~(wepEnabled ||| aesEnabled) = 0 :=
    and_or_eq_right_iff wsec (~~~wepEnabled) aesEnabled
  have hwep : updateWsec aesEnabled wsec ≠ wepEnabled := or_ne _ (by decide)
  have htkip : updateWsec aesEnabled wsec ≠ tkipEnabled := or_ne _ (by decide)
  unfold reportedCipher
  rw [if_neg hwep, if_neg htkip]
  by_cases hclear : wsec &&& ~~~(wepEnabled ||| aesEnabled) = 0
  · rw [if_pos hclear, if_pos (haes.mpr hclear)]
  · rw [if_neg hclear, if_neg (mt haes.mp hclear)]

theorem cipherAlgo_eq_some {cipher algo : UInt32} {secnew : Int32}
    (h : cipherAlgo cipher = some (algo, secnew)) :
    (cipher = wlanCipherSuiteWep40 ∧ secnew = wepEnabled) ∨
      (cipher = wlanCipherSuiteWep104 ∧ secnew = wepEnabled) ∨
      (cipher = wlanCipherSuiteTkip ∧ secnew = tkipEnabled) ∨
      (cipher = wlanCipherSuiteAesCmac ∧ secnew = aesEnabled) ∨
      (cipher = wlanCipherSuiteCcmp ∧ secnew = aesEnabled) := by
  unfold cipherAlgo at h
  split_ifs at h <;> simp_all

/-- Which accepted keys the switch gives the cipher they were added with. -/
theorem reportedCipher_added_iff {macAddr : Option EtherAddr} {params : KeyParams}
    {algo : UInt32} {secnew : Int32} (halgo : cipherAlgo params.cipher = some (algo, secnew))
    (htkip : params.cipher ≠ wlanCipherSuiteTkip) (hempty : params.keyLen = 0) (wsec : Int32)
    (sec : Security) :
    reportedCipher (updateWsec secnew wsec) (noteCipher macAddr params.cipher sec) =
        some params.cipher ↔ Recoverable macAddr params wsec sec := by
  have h40_104 : wlanCipherSuiteWep40 ≠ wlanCipherSuiteWep104 := by decide
  have h40_cmac : wlanCipherSuiteWep40 ≠ wlanCipherSuiteAesCmac := by decide
  have h104_cmac : wlanCipherSuiteWep104 ≠ wlanCipherSuiteAesCmac := by decide
  have h40_zero : wlanCipherSuiteWep40 ≠ 0 := by decide
  have h104_zero : wlanCipherSuiteWep104 ≠ 0 := by decide
  -- The bits of WEP40 are among those of WEP104, so the first test cannot tell them apart.
  have hshared : wlanCipherSuiteWep104 &&& wlanCipherSuiteWep40 ≠ 0 := by decide
  unfold Recoverable
  obtain ⟨hcipher, rfl⟩ | ⟨hcipher, rfl⟩ | ⟨hcipher, -⟩ | ⟨hcipher, rfl⟩ | ⟨hcipher, rfl⟩ :=
    cipherAlgo_eq_some halgo
  · rw [reportedCipher_wep, hcipher]
    by_cases hclear : wsec &&& ~~~(wepEnabled ||| tkipEnabled ||| aesEnabled) = 0
    · cases macAddr with
      | none =>
        by_cases h40 : sec.cipherPairwise &&& wlanCipherSuiteWep40 = 0 <;>
        by_cases h104 : sec.cipherPairwise &&& wlanCipherSuiteWep104 = 0 <;>
        simp [noteCipher, hclear, hempty, h40, h104, h40_104, h40_104.symm, h40_cmac,
          h40_zero.symm]
      | some addr => simp [noteCipher, hclear, hempty, h40_zero]
    · simp [hclear, hempty, h40_104, h40_cmac]
  · rw [reportedCipher_wep, hcipher]
    by_cases hclear : wsec &&& ~~~(wepEnabled ||| tkipEnabled ||| aesEnabled) = 0
    · cases macAddr with
      | none =>
        by_cases h40 : sec.cipherPairwise &&& wlanCipherSuiteWep40 = 0 <;>
        by_cases h104 : sec.cipherPairwise &&& wlanCipherSuiteWep104 = 0 <;>
        simp [noteCipher, hclear, hempty, h40, h104, h40_104, h40_104.symm, h104_cmac,
          h104_zero.symm]
      | some addr => simp [noteCipher, hclear, hempty, hshared, h40_104, h40_104.symm, h104_cmac]
    · simp [hclear, hempty, h40_104.symm, h104_cmac]
  · exact absurd hcipher htkip
  · rw [reportedCipher_aes, hcipher]
    simp [hempty, h40_cmac.symm, h104_cmac.symm]
  · have hccmp_40 : wlanCipherSuiteCcmp ≠ wlanCipherSuiteWep40 := by decide
    have hccmp_104 : wlanCipherSuiteCcmp ≠ wlanCipherSuiteWep104 := by decide
    have hccmp_cmac : wlanCipherSuiteCcmp ≠ wlanCipherSuiteAesCmac := by decide
    rw [reportedCipher_aes, hcipher]
    simp [hempty, hccmp_40, hccmp_104, hccmp_cmac, hccmp_cmac.symm]

/-- A key that was added with result 0 is reported as it was added exactly when it is
`Recoverable`. -/
theorem roundTrip_iff (keyIdx : UInt8) (macAddr : Option EtherAddr) (params : KeyParams)
    (answers : AddKeyAnswers) (sec : Security)
    (haccepted : (wlCfg80211AddKey keyIdx macAddr params answers sec).err = 0)
    (htkip : params.cipher = wlanCipherSuiteTkip → params.keyLen = 32) :
    RoundTrip keyIdx params (wlCfg80211AddKey keyIdx macAddr params answers sec) ↔
      Recoverable macAddr params answers.wsec sec := by
  obtain ⟨key, secnew, hrequest, hadded⟩ := wlCfg80211AddKey_accepted haccepted
  obtain ⟨hindex, hlen, hfits, algo, halgo⟩ := addKeyRequest_eq_some hrequest
  have hempty : key.len = 0 ↔ params.keyLen = 0 := by
    rw [hlen]
    exact ⟨fun h ↦ by simpa using congrArg UInt32.toInt32 h, fun h ↦ by rw [h]; rfl⟩
  have hnotTkip : params.keyLen = 0 → params.cipher ≠ wlanCipherSuiteTkip := by
    intro h hcipher
    exact absurd (h.symm.trans (htkip hcipher)) (by decide)
  have hbytes : params.keyLen = 0 → params.keyBytes = [] := by
    intro h
    rw [KeyParams.keyBytes, h]
    rfl
  rw [hadded]
  constructor
  · intro hround
    have hreported := hround key _ (fun _ ↦ key) rfl rfl rfl
    rw [wlCfg80211GetKey_stored rfl (hlen ▸ hfits)] at hreported
    obtain ⟨hzero, -, hcipher⟩ := hreported
    have hzero := hempty.mp hzero
    exact (reportedCipher_added_iff halgo (hnotTkip hzero) hzero answers.wsec sec).mp hcipher
  · intro hrecoverable key' wsec store hkey hwsec hstore
    obtain rfl := Option.some.inj hkey
    obtain rfl := Option.some.inj hwsec
    have hzero := hrecoverable.1
    rw [wlCfg80211GetKey_stored (hindex ▸ hstore) (hlen ▸ hfits)]
    exact ⟨hempty.mpr hzero, hbytes hzero,
      (reportedCipher_added_iff halgo (hnotTkip hzero) hzero answers.wsec sec).mpr hrecoverable⟩

def noSecurity : Security := ⟨0, 0, 0, 0, 0⟩

/-- A firmware that accepts everything and has no cipher enabled. -/
def accepting : AddKeyAnswers := ⟨0, 0, 0, 0⟩

def peer : EtherAddr := #v[2, 0, 0, 0, 0, 1]

/-- An empty WEP40 key. -/
def emptyWep40 : KeyParams := ⟨fun _ ↦ 0, fun _ ↦ 0, 0, 0, wlanCipherSuiteWep40⟩

theorem roundTrip_iff_emptyWep40 :
    RoundTrip 0 emptyWep40 (wlCfg80211AddKey 0 (some peer) emptyWep40 accepting noSecurity) ↔
      Recoverable (some peer) emptyWep40 0 noSecurity :=
  roundTrip_iff 0 (some peer) emptyWep40 accepting noSecurity (by decide) (by decide)

/-- A CCMP key of 16 bytes. -/
def ccmpKey : KeyParams := ⟨fun i ↦ UInt8.ofNat i, fun _ ↦ 0, 16, 0, wlanCipherSuiteCcmp⟩

/-- Reading back a pairwise CCMP key writes to `NULL`. -/
theorem ccmpKey_written_to_null :
    (wlCfg80211AddKey 0 (some peer) ccmpKey accepting noSecurity).err = 0 ∧
      ¬RoundTrip 0 ccmpKey (wlCfg80211AddKey 0 (some peer) ccmpKey accepting noSecurity) := by
  refine ⟨by decide, fun hround ↦ ?_⟩
  obtain ⟨key, hkey⟩ :
      ∃ key, (wlCfg80211AddKey 0 (some peer) ccmpKey accepting noSecurity).key = some key :=
    ⟨_, rfl⟩
  have hlen : key.len = 16 := by
    obtain rfl := Option.some.inj hkey
    decide
  have hread := hround key 4 (fun _ ↦ key) hkey (by decide) rfl
  rw [wlCfg80211GetKey_stored rfl (by rw [hlen]; decide), hlen] at hread
  exact absurd hread.1 (by decide)

end BroadcomWl.Cfg80211.Keys
