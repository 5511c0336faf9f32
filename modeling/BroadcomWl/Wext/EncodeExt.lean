import BroadcomWl.Cfg80211.Keys

/-!
# Keys from the wireless extensions

`wl_iw_set_encodeext` translates a `struct iw_encode_ext` into the structure that
`wl_cfg80211_add_key` fills as well. For two requests that describe the same key, both hand
the same bytes to `WLC_SET_KEY`, except for the bit `WL_PRIMARY_KEY`, which only the wireless
extensions set.
-/

namespace BroadcomWl.Wext

open BroadcomWl.Memory BroadcomWl.Cfg80211.Keys
open BroadcomWl.Cfg80211 (EtherAddr)

def iwEncodeIndex : UInt16 := 0x00FF

def iwEncodeExtRxSeqValid : UInt32 := 0x00000002
def iwEncodeExtSetTxKey : UInt32 := 0x00000008

def iwEncodeAlgNone : UInt16 := 0
def iwEncodeAlgWep : UInt16 := 1
def iwEncodeAlgTkip : UInt16 := 2
def iwEncodeAlgCcmp : UInt16 := 3

def wep1KeySize : ℕ := 5

def wlPrimaryKey : UInt32 := 2

/-- `struct iw_point` without its pointer. -/
structure IwPoint where
  length : UInt16
  flags : UInt16
deriving DecidableEq, Repr

/-- `struct iw_encode_ext`; `key` are the bytes behind the fixed fields. -/
structure IwEncodeExt where
  extFlags : UInt32
  txSeq : Vector UInt8 8
  rxSeq : Vector UInt8 8
  saFamily : UInt16
  saData : Vector UInt8 14
  alg : UInt16
  keyLen : UInt16
  key : ℕ → UInt8

/-- The address that `ETHER_ISMULTI` and `bcopy` find in `addr.sa_data`. -/
def IwEncodeExt.peer (iwe : IwEncodeExt) : EtherAddr := Vector.ofFn fun i ↦ iwe.saData[i.val]

/-- `swap_key_from_BE`. -/
def swapKeyFromBE (key : WlWsecKey) : WlWsecKey :=
  { key with
    index := htod32 key.index
    len := htod32 key.len
    algo := htod32 key.algo
    flags := htod32 key.flags
    rxivHi := htod32 key.rxivHi
    rxivLo := htod16 key.rxivLo
    ivInitialized := (htod32 key.ivInitialized.toUInt32).toInt32 }

/-- `bcopy` between arrays of one key: from `data[source]` on to `data[target]` on. -/
def bcopyWithin (data : Vector UInt8 32) (source target len : ℕ) : Vector UInt8 32 :=
  memcpy data target (readAt data source) len

/-- What `wl_iw_set_encodeext` asks of the firmware. -/
inductive KeyIoctl where
  | setKeyPrimary (index : UInt32)
  | setKey (key : WlWsecKey)
deriving DecidableEq

/-- The switch over the algorithm; an unknown one leaves the zero of `memset`. -/
def encodeAlgo (iwe : IwEncodeExt) : UInt32 :=
  if iwe.alg = iwEncodeAlgNone then cryptoAlgoOff
  else if iwe.alg = iwEncodeAlgWep then
    if iwe.keyLen.toNat = wep1KeySize then cryptoAlgoWep1 else cryptoAlgoWep128
  else if iwe.alg = iwEncodeAlgTkip then cryptoAlgoTkip
  else if iwe.alg = iwEncodeAlgCcmp then cryptoAlgoAesCcm
  else cryptoAlgoOff

/-- The index, the length and the address. -/
def encodeHeader (dwrq : IwPoint) (iwe : IwEncodeExt) : WlWsecKey :=
  let index : UInt32 :=
    if dwrq.flags &&& iwEncodeIndex ≠ 0 then (dwrq.flags &&& iwEncodeIndex).toUInt32 - 1 else 0
  let key := { WlWsecKey.zeroed with index := index, len := iwe.keyLen.toUInt32 }
  if !etherIsmulti iwe.peer then { key with ea := iwe.peer } else key

theorem encodeHeader_len_flags (dwrq : IwPoint) (iwe : IwEncodeExt) :
    (encodeHeader dwrq iwe).len = iwe.keyLen.toUInt32 ∧ (encodeHeader dwrq iwe).flags = 0 := by
  unfold encodeHeader
  cases etherIsmulti iwe.peer <;> exact ⟨rfl, rfl⟩

/-- The key of a request whose key is not empty. -/
def encodeKey (dwrq : IwPoint) (iwe : IwEncodeExt) : WlWsecKey :=
  let key := encodeHeader dwrq iwe
  let key :=
    if iwe.extFlags &&& iwEncodeExtSetTxKey ≠ 0 then { key with flags := wlPrimaryKey } else key
  let key := { key with data := memcpy key.data 0 iwe.key iwe.keyLen.toNat }
  let key :=
    if iwe.alg = iwEncodeAlgTkip then
      let keybuf := memcpy (Vector.replicate 8 0) 0 (readAt key.data 24) 8
      let data := bcopyWithin key.data 16 24 8
      { key with data := memcpy data 16 (readAt keybuf 0) 8 }
    else key
  let key :=
    if iwe.extFlags &&& iwEncodeExtRxSeqValid ≠ 0 then
      let ivptr := readAt iwe.rxSeq 0
      { key with
        rxivHi :=
          (ivptr 5).toUInt32 <<< 24 ||| (ivptr 4).toUInt32 <<< 16 ||| (ivptr 3).toUInt32 <<< 8 |||
            (ivptr 2).toUInt32
        rxivLo := (ivptr 1).toUInt16 <<< 8 ||| (ivptr 0).toUInt16
        ivInitialized := 1 }
    else key
  swapKeyFromBE { key with algo := encodeAlgo iwe }

/-- `wl_iw_set_encodeext`: its result and what it asks of the firmware, which answers `answer`. -/
def wlIwSetEncodeext (dwrq : IwPoint) (iwe : IwEncodeExt) (answer : ℤ) : ℤ × Option KeyIoctl :=
  let key := encodeHeader dwrq iwe
  if key.len = 0 then
    if iwe.extFlags &&& iwEncodeExtSetTxKey ≠ 0 then
      (answer, some (.setKeyPrimary (htod32 key.index)))
    else (0, some (.setKey (swapKeyFromBE key)))
  else if iwe.keyLen.toNat > dot11MaxKeySize then (-einval, none)
  else (answer, some (.setKey (encodeKey dwrq iwe)))

/-! ## Two requests for one key -/

/-- The ciphers of cfg80211 with the algorithms of the wireless extensions, where WEP40 keys are
those of five bytes. -/
def SameCipher (cipher : UInt32) (alg : UInt16) (keyLen : ℕ) : Prop :=
  (cipher = wlanCipherSuiteWep40 ∧ alg = iwEncodeAlgWep ∧ keyLen = 5) ∨
    (cipher = wlanCipherSuiteWep104 ∧ alg = iwEncodeAlgWep ∧ keyLen ≠ 5) ∨
    (cipher = wlanCipherSuiteTkip ∧ alg = iwEncodeAlgTkip) ∨
    (cipher = wlanCipherSuiteCcmp ∧ alg = iwEncodeAlgCcmp)

/-- A request of cfg80211 and one of the wireless extensions that describe the same key. The
wireless extensions count indices from one, and without an index mean the first key; where
cfg80211 gives no address they give one of a group. -/
structure SameKey (keyIdx : UInt8) (macAddr : Option EtherAddr) (params : KeyParams)
    (dwrq : IwPoint) (iwe : IwEncodeExt) : Prop where
  index : (dwrq.flags &&& iwEncodeIndex).toNat = keyIdx.toNat + 1 ∨
    (dwrq.flags &&& iwEncodeIndex = 0 ∧ keyIdx = 0)
  cipher : SameCipher params.cipher iwe.alg iwe.keyLen.toNat
  keyLen : params.keyLen.toUInt32 = iwe.keyLen.toUInt32
  nonempty : 0 < iwe.keyLen.toNat
  fits : iwe.keyLen.toNat ≤ 32
  key : ∀ i < iwe.keyLen.toNat, params.key i = iwe.key i
  peer : match macAddr with
    | some addr => addr = iwe.peer
    | none => etherIsmulti iwe.peer = true
  seq : (params.seqLen = 0 ∧ iwe.extFlags &&& iwEncodeExtRxSeqValid = 0) ∨
    (params.seqLen = 6 ∧ iwe.extFlags &&& iwEncodeExtRxSeqValid ≠ 0 ∧
      ∀ i < 6, params.seq i = readAt iwe.rxSeq 0 i)

section SameKey

variable {keyIdx : UInt8} {macAddr : Option EtherAddr} {params : KeyParams} {dwrq : IwPoint}
  {iwe : IwEncodeExt}

theorem SameKey.cipherAlgo (h : SameKey keyIdx macAddr params dwrq iwe) :
    ∃ secnew, cipherAlgo params.cipher = some (encodeAlgo iwe, secnew) := by
  unfold encodeAlgo wep1KeySize
  obtain ⟨hcipher, halg, hlen⟩ | ⟨hcipher, halg, hlen⟩ | ⟨hcipher, halg⟩ | ⟨hcipher, halg⟩ :=
    h.cipher
  · rw [hcipher, halg, hlen]
    exact ⟨wepEnabled, rfl⟩
  · rw [hcipher, halg, if_neg hlen]
    exact ⟨wepEnabled, rfl⟩
  · rw [hcipher, halg]
    exact ⟨tkipEnabled, rfl⟩
  · rw [hcipher, halg]
    exact ⟨aesEnabled, rfl⟩

theorem SameKey.tkip_iff (h : SameKey keyIdx macAddr params dwrq iwe) :
    params.cipher = wlanCipherSuiteTkip ↔ iwe.alg = iwEncodeAlgTkip := by
  obtain ⟨hcipher, halg, -⟩ | ⟨hcipher, halg, -⟩ | ⟨hcipher, halg⟩ | ⟨hcipher, halg⟩ := h.cipher
  all_goals
    rw [hcipher, halg]
    decide

/-- Both installers begin with the same index, length and address. -/
theorem SameKey.header (h : SameKey keyIdx macAddr params dwrq iwe) :
    encodeHeader dwrq iwe =
      copyPeer macAddr
        { WlWsecKey.zeroed with
          index := keyIdx.toUInt32
          len := params.keyLen.toUInt32 } := by
  have hindex : (if dwrq.flags &&& iwEncodeIndex ≠ 0 then
      (dwrq.flags &&& iwEncodeIndex).toUInt32 - 1 else 0) = keyIdx.toUInt32 := by
    obtain hindex | ⟨hnone, rfl⟩ := h.index
    · have hne : dwrq.flags &&& iwEncodeIndex ≠ 0 := by
        intro hzero
        rw [hzero] at hindex
        cases hindex
      have hsucc : (dwrq.flags &&& iwEncodeIndex).toUInt32 = keyIdx.toUInt32 + 1 := by
        have hbound := keyIdx.toNat_lt
        rw [← UInt32.toNat_inj, UInt16.toNat_toUInt32, UInt32.toNat_add, UInt8.toNat_toUInt32,
          hindex]
        exact (Nat.mod_eq_of_lt (by omega)).symm
      rw [if_pos hne, hsucc, UInt32.add_sub_cancel]
    · rw [if_neg (not_not.mpr hnone)]
      rfl
  have hpeer := h.peer
  unfold encodeHeader
  rw [hindex, ← h.keyLen]
  cases macAddr with
  | none =>
    rw [if_neg (by simpa using hpeer)]
    rfl
  | some addr =>
    rw [copyPeer, ← hpeer]

/-- The key that `wl_cfg80211_add_key` builds is the one of the wireless extensions without its
flags. -/
theorem SameKey.request (h : SameKey keyIdx macAddr params dwrq iwe) :
    ∃ secnew, addKeyRequest keyIdx macAddr params =
      some ({ encodeKey dwrq iwe with flags := 0 }, secnew) := by
  obtain ⟨secnew, halgo⟩ := h.cipherAlgo
  have hlen : params.keyLen.toUInt32.toNat = iwe.keyLen.toNat := by rw [h.keyLen]; rfl
  have hfits : ¬iwe.keyLen.toNat > dot11MaxKeySize := Nat.not_lt.mpr h.fits
  have hdata : memcpy WlWsecKey.zeroed.data 0 params.key iwe.keyLen.toNat =
      memcpy WlWsecKey.zeroed.data 0 iwe.key iwe.keyLen.toNat := memcpy_congr h.key _ 0
  refine ⟨secnew, ?_⟩
  unfold addKeyRequest encodeKey
  rw [halgo, h.header]
  simp only [copyPeer_eq, keyEndianToDevice_eq, h.tkip_iff, hlen, hdata, hfits, if_false]
  refine congrArg (fun key ↦ some (key, secnew)) ?_
  obtain ⟨hseq, hvalid⟩ | ⟨hseq, hvalid, hbytes⟩ := h.seq
  · by_cases htx : iwe.extFlags &&& iwEncodeExtSetTxKey = 0 <;>
    by_cases htkip : iwe.alg = iwEncodeAlgTkip <;>
    simp only [hseq, hvalid, htx, htkip, ne_eq, not_true_eq_false, not_false_eq_true, if_true,
      if_false] <;>
    rfl
  · have hnonzero : (6 : Int32) ≠ 0 := by decide
    by_cases htx : iwe.extFlags &&& iwEncodeExtSetTxKey = 0 <;>
    by_cases htkip : iwe.alg = iwEncodeAlgTkip <;>
    simp only [hseq, hvalid, hnonzero, htx, htkip, ne_eq, not_true_eq_false, not_false_eq_true,
      if_true, if_false, packRxiv_congr hbytes] <;>
    rfl

/-- The only flag of the wireless extensions is `WL_PRIMARY_KEY`. -/
theorem encodeKey_flags (dwrq : IwPoint) (iwe : IwEncodeExt) :
    (encodeKey dwrq iwe).flags &&& ~~~wlPrimaryKey = 0 := by
  have hheader := (encodeHeader_len_flags dwrq iwe).2
  unfold encodeKey
  by_cases htx : iwe.extFlags &&& iwEncodeExtSetTxKey = 0 <;>
  by_cases htkip : iwe.alg = iwEncodeAlgTkip <;>
  by_cases hvalid : iwe.extFlags &&& iwEncodeExtRxSeqValid = 0 <;>
  simp [swapKeyFromBE, htod32, htx, htkip, hvalid, hheader, wlPrimaryKey]

/-- For requests that describe the same key, `wl_cfg80211_add_key` and `wl_iw_set_encodeext` hand
equal structures to `WLC_SET_KEY`, except that only the latter may set `WL_PRIMARY_KEY`. -/
theorem key_installers_agree (h : SameKey keyIdx macAddr params dwrq iwe) :
    ∃ key,
      (∀ answers sec, (wlCfg80211AddKey keyIdx macAddr params answers sec).key =
        some { key with flags := key.flags &&& ~~~wlPrimaryKey }) ∧
      ∀ answer, (wlIwSetEncodeext dwrq iwe answer).2 = some (.setKey key) := by
  obtain ⟨secnew, hrequest⟩ := h.request
  refine ⟨encodeKey dwrq iwe, fun answers sec ↦ ?_, fun answer ↦ ?_⟩
  · rw [encodeKey_flags]
    unfold wlCfg80211AddKey
    rw [hrequest]
    dsimp only
    split_ifs <;> rfl
  · have hnonempty : iwe.keyLen.toUInt32 ≠ 0 := by
      intro hzero
      have hcount := congrArg UInt32.toNat hzero
      rw [UInt16.toNat_toUInt32] at hcount
      exact absurd hcount (Nat.ne_of_gt h.nonempty)
    have hfits : ¬iwe.keyLen.toNat > dot11MaxKeySize := Nat.not_lt.mpr h.fits
    unfold wlIwSetEncodeext
    dsimp only
    rw [(encodeHeader_len_flags dwrq iwe).1, if_neg hnonempty, if_neg hfits]

end SameKey

/-- A TKIP key for a peer, with a receive sequence, as cfg80211 gives it. -/
def tkipParams : KeyParams :=
  ⟨fun i ↦ UInt8.ofNat i, fun i ↦ UInt8.ofNat (i + 1), 32, 6, wlanCipherSuiteTkip⟩

/-- The same key as the wireless extensions give it, to be the primary key. -/
def tkipEncodeExt : IwEncodeExt where
  extFlags := 0x0A
  txSeq := Vector.replicate 8 0
  rxSeq := #v[1, 2, 3, 4, 5, 6, 0, 0]
  saFamily := 1
  saData := #v[2, 0, 0, 0, 0, 1, 0, 0, 0, 0, 0, 0, 0, 0]
  alg := iwEncodeAlgTkip
  keyLen := 32
  key i := UInt8.ofNat i

theorem key_installers_agree_tkip :
    ∃ key,
      (∀ answers sec, (wlCfg80211AddKey 1 (some peer) tkipParams answers sec).key =
        some { key with flags := key.flags &&& ~~~wlPrimaryKey }) ∧
      ∀ answer, (wlIwSetEncodeext ⟨72, 2⟩ tkipEncodeExt answer).2 = some (.setKey key) :=
  @key_installers_agree 1 (some peer) tkipParams ⟨72, 2⟩ tkipEncodeExt
    { index := .inl (by decide)
      cipher := .inr (.inr (.inl ⟨rfl, rfl⟩))
      keyLen := by decide
      nonempty := by decide
      fits := by decide
      key := fun _ _ ↦ rfl
      peer := by decide
      seq := .inr ⟨rfl, by decide, by decide⟩ }

end BroadcomWl.Wext
