import BroadcomWl.Cfg80211.Keys
import BroadcomWl.Systems.Machine

/-!
# The key table

`wl_cfg80211_add_key` and `wl_cfg80211_del_key` both hand a `struct wl_wsec_key` to `WLC_SET_KEY`,
a deletion one without a length and with the algorithm off. `wl_cfg80211_config_default_key` sets
the index for transmission and drops the error. Only an addition writes `wsec`; a deletion leaves
the ciphers on.

Of the keys that the firmware was given the state keeps the last one that it accepted for each
index. What it makes of them is not known: the answers to `WLC_GET_KEY` are arbitrary, and the
result about reading a key names what it relies on. The other result is about the ciphers that can
be on together.
-/

namespace BroadcomWl.Cfg80211.KeyTable

open BroadcomWl.Systems BroadcomWl.Cfg80211.Keys

/-- What `wl_cfg80211_del_key` hands to `WLC_SET_KEY`. -/
def delKeyRequest (keyIdx : UInt8) (macAddr : Option EtherAddr) : WlWsecKey :=
  let key := { WlWsecKey.zeroed with index := keyIdx.toUInt32, len := 0 }
  let key := copyPeer macAddr key
  keyEndianToDevice { key with algo := cryptoAlgoOff }

/-- The key that was accepted last for each index, the ciphers that are on, the index for
transmission, the security settings of the profile, and the indices whose last accepted key was not
empty. -/
structure State where
  store : UInt32 → WlWsecKey
  wsec : Int32
  primary : UInt32
  sec : Security
  installed : UInt8 → Bool

/-- `WLC_SET_KEY` has accepted a key. -/
def State.setKey (state : State) (keyIdx : UInt8) (key : WlWsecKey) : State :=
  { state with
    store := Function.update state.store key.index key
    installed := Function.update state.installed keyIdx (key.len != 0) }

theorem State.setKey_store (state : State) (keyIdx : UInt8) (key : WlWsecKey) :
    (state.setKey keyIdx key).store = Function.update state.store key.index key := rfl

theorem State.setKey_installed (state : State) (keyIdx : UInt8) (key : WlWsecKey) :
    (state.setKey keyIdx key).installed =
      Function.update state.installed keyIdx (key.len != 0) := rfl

/-- A call, with the errors that it gets. -/
inductive Label where
  | addKey (keyIdx : UInt8) (macAddr : Option EtherAddr) (params : KeyParams)
      (setKeyErr getErr setErr : ℤ)
  | delKey (keyIdx : UInt8) (macAddr : Option EtherAddr) (err : ℤ)
  | configDefaultKey (keyIdx : UInt8) (err : ℤ)

/-- `wl_cfg80211_add_key` on the state of the firmware. -/
def addKey (keyIdx : UInt8) (macAddr : Option EtherAddr) (params : KeyParams)
    (setKeyErr getErr setErr : ℤ) (state : State) : ℤ × State :=
  let result :=
    wlCfg80211AddKey keyIdx macAddr params ⟨setKeyErr, getErr, state.wsec, setErr⟩ state.sec
  let state :=
    match result.key with
    | some key => if setKeyErr = 0 then state.setKey keyIdx key else state
    | none => state
  let state :=
    match result.wsec with
    | some wsec => if setErr = 0 then { state with wsec := wsec } else state
    | none => state
  (result.err, { state with sec := result.sec })

/-- `wl_cfg80211_del_key`. -/
def wlCfg80211DelKey (keyIdx : UInt8) (macAddr : Option EtherAddr) (err : ℤ) (state : State) :
    ℤ × State :=
  if err ≠ 0 then (err, state) else (0, state.setKey keyIdx (delKeyRequest keyIdx macAddr))

/-- `wl_cfg80211_config_default_key`: an error is only logged. -/
def wlCfg80211ConfigDefaultKey (keyIdx : UInt8) (err : ℤ) (state : State) : ℤ × State :=
  (0, if err ≠ 0 then state else { state with primary := keyIdx.toUInt32 })

def execute (state : State) : Label → ℤ × State
  | .addKey keyIdx macAddr params setKeyErr getErr setErr =>
      addKey keyIdx macAddr params setKeyErr getErr setErr state
  | .delKey keyIdx macAddr err => wlCfg80211DelKey keyIdx macAddr err state
  | .configDefaultKey keyIdx err => wlCfg80211ConfigDefaultKey keyIdx err state

/-- No key was accepted yet; what else the firmware holds is arbitrary. -/
structure Initial (state : State) : Prop where
  store : ∀ index, (state.store index).len = 0
  installed : ∀ keyIdx, state.installed keyIdx = false

def keyTable : Machine State Label where
  initial := Initial
  step state label := some (execute state label).2

/-! ## Reading a key -/

/-- The length in a byte is zero when the length is. -/
theorem minU8_eq_zero_iff {len : UInt32} (h : len.toNat ≤ Keys.dot11MaxKeySize) :
    minU8 (UInt8.ofNat Keys.dot11MaxKeySize) len.toUInt8 = 0 ↔ len = 0 := by
  have hbyte : len.toUInt8.toNat = len.toNat := by
    rw [UInt32.toNat_toUInt8]
    exact Nat.mod_eq_of_lt (lt_of_le_of_lt h (by decide))
  unfold minU8
  split
  next hlt =>
    rw [UInt8.lt_iff_toNat_lt, hbyte] at hlt
    refine ⟨fun h ↦ absurd h (by decide), fun hzero ↦ ?_⟩
    rw [hzero] at hlt
    exact absurd hlt (by decide)
  next => rw [← UInt8.toNat_inj, hbyte, ← UInt32.toNat_inj]; rfl

/-- What `wl_cfg80211_get_key` hands to `WLC_GET_KEY`. -/
def getKeyRequest (keyIdx : UInt8) : WlWsecKey :=
  keyEndianToDevice { WlWsecKey.zeroed with index := keyIdx.toUInt32 }

/-- A reported key of every length that is accepted is read into `NULL` unless it is empty. -/
theorem getKey_eq_none_iff {keyIdx : UInt8} {wlcGetKey : WlWsecKey → ℤ × WlWsecKey}
    {wsec : ℤ × Int32} {sec : Security}
    (hlen : (wlcGetKey (getKeyRequest keyIdx)).1 = 0 →
      (wlcGetKey (getKeyRequest keyIdx)).2.len.toNat ≤ Keys.dot11MaxKeySize) :
    wlCfg80211GetKey keyIdx wlcGetKey wsec sec = none ↔
      (wlcGetKey (getKeyRequest keyIdx)).1 = 0 ∧
        (wlcGetKey (getKeyRequest keyIdx)).2.len ≠ 0 := by
  have hrequest : keyEndianToDevice { WlWsecKey.zeroed with index := keyIdx.toUInt32 } =
      getKeyRequest keyIdx := rfl
  unfold wlCfg80211GetKey
  rw [hrequest]
  obtain ⟨err, key, hanswer⟩ : ∃ err key, wlcGetKey (getKeyRequest keyIdx) = (err, key) :=
    ⟨_, _, rfl⟩
  rw [hanswer] at hlen ⊢
  dsimp only at hlen ⊢
  by_cases hget : err = 0
  · have hcopy : copyToNull (minU8 (UInt8.ofNat Keys.dot11MaxKeySize) key.len.toUInt8) =
        if key.len = 0 then some [] else none := by
      unfold copyToNull
      simp only [minU8_eq_zero_iff (hlen hget)]
    simp only [hget, ne_eq, not_true_eq_false, if_false, keyEndianToHost_eq, hcopy, true_and]
    by_cases hempty : key.len = 0
    · simp only [hempty, if_true, not_true_eq_false, iff_false]
      split
      · exact Option.some_ne_none _
      · split <;> exact Option.some_ne_none _
    · simp [hempty]
  · rw [if_pos hget]
    exact iff_of_false (Option.some_ne_none _) fun h ↦ hget h.1

/-- Every key fits, and it is empty exactly when none is installed. -/
structure Recorded (state : State) : Prop where
  fits : ∀ index, (state.store index).len.toNat ≤ Keys.dot11MaxKeySize
  installed : ∀ keyIdx, state.installed keyIdx = true ↔ (state.store keyIdx.toUInt32).len ≠ 0

theorem Initial.recorded {state : State} (h : Initial state) : Recorded state where
  fits index := by
    rw [h.store]
    exact Nat.zero_le _
  installed keyIdx := by simp [h.store, h.installed]

theorem Recorded.setKey {state : State} {keyIdx : UInt8} {key : WlWsecKey} (h : Recorded state)
    (hindex : key.index = keyIdx.toUInt32) (hlen : key.len.toNat ≤ Keys.dot11MaxKeySize) :
    Recorded (state.setKey keyIdx key) where
  fits index := by
    rw [State.setKey_store]
    by_cases hsame : index = key.index
    · rw [hsame, Function.update_self]
      exact hlen
    · rw [Function.update_of_ne hsame]
      exact h.fits index
  installed other := by
    rw [State.setKey_store, State.setKey_installed, hindex]
    by_cases hsame : other = keyIdx
    · rw [hsame, Function.update_self, Function.update_self, bne_iff_ne]
    · have hne : other.toUInt32 ≠ keyIdx.toUInt32 := fun heq ↦ hsame (UInt8.toUInt32_inj.mp heq)
      rw [Function.update_of_ne hsame, Function.update_of_ne hne]
      exact h.installed other

/-- What an addition does: its key is recorded when the firmware takes it, and `wsec` gets the bit
of its cipher when that is taken too. -/
inductive Added (keyIdx : UInt8) (state next : State) : Prop
  | refused (h : next = state)
  | keyOnly (key : WlWsecKey) (hindex : key.index = keyIdx.toUInt32)
      (hlen : key.len.toNat ≤ Keys.dot11MaxKeySize) (h : next = state.setKey keyIdx key)
  | all (key : WlWsecKey) (secnew : Int32) (sec : Security) (hindex : key.index = keyIdx.toUInt32)
      (hlen : key.len.toNat ≤ Keys.dot11MaxKeySize)
      (hcipher : ∃ cipher algo, cipherAlgo cipher = some (algo, secnew))
      (h : next = { state.setKey keyIdx key with
        wsec := updateWsec secnew state.wsec
        sec := sec })

theorem addKey_added (keyIdx : UInt8) (macAddr : Option EtherAddr) (params : KeyParams)
    (setKeyErr getErr setErr : ℤ) (state : State) :
    Added keyIdx state (addKey keyIdx macAddr params setKeyErr getErr setErr state).2 := by
  unfold addKey wlCfg80211AddKey
  cases hrequest : addKeyRequest keyIdx macAddr params with
  | none => exact .refused rfl
  | some request =>
    obtain ⟨key, secnew⟩ := request
    obtain ⟨hindex, hlen, hbound, algo, hcipher⟩ := addKeyRequest_eq_some hrequest
    have hfits : key.len.toNat ≤ Keys.dot11MaxKeySize := by
      rw [hlen]
      exact hbound
    by_cases hset : setKeyErr = 0
    · by_cases hget : getErr = 0
      · by_cases hwsec : setErr = 0
        · refine .all key secnew (noteCipher macAddr params.cipher state.sec) hindex hfits
            ⟨params.cipher, algo, hcipher⟩ ?_
          simp [hset, hget, hwsec, State.setKey]
        · refine .keyOnly key hindex hfits ?_
          simp [hset, hget, hwsec, State.setKey]
      · refine .keyOnly key hindex hfits ?_
        simp [hset, hget, State.setKey]
    · refine .refused ?_
      simp [hset]

theorem Recorded.step {state next : State} {label : Label} (h : Recorded state)
    (hstep : keyTable.step state label = some next) : Recorded next := by
  cases hstep
  cases label with
  | addKey keyIdx macAddr params setKeyErr getErr setErr =>
    cases addKey_added keyIdx macAddr params setKeyErr getErr setErr state with
    | refused heq =>
      change Recorded (addKey ..).2
      rw [heq]
      exact h
    | keyOnly key hindex hlen heq =>
      change Recorded (addKey ..).2
      rw [heq]
      exact h.setKey hindex hlen
    | all key secnew sec hindex hlen hcipher heq =>
      change Recorded (addKey ..).2
      rw [heq]
      have hset := h.setKey hindex hlen
      exact ⟨hset.fits, hset.installed⟩
  | delKey keyIdx macAddr err =>
    change Recorded (wlCfg80211DelKey ..).2
    unfold wlCfg80211DelKey
    split
    · exact h
    · refine h.setKey ?_ ?_
      · simp [delKeyRequest, copyPeer_eq]
      · simp [delKeyRequest, copyPeer_eq]
  | configDefaultKey keyIdx err =>
    change Recorded (wlCfg80211ConfigDefaultKey ..).2
    unfold wlCfg80211ConfigDefaultKey
    split
    · exact h
    · exact ⟨h.fits, h.installed⟩

/-- After every run of additions, deletions and choices of a default key, with any answers of the
firmware: where it reports a key for an index with the length of the one that it accepted last for
it, reading a key writes to `NULL` exactly when the firmware reports one and the last one that it
accepted is not empty. -/
theorem read_null_iff {state : State} (h : keyTable.Reachable state) (keyIdx : UInt8)
    (wlcGetKey : WlWsecKey → ℤ × WlWsecKey) (wsec : ℤ × Int32)
    (hreports : (wlcGetKey (getKeyRequest keyIdx)).1 = 0 →
      (wlcGetKey (getKeyRequest keyIdx)).2.len = (state.store keyIdx.toUInt32).len) :
    wlCfg80211GetKey keyIdx wlcGetKey wsec state.sec = none ↔
      (wlcGetKey (getKeyRequest keyIdx)).1 = 0 ∧ state.installed keyIdx = true := by
  have hrecorded : Recorded state :=
    h.invariant (fun _ ↦ Initial.recorded) fun _ _ _ ↦ Recorded.step
  have hlen : (wlcGetKey (getKeyRequest keyIdx)).1 = 0 →
      (wlcGetKey (getKeyRequest keyIdx)).2.len.toNat ≤ Keys.dot11MaxKeySize := by
    intro hget
    rw [hreports hget]
    exact hrecorded.fits _
  rw [getKey_eq_none_iff hlen, hrecorded.installed]
  exact and_congr_right fun hget ↦ by rw [hreports hget]

/-- No key was accepted, and these ciphers are on. -/
def noKeys (wsec : Int32) : State where
  store _ := WlWsecKey.zeroed
  wsec := wsec
  primary := 0
  sec := ⟨0, 0, 0, 0, 0⟩
  installed _ := false

theorem initial_noKeys (wsec : Int32) : Initial (noKeys wsec) := ⟨fun _ ↦ rfl, fun _ ↦ rfl⟩

/-- A WEP key of five bytes for index 0. -/
def addWep : Label :=
  .addKey 0 none ⟨fun _ ↦ 0, fun _ ↦ 0, 5, 0, wlanCipherSuiteWep40⟩ 0 0 0

/-- A firmware that reports a WEP key of five bytes. -/
theorem read_null_iff_addWep :
    wlCfg80211GetKey 0 (fun request ↦ (0, { request with len := 5 })) (0, 1)
      (execute (noKeys 0) addWep).2.sec = none := by
  have hstart : keyTable.Reachable (noKeys 0) := .start (initial_noKeys 0)
  have hnext : keyTable.Reachable (execute (noKeys 0) addWep).2 := hstart.step rfl
  exact (read_null_iff hnext 0 (fun request ↦ (0, { request with len := 5 })) (0, 1)
    fun _ ↦ by decide).mpr ⟨rfl, by decide⟩

/-! ## The ciphers that are on -/

/-- WEP is not on together with another cipher. -/
def Exclusive (wsec : Int32) : Prop :=
  wsec &&& Keys.wepEnabled = 0 ∨ wsec &&& (Keys.tkipEnabled ||| Keys.aesEnabled) = 0

theorem bitVec_clear_or_and {w : ℕ} {mask bits : BitVec w} (word : BitVec w)
    (h : bits &&& mask = 0#w) : (word &&& ~~~mask ||| bits) &&& mask = 0#w := by
  ext i hi
  have hbit : (bits &&& mask)[i] = (0#w)[i] := by rw [h]
  simp only [BitVec.getElem_and, BitVec.getElem_zero] at hbit
  simp only [BitVec.getElem_and, BitVec.getElem_or, BitVec.getElem_not, BitVec.getElem_zero]
  grind

/-- Bits that are cleared before others are joined are off. -/
theorem clear_or_and {mask bits : Int32} (word : Int32) (h : bits &&& mask = 0) :
    (word &&& ~~~mask ||| bits) &&& mask = 0 := by
  rw [← Int32.toBitVec_inj] at h ⊢
  exact bitVec_clear_or_and word.toBitVec h

/-- The switch over the cipher knows three bits. -/
theorem secnew_cases {cipher algo : UInt32} {secnew : Int32}
    (h : cipherAlgo cipher = some (algo, secnew)) :
    secnew = Keys.wepEnabled ∨ secnew = Keys.tkipEnabled ∨ secnew = Keys.aesEnabled := by
  unfold cipherAlgo at h
  split_ifs at h <;> simp_all

/-- The bit of an addition is on, and then the ciphers are exclusive. -/
theorem exclusive_updateWsec {cipher algo : UInt32} {secnew : Int32}
    (h : cipherAlgo cipher = some (algo, secnew)) (wsec : Int32) :
    Exclusive (updateWsec secnew wsec) := by
  unfold updateWsec
  rcases secnew_cases h with rfl | rfl | rfl
  · rw [if_pos rfl]
    exact .inr (clear_or_and wsec (by decide))
  · rw [if_neg (by decide)]
    exact .inl (clear_or_and wsec (by decide))
  · rw [if_neg (by decide)]
    exact .inl (clear_or_and wsec (by decide))

theorem Exclusive.step {state next : State} {label : Label} (h : Exclusive state.wsec)
    (hstep : keyTable.step state label = some next) : Exclusive next.wsec := by
  cases hstep
  cases label with
  | addKey keyIdx macAddr params setKeyErr getErr setErr =>
    change Exclusive (addKey ..).2.wsec
    cases addKey_added keyIdx macAddr params setKeyErr getErr setErr state with
    | refused heq =>
      rw [heq]
      exact h
    | keyOnly key hindex hlen heq =>
      rw [heq]
      exact h
    | all key secnew sec hindex hlen hcipher heq =>
      obtain ⟨cipher, algo, hcipher⟩ := hcipher
      rw [heq]
      exact exclusive_updateWsec hcipher state.wsec
  | delKey keyIdx macAddr err =>
    change Exclusive (wlCfg80211DelKey ..).2.wsec
    unfold wlCfg80211DelKey
    split
    · exact h
    · exact h
  | configDefaultKey keyIdx err =>
    change Exclusive (wlCfg80211ConfigDefaultKey ..).2.wsec
    unfold wlCfg80211ConfigDefaultKey
    split
    · exact h
    · exact h

/-- An addition that returned 0 leaves the ciphers exclusive, whatever was on before. -/
theorem exclusive_of_added {keyIdx : UInt8} {macAddr : Option EtherAddr} {params : KeyParams}
    {setKeyErr getErr setErr : ℤ} {state : State}
    (h : (addKey keyIdx macAddr params setKeyErr getErr setErr state).1 = 0) :
    Exclusive (addKey keyIdx macAddr params setKeyErr getErr setErr state).2.wsec := by
  obtain ⟨key, secnew, hrequest, hresult⟩ := wlCfg80211AddKey_accepted h
  obtain ⟨-, -, -, algo, hcipher⟩ := addKeyRequest_eq_some hrequest
  have herrors : setKeyErr = 0 ∧ getErr = 0 ∧ setErr = 0 := by
    unfold addKey wlCfg80211AddKey at h
    rw [hrequest] at h
    dsimp only at h
    split_ifs at h with hset hget hwsec
    · exact absurd h hset
    · exact absurd h hget
    · exact absurd h hwsec
    · exact ⟨not_not.mp hset, not_not.mp hget, not_not.mp hwsec⟩
  have hwsec : (addKey keyIdx macAddr params setKeyErr getErr setErr state).2.wsec =
      updateWsec secnew state.wsec := by
    unfold addKey
    rw [hresult]
    simp [herrors]
  rw [hwsec]
  exact exclusive_updateWsec hcipher state.wsec

/-- In every run, from any state of the firmware, once an addition has returned 0 WEP is never on
together with another cipher again. -/
theorem ciphers_exclusive {start final : State} {before after : List Label} {keyIdx : UInt8}
    {macAddr : Option EtherAddr} {params : KeyParams} {setKeyErr getErr setErr : ℤ} {state : State}
    (hbefore : keyTable.run start before = some state)
    (hadded : (addKey keyIdx macAddr params setKeyErr getErr setErr state).1 = 0)
    (hafter : keyTable.run start
      (before ++ .addKey keyIdx macAddr params setKeyErr getErr setErr :: after) = some final) :
    Exclusive final.wsec := by
  rw [Machine.run_append, hbefore, Option.bind_some] at hafter
  obtain ⟨next, hnext, hrest⟩ := Machine.run_cons_eq_some.mp hafter
  have hexclusive : Exclusive next.wsec := by
    cases hnext
    exact exclusive_of_added hadded
  exact Machine.run_preserves (fun _ _ _ ↦ Exclusive.step) hexclusive hrest

/-- A WEP key after keys of the other kinds, and then the deletion of the key. -/
theorem ciphers_exclusive_addWep :
    Exclusive (execute (execute (noKeys 6) addWep).2 (.delKey 0 none 0)).2.wsec :=
  @ciphers_exclusive (noKeys 6) _ [] [.delKey 0 none 0] 0 none
    ⟨fun _ ↦ 0, fun _ ↦ 0, 5, 0, wlanCipherSuiteWep40⟩ 0 0 0 (noKeys 6) rfl rfl rfl

end BroadcomWl.Cfg80211.KeyTable
