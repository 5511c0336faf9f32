import BroadcomWl.Wext.IwAuth

/-!
# The WPS enrollee

A host that invokes privacy without a cipher is taken for a WPS enrollee, and the firmware is told
so. Two cases of `wl_iw_set_wpaauth` keep this flag. The case of the privacy tests whether a cipher
is enabled; the cases of the ciphers test the whole of `wsec`, which holds other bits as well.
-/

namespace BroadcomWl.Wext.IwAuth

open BroadcomWl.Memory BroadcomWl.Systems

/-- The flag is TRUE exactly when privacy is invoked without a cipher. -/
def State.Tracks (state : State) : Prop :=
  state.device.isWpsEnrollee = true ↔
    state.iw.privacyInvoked = true ∧ wsecEnabled state.device.wsec = 0

/-- A state, and whether an operation has set the privacy yet. -/
structure Observed where
  state : State
  invoked : Bool
deriving DecidableEq, Repr

/-- Runs in which it is observed whether the privacy was set. -/
def observed : Machine Observed Op where
  initial now := now.invoked = false
  step now op := (step now.state op).map fun next ↦
    ⟨next, now.invoked || op.param = some .privacyInvoked⟩

/-- The operation leaves the flag as it is to be, if the privacy was set by then. -/
def Op.Tracks (now : Observed) (op : Op) : Prop :=
  ∀ next, observed.step now op = some next → next.invoked = true → next.state.Tracks

/-- Once the privacy was set, a successful operation on a cipher does not, with privacy invoked,
leave other bits of `wsec` without a cipher bit. -/
def Op.Plain (now : Observed) (op : Op) : Prop :=
  ∀ param, op.param = some param → param.isCipher = true → now.invoked = true →
    (step now.state op).isSome = true → now.state.iw.privacyInvoked = true →
      let iw := now.state.iw.store param op.vwrq.value.toUInt32
      cipherBits (iw.pwsec ||| iw.gwsec) = 0 → now.state.device.wsec &&& ~~~cipherMask = 0

theorem wsecEnabled_combineCiphers (iw : WlIw) (wsec : UInt32) :
    wsecEnabled (combineCiphers iw wsec) = cipherBits (iw.pwsec ||| iw.gwsec) := by
  rw [wsecEnabled, combineCiphers_eq]
  exact replace_and wsec (cipherBits_and_mask _)

/-- The whole word is zero when there are neither other bits nor ciphers. -/
theorem combineCiphers_eq_zero_iff (iw : WlIw) (wsec : UInt32) :
    combineCiphers iw wsec = 0 ↔
      wsec &&& ~~~cipherMask = 0 ∧ cipherBits (iw.pwsec ||| iw.gwsec) = 0 := by
  constructor
  · intro h
    have hbits := wsecEnabled_combineCiphers iw wsec
    rw [h] at hbits
    have hciphers : cipherBits (iw.pwsec ||| iw.gwsec) = 0 := hbits.symm
    rw [combineCiphers_eq, hciphers, UInt32.or_zero] at h
    exact ⟨h, hciphers⟩
  · rintro ⟨hother, hciphers⟩
    rw [combineCiphers_eq, hother, hciphers]
    rfl

theorem store_privacyInvoked (iw : WlIw) (param : AuthParam) (value : UInt32) :
    (iw.store param value).privacyInvoked = iw.privacyInvoked := by
  cases param <;> rfl

/-- An operation on the privacy sets the flag as it is to be. -/
theorem SetsPrivacy.tracks {value : Int32} {state next : State}
    (h : SetsPrivacy value state next) : next.Tracks := by
  unfold State.Tracks
  rw [h.isWpsEnrollee, h.wsec, h.iw]
  simp

theorem Unchanged.tracks {state next : State} (h : Unchanged state next)
    (htracks : state.Tracks) : next.Tracks := by
  unfold State.Tracks
  rw [h.iw, h.wsec, h.isWpsEnrollee]
  exact htracks

/-- An operation on a cipher keeps the flag unless it is to be TRUE beside other bits. -/
theorem SetsCipher.tracks_iff {param : AuthParam} {value : UInt32} {state next : State}
    (h : SetsCipher param value state next) (htracks : state.Tracks) :
    next.Tracks ↔ (state.iw.privacyInvoked = true →
      cipherBits (next.iw.pwsec ||| next.iw.gwsec) = 0 →
        state.device.wsec &&& ~~~cipherMask = 0) := by
  have hprivacy : next.iw.privacyInvoked = state.iw.privacyInvoked := by
    rw [h.iw, store_privacyInvoked]
  have henabled : wsecEnabled next.device.wsec = cipherBits (next.iw.pwsec ||| next.iw.gwsec) := by
    rw [h.wsec, wsecEnabled_combineCiphers]
  have hzero := combineCiphers_eq_zero_iff next.iw state.device.wsec
  rw [← h.wsec] at hzero
  unfold State.Tracks at htracks ⊢
  rw [h.isWpsEnrollee, henabled, hprivacy]
  unfold enrolleeAfter
  rw [hprivacy]
  cases hinvoked : state.iw.privacyInvoked with
  | false =>
    -- the flag was FALSE, and is not set
    have hbefore : state.device.isWpsEnrollee = false := by simpa [hinvoked] using htracks
    simp [hbefore]
  | true =>
    by_cases hciphers : cipherBits (next.iw.pwsec ||| next.iw.gwsec) = 0
    · by_cases hother : state.device.wsec &&& ~~~cipherMask = 0
      · simp [hzero, hciphers, hother]
      · simp [hzero, hciphers, hother]
    · simp [hzero, hciphers]

theorem plain_iff {now : Observed} {next : State} {op : Op} {param : AuthParam}
    (hparam : op.param = some param) (hcipher : param.isCipher = true)
    (hstep : step now.state op = some next)
    (h : SetsCipher param op.vwrq.value.toUInt32 now.state next) :
    op.Plain now ↔ (now.invoked = true → now.state.iw.privacyInvoked = true →
      cipherBits (next.iw.pwsec ||| next.iw.gwsec) = 0 →
        now.state.device.wsec &&& ~~~cipherMask = 0) := by
  rw [h.iw]
  constructor
  · intro hplain hinvoked
    exact hplain param hparam hcipher hinvoked (hstep ▸ rfl)
  · intro hzero other hother _ hinvoked _
    obtain rfl : param = other := Option.some.inj (hparam.symm.trans hother)
    exact hzero hinvoked

/-- One operation, from a state in which the flag is as it is to be. -/
theorem tracks_iff_plain (now : Observed) (op : Op)
    (hnow : now.invoked = true → now.state.Tracks) : op.Tracks now ↔ op.Plain now := by
  cases hstep : step now.state op with
  | none =>
    refine iff_of_true (fun next hnext ↦ ?_) (fun _ _ _ _ hsome ↦ ?_)
    · simp [observed, hstep] at hnext
    · simp [hstep] at hsome
  | some next =>
    have hobserved : observed.step now op = some
        ⟨next, now.invoked || op.param = some .privacyInvoked⟩ := by
      simp [observed, hstep]
    have htracks : op.Tracks now ↔
        ((now.invoked || op.param = some .privacyInvoked) = true → next.Tracks) := by
      unfold Op.Tracks
      rw [hobserved]
      simp
    rw [htracks]
    rcases step_cases hstep with ⟨param, hparam, hcipher, hset⟩ | ⟨hparam, hset⟩ | ⟨hother, hset⟩
    · have hnot : op.param ≠ some .privacyInvoked := by
        rw [hparam]
        rintro heq
        cases heq
        cases hcipher
      rw [plain_iff hparam hcipher hstep hset]
      simp only [hnot, decide_false, Bool.or_false]
      exact forall_congr' fun hinvoked ↦ hset.tracks_iff (hnow hinvoked)
    · refine iff_of_true (fun _ ↦ hset.tracks) fun param hsome hcipher ↦ ?_
      cases hparam.symm.trans hsome
      cases hcipher
    · have hnot : op.param ≠ some .privacyInvoked := fun heq ↦ (hother _ heq).2 rfl
      simp only [hnot, decide_false, Bool.or_false]
      refine iff_of_true (fun hinvoked ↦ hset.tracks (hnow hinvoked)) fun param hsome hcipher ↦ ?_
      exact absurd hcipher (by simp [(hother param hsome).1])

/-- In every run, from the first operation on the privacy on, the flag is as it is to be after each
step if and only if no operation on a cipher leaves, with privacy invoked, other bits of `wsec`
without a cipher bit. -/
theorem enrollee_tracks_iff (start : State) (ops : List Op) :
    observed.Along (fun now op ↦ op.Tracks now) ⟨start, false⟩ ops ↔
      observed.Along (fun now op ↦ op.Plain now) ⟨start, false⟩ ops := by
  refine Machine.along_congr tracks_iff_plain (fun now op next _ htracks hnext hinvoked ↦ ?_) nofun
  exact htracks next hnext hinvoked

/-- A firmware with software encryption, and nothing else. -/
def swEncryption : State where
  iw := ⟨0, 0, false⟩
  device := ⟨0x8, 0, 0, false, 0, 0, 0⟩

/-- Privacy is invoked, and the pairwise cipher set to none: the flag goes to FALSE though no cipher
is enabled. -/
theorem swEncryption_not_tracks :
    (observed.run ⟨swEncryption, false⟩ [accepted 10 1, accepted 1 1]).map
        (fun now ↦ (now.state.iw.privacyInvoked, now.state.device.wsec,
          now.state.device.isWpsEnrollee)) = some (true, 0x8, false) ∧
      ¬observed.Along (fun now op ↦ op.Tracks now) ⟨swEncryption, false⟩
        [accepted 10 1, accepted 1 1] := by
  refine ⟨by decide, fun h ↦ ?_⟩
  have hlast := (h.2 _ rfl).1 _ rfl rfl
  exact absurd (hlast.mpr (by decide)) (by decide)

end BroadcomWl.Wext.IwAuth
