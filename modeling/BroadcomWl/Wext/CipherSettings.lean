import BroadcomWl.Wext.IwAuth

/-!
# The last ciphers decide

The pairwise and the group ciphers are set by different operations, and each replaces the cipher
bits of `wsec` by those of its own ciphers together with the remembered ones of the other. Whatever
the order, what remains is the last of either.
-/

namespace BroadcomWl.Wext.IwAuth

open BroadcomWl.Memory BroadcomWl.Systems

/-- The value that a parameter was last set to. -/
def lastValue (param : AuthParam) (ops : List Op) : Option Int32 :=
  (ops.filter fun op ↦ op.param = some param).getLast?.map (·.vwrq.value)

theorem getD_lastValue_cons (param : AuthParam) (op : Op) (ops : List Op) (before : Int32) :
    (lastValue param (op :: ops)).getD before =
      (lastValue param ops).getD (if op.param = some param then op.vwrq.value else before) := by
  unfold lastValue
  by_cases hparam : op.param = some param
  · rw [List.filter_cons_of_pos (by simpa using hparam), if_pos hparam, List.getLast?_cons]
    cases (ops.filter fun op ↦ op.param = some param).getLast? <;> rfl
  · rw [List.filter_cons_of_neg (by simpa using hparam), if_neg hparam]

/-- A parameter that has a last value was set. -/
theorem exists_of_lastValue {param : AuthParam} {ops : List Op} {value : Int32}
    (h : lastValue param ops = some value) : ∃ op ∈ ops, op.param = some param := by
  obtain ⟨op, hlast, -⟩ := Option.map_eq_some_iff.mp h
  have hmem := List.mem_of_getLast? hlast
  rw [List.mem_filter] at hmem
  exact ⟨op, hmem.1, by simpa using hmem.2⟩

/-! ## What a run keeps -/

/-- The cipher bits of `wsec` are those of the remembered ciphers. -/
def State.Imaged (state : State) : Prop :=
  wsecEnabled state.device.wsec = cipherBits (state.iw.pwsec ||| state.iw.gwsec)

theorem SetsCipher.imaged {param : AuthParam} {value : UInt32} {state next : State}
    (h : SetsCipher param value state next) : next.Imaged := by
  unfold State.Imaged wsecEnabled
  rw [h.wsec, combineCiphers_eq]
  exact replace_and _ (cipherBits_and_mask _)

theorem step_imaged {state next : State} {op : Op} (h : state.Imaged)
    (hstep : step state op = some next) : next.Imaged := by
  rcases step_cases hstep with ⟨_, -, -, hset⟩ | ⟨-, hset⟩ | ⟨-, hset⟩
  · exact hset.imaged
  · unfold State.Imaged
    rw [hset.wsec, hset.iw]
    exact h
  · unfold State.Imaged
    rw [hset.wsec, hset.iw]
    exact h

/-- No operation touches the other bits. -/
theorem step_otherBits {state next : State} {op : Op} (hstep : step state op = some next) :
    next.device.wsec &&& ~~~cipherMask = state.device.wsec &&& ~~~cipherMask := by
  rcases step_cases hstep with ⟨_, -, -, hset⟩ | ⟨-, hset⟩ | ⟨-, hset⟩
  · rw [hset.wsec, combineCiphers_eq]
    exact replace_and_not _ (cipherBits_and_mask _)
  · rw [hset.wsec]
  · rw [hset.wsec]

/-- Each of the remembered ciphers is set by its own operation only. -/
theorem step_ciphers {state next : State} {op : Op} (hstep : step state op = some next) :
    next.iw.pwsec.toInt32 = (if op.param = some .cipherPairwise then op.vwrq.value
      else state.iw.pwsec.toInt32) ∧
    next.iw.gwsec.toInt32 = (if op.param = some .cipherGroup then op.vwrq.value
      else state.iw.gwsec.toInt32) := by
  rcases step_cases hstep with ⟨param, hparam, hcipher, hset⟩ | ⟨hparam, hset⟩ | ⟨hother, hset⟩
  · rw [hset.iw, hparam]
    cases param <;> cases hcipher <;> exact ⟨rfl, rfl⟩
  · rw [hset.iw, hparam]
    exact ⟨rfl, rfl⟩
  · have hpairwise : op.param ≠ some .cipherPairwise := fun h ↦ by cases (hother _ h).1
    have hgroup : op.param ≠ some .cipherGroup := fun h ↦ by cases (hother _ h).1
    rw [hset.iw, if_neg hpairwise, if_neg hgroup]
    exact ⟨rfl, rfl⟩

section Run

variable {start final : State} {ops : List Op}

theorem run_otherBits (hrun : wpaauth.run start ops = some final) :
    final.device.wsec &&& ~~~cipherMask = start.device.wsec &&& ~~~cipherMask := by
  have hstep : ∀ (state : State) (op : Op) (next : State),
      state.device.wsec &&& ~~~cipherMask = start.device.wsec &&& ~~~cipherMask →
      wpaauth.step state op = some next →
      next.device.wsec &&& ~~~cipherMask = start.device.wsec &&& ~~~cipherMask :=
    fun _ _ _ hstate hnext ↦ (step_otherBits hnext).trans hstate
  exact Machine.run_preserves hstep rfl hrun

/-- The driver remembers the last values. -/
theorem run_ciphers (hrun : wpaauth.run start ops = some final) :
    final.iw.pwsec.toInt32 = (lastValue .cipherPairwise ops).getD start.iw.pwsec.toInt32 ∧
    final.iw.gwsec.toInt32 = (lastValue .cipherGroup ops).getD start.iw.gwsec.toInt32 := by
  induction ops generalizing start with
  | nil =>
    cases hrun
    exact ⟨rfl, rfl⟩
  | cons op ops ih =>
    obtain ⟨next, hnext, hrest⟩ := Machine.run_cons_eq_some.mp hrun
    obtain ⟨hpairwise, hgroup⟩ := step_ciphers hnext
    rw [getD_lastValue_cons, getD_lastValue_cons, ← hpairwise, ← hgroup]
    exact ih hrest

/-- One operation on a cipher is enough for the bits to be those of the remembered ciphers. -/
theorem run_imaged (hrun : wpaauth.run start ops = some final) {param : AuthParam}
    (hcipher : param.isCipher = true) (hmem : ∃ op ∈ ops, op.param = some param) :
    final.Imaged := by
  induction ops generalizing start with
  | nil =>
    obtain ⟨_, hop, -⟩ := hmem
    cases hop
  | cons op ops ih =>
    obtain ⟨next, hnext, hrest⟩ := Machine.run_cons_eq_some.mp hrun
    by_cases hparam : op.param = some param
    · have himaged : next.Imaged := by
        rcases step_cases hnext with ⟨_, -, -, hset⟩ | ⟨hprivacy, -⟩ | ⟨hother, -⟩
        · exact hset.imaged
        · cases hparam.symm.trans hprivacy
          cases hcipher
        · exact absurd hcipher (by simp [(hother param hparam).1])
      exact Machine.run_preserves (fun _ _ _ ↦ step_imaged) himaged hrest
    · obtain ⟨other, hother, hset⟩ := hmem
      rcases List.mem_cons.mp hother with rfl | hlater
      · exact absurd hset hparam
      · exact ih hrest ⟨other, hlater, hset⟩

/-- `wsec` as it is after the ciphers were set. -/
theorem run_wsec (hrun : wpaauth.run start ops = some final) {pairwise group : Int32}
    (hpairwise : lastValue .cipherPairwise ops = some pairwise)
    (hgroup : lastValue .cipherGroup ops = some group) :
    final.device.wsec = start.device.wsec &&& ~~~cipherMask |||
      cipherBits (pairwise.toUInt32 ||| group.toUInt32) := by
  have himaged := run_imaged hrun rfl (exists_of_lastValue hpairwise)
  obtain ⟨hpwsec, hgwsec⟩ := run_ciphers hrun
  rw [hpairwise, Option.getD_some] at hpwsec
  rw [hgroup, Option.getD_some] at hgwsec
  calc final.device.wsec
    _ = final.device.wsec &&& ~~~cipherMask ||| wsecEnabled final.device.wsec :=
      (and_not_or_and ..).symm
    _ = start.device.wsec &&& ~~~cipherMask ||| cipherBits (final.iw.pwsec ||| final.iw.gwsec) := by
      rw [run_otherBits hrun, himaged]
    _ = _ := by rw [← hpwsec, ← hgwsec]; rfl

/-- After a run that has set both ciphers, the cipher bits of `wsec` are the image of the last two
values and the others are as they were, any other such run leaves the same `wsec`, and the last
values are read back. -/
theorem cipher_settings_last (hrun : wpaauth.run start ops = some final) {pairwise group : Int32}
    (hpairwise : lastValue .cipherPairwise ops = some pairwise)
    (hgroup : lastValue .cipherGroup ops = some group) :
    wsecEnabled final.device.wsec = cipherBits (pairwise.toUInt32 ||| group.toUInt32) ∧
    final.device.wsec &&& ~~~cipherMask = start.device.wsec &&& ~~~cipherMask ∧
    (∀ (otherStart otherFinal : State) (otherOps : List Op),
      otherStart.device.wsec = start.device.wsec →
      wpaauth.run otherStart otherOps = some otherFinal →
      lastValue .cipherPairwise otherOps = some pairwise →
      lastValue .cipherGroup otherOps = some group →
      otherFinal.device.wsec = final.device.wsec) ∧
    ∀ (answers : Answers) (flags : UInt16),
      (paramid ⟨0, flags⟩ = some .cipherPairwise →
        wlIwGetWpaauth answers flags final = .ok pairwise) ∧
      (paramid ⟨0, flags⟩ = some .cipherGroup →
        wlIwGetWpaauth answers flags final = .ok group) := by
  have hwsec := run_wsec hrun hpairwise hgroup
  obtain ⟨hpwsec, hgwsec⟩ := run_ciphers hrun
  rw [hpairwise, Option.getD_some] at hpwsec
  rw [hgroup, Option.getD_some] at hgwsec
  refine ⟨?_, run_otherBits hrun, ?_, fun answers flags ↦ ⟨fun hparam ↦ ?_, fun hparam ↦ ?_⟩⟩
  · rw [hwsec]
    exact replace_and _ (cipherBits_and_mask _)
  · intro otherStart otherFinal otherOps hsame hother hotherPairwise hotherGroup
    rw [run_wsec hother hotherPairwise hotherGroup, hwsec, hsame]
  · unfold wlIwGetWpaauth
    rw [hparam, ← hpwsec]
  · unfold wlIwGetWpaauth
    rw [hparam, ← hgwsec]

end Run

/-- A firmware with WEP and management frame protection. -/
def protectedFrames : State where
  iw := ⟨2, 2, false⟩
  device := ⟨0x201, 0, 0, false, 0, 0, 0⟩

/-- AES for the group, and in between the pairwise ciphers go from TKIP to AES. -/
theorem cipher_settings_last_aes : ∃ final,
    wpaauth.run protectedFrames [accepted 1 4, accepted 2 8, accepted 10 1, accepted 1 8] =
        some final ∧
      wsecEnabled final.device.wsec = cipherBits 8 ∧
      final.device.wsec &&& ~~~cipherMask = 0x200 ∧
      wlIwGetWpaauth ⟨0, 0, 0, 0⟩ 1 final = .ok 8 := by
  obtain ⟨henabled, hother, -, hget⟩ :=
    @cipher_settings_last protectedFrames _
      [accepted 1 4, accepted 2 8, accepted 10 1, accepted 1 8] rfl 8 8 rfl rfl
  exact ⟨_, rfl, henabled, hother, (hget ⟨0, 0, 0, 0⟩ 1).1 rfl⟩

end BroadcomWl.Wext.IwAuth
