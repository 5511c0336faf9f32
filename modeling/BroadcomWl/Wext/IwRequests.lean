import BroadcomWl.Wext.IwBounds

/-!
# Which requests are contained

The conditions of the handlers, put together: a request is contained exactly when its handler, with
the buffer that `wl_iw_ioctl` gives it, meets the condition of this handler.
-/

namespace BroadcomWl.Wext.Iw

open BroadcomWl.Memory

/-- What a handler needs of the request, of its buffer and of the firmware's answers. -/
def Handler.InBounds (platform : Platform) (dwrq : IwPoint) (extra : Option (ℕ → UInt8)) :
    Handler → Prop
  | .getRange => extra.isSome = true → RangeInBounds platform
  | .getAplist =>
      extra.isSome = true → platform.kmalloc = true → ListInBounds platform dwrq.length.toNat
  | .setScan => NoDirectedScan dwrq
  | .getScan => extra.isSome = true → ScanInBounds platform dwrq.length.toNat
  | .getEssid =>
      extra.isSome = true → (platform.firmware .ssid).error = 0 →
        load32 (platform.firmware .ssid).reply 0 ≤ iwEssidMaxSize + 1
  | .setNick => extra.isSome = true → dwrq.length.toNat ≠ 0
  | .setWpaie => WpaieInBounds platform dwrq.length.toNat
  | .getWpaie => ¬(platform.kmalloc = true ∧ (platform.firmware .wpaie).error = 0)
  | .setEncodeext =>
      extra.isSome = true ∧ KeyInBounds (encodeExtAt (content extra)) dwrq.length.toNat
  | .setPmksa => False
  | _ => True

section Handlers

variable {platform : Platform} {iw : WlIw} {dwrq : IwPoint} {handler : Handler}

/-- Without a buffer, only these handlers touch one. -/
theorem run_null_log (h : handler ∉ [.setScan, .setWpaie, .getWpaie, .setEncodeext, .setPmksa]) :
    (handler.run platform iw dwrq none).log = [] := by
  cases handler
  case setScan | setWpaie | getWpaie | setEncodeext | setPmksa => exact absurd (by decide) h
  case setEssid =>
    show (wlIwSetEssid platform iw dwrq none).log = []
    unfold wlIwSetEssid
    rw [if_neg fun hsome ↦ Bool.noConfusion hsome.2]
  case setEncode =>
    show (wlIwSetEncode platform iw dwrq none).log = []
    unfold wlIwSetEncode
    split
    · rfl
    · dsimp only
      rw [if_pos (.inl rfl : (none : Option (ℕ → UInt8)).isNone = true ∨ _)]
      split_ifs <;> rfl
  case getEncode =>
    show (wlIwGetEncode platform iw dwrq none).log = []
    unfold wlIwGetEncode
    dsimp only
    split
    · rfl
    split
    · rfl
    split
    · rfl
    · rw [if_neg fun hsome ↦ Bool.noConfusion (And.right hsome)]
  all_goals rfl

/-- A handler that was given no buffer. -/
theorem run_null_contained_iff (hdoc : platform.Documented) :
    Contained handler.tokens dwrq.length.toNat false (handler.run platform iw dwrq none).log
        (handler.run platform iw dwrq none).dwrq.length.toNat ↔
      handler.InBounds platform dwrq none := by
  by_cases htouches : handler ∈ [.setScan, .setWpaie, .getWpaie, .setEncodeext, .setPmksa]
  · cases handler
    case setScan => exact wlIwSetScan_contained_iff
    case setWpaie => exact wlIwSetWpaie_contained_iff hdoc
    case getWpaie => exact wlIwGetWpaie_contained_iff
    case setPmksa => exact iff_of_false wlIwSetPmksa_not_contained id
    case setEncodeext =>
      exact iff_of_false wlIwSetEncodeext_null_not_contained fun h ↦ Bool.noConfusion h.1
    all_goals exact absurd htouches (by decide)
  · rw [run_null_log htouches, contained_null_iff]
    refine iff_of_true logSound_nil ?_
    cases handler
    case setScan | setWpaie | getWpaie | setEncodeext | setPmksa =>
      exact absurd (by decide) htouches
    case getRange | getAplist | getScan | getEssid | setNick => exact fun h ↦ Bool.noConfusion h
    all_goals trivial

theorem given_iff {p : Prop} {bytes : ℕ → UInt8} : ((some bytes).isSome = true → p) ↔ p :=
  forall_prop_of_true rfl

/-- A handler that was given a buffer. -/
theorem run_some_contained_iff (hdoc : platform.Documented) {bytes : ℕ → UInt8}
    (htokens : handler.tokens.2 ≠ 0) (hlength : dwrq.length.toNat ≤ handler.tokens.2) :
    Contained handler.tokens dwrq.length.toNat true
        (handler.run platform iw dwrq (some bytes)).log
        (handler.run platform iw dwrq (some bytes)).dwrq.length.toNat ↔
      handler.InBounds platform dwrq (some bytes) := by
  cases handler
  case getRange =>
    exact wlIwGetRange_contained_iff.trans given_iff.symm
  case setSpy => exact iff_of_true (wlIwSetSpy_contained hlength) trivial
  case getSpy => exact iff_of_true (wlIwGetSpy_contained _) trivial
  case getAplist =>
    exact (wlIwGetAplist_contained_iff hlength).trans given_iff.symm
  case getScan =>
    exact (wlIwGetScan_contained_iff hdoc hlength).trans given_iff.symm
  case setEssid => exact iff_of_true (wlIwSetEssid_contained hlength) trivial
  case getEssid =>
    exact (wlIwGetEssid_contained_iff hlength).trans given_iff.symm
  case setNick =>
    exact (wlIwSetNick_contained_iff hlength).trans given_iff.symm
  case getNick => exact iff_of_true (wlIwGetNick_contained _) trivial
  case setEncode => exact iff_of_true (wlIwSetEncode_contained hlength) trivial
  case getEncode => exact iff_of_true (wlIwGetEncode_contained hlength) trivial
  case setEncodeext =>
    exact (wlIwSetEncodeext_contained_iff hlength).trans (and_iff_right rfl).symm
  case getEncodeext => exact iff_of_true (contained_nil hlength) trivial
  all_goals exact absurd rfl htokens

end Handlers

/-- The buffer that `wl_iw_ioctl` gives a handler, if any, has tokens, and no fewer than the user's
length. -/
theorem copyIn_some {copies : Copies} {request : Request} {bytes : ℕ → UInt8}
    (h : copyIn copies request = .ok (some bytes)) :
    (tokensOf request.cmd).2 ≠ 0 ∧ request.data.length.toNat ≤ (tokensOf request.cmd).2 := by
  unfold copyIn at h
  dsimp only at h
  cases hpointer : request.pointer with
  | none =>
    rw [hpointer] at h
    cases h
  | some user =>
    rw [hpointer] at h
    dsimp only at h
    split_ifs at h with htokens hlong
    · cases h
    · exact ⟨htokens, Nat.not_lt.mp hlong⟩

section Requests

variable {platform : Platform} {copies : Copies} {iw : WlIw} {request : Request}

/-- A request is contained exactly when its handler is given what it needs. -/
theorem ioctl_contained_iff (hdoc : platform.Documented) :
    (wlIwIoctl platform copies iw request).Contained request ↔
      ∀ handler extra, handlerOf request.cmd = some handler →
        copyIn copies request = .ok extra → handler.InBounds platform request.data extra := by
  unfold wlIwIoctl Result.Contained
  cases hhandler : handlerOf request.cmd with
  | none =>
    refine iff_of_true (contained_null_iff.mpr logSound_nil) fun _ _ h ↦ ?_
    cases h
  | some handler =>
    have htokens := tokensOf_eq hhandler
    cases hcopy : copyIn copies request with
    | error error =>
      refine iff_of_true (contained_null_iff.mpr logSound_nil) fun _ _ _ h ↦ ?_
      cases h
    | ok extra =>
      have hrun : Contained handler.tokens request.data.length.toNat extra.isSome
          (handler.run platform iw request.data extra).log
          (handler.run platform iw request.data extra).dwrq.length.toNat ↔
            handler.InBounds platform request.data extra := by
        cases extra with
        | none => exact run_null_contained_iff hdoc
        | some bytes =>
          obtain ⟨hsome, hlength⟩ := htokens ▸ copyIn_some hcopy
          exact run_some_contained_iff hdoc hsome hlength
      rw [htokens]
      refine hrun.trans ⟨?_, fun h ↦ h handler extra rfl rfl⟩
      rintro h _ _ ⟨⟩ ⟨⟩
      exact h

end Requests

/-- `wl_iw_t` as it is at first. -/
def WlIw.zeroed : WlIw where
  nickname := List.replicate iwEssidMaxSize 0
  length_nickname := List.length_replicate
  zero_mem_nickname := by decide
  spyNum := 0
  spyNum_le := Nat.zero_le _

/-- A firmware that answers every call with zeros. -/
def silentPlatform : Platform where
  kmalloc := true
  firmware _ := ⟨0, fun _ ↦ 0⟩
  bcmMkiovar name datalen buflen := if name + 1 + datalen ≤ buflen then [⟨0, datalen⟩] else []
  bcmParseTlvs _ _ _ _ := none
  streamFits stop ends := decide (stop < ends)
  otherwise := 0

theorem silentPlatform_documented : silentPlatform.Documented where
  mkiovarFits _ _ _ h := if_pos h
  mkiovarOverflows _ _ _ h := if_neg (Nat.not_le.mpr h)
  streamEnds _ _ h := Nat.le_of_lt (of_decide_eq_true h)

/-- A request with so many of the user's bytes. -/
def zerosRequest (cmd : ℤ) (length : UInt16) : Request := ⟨cmd, some fun _ ↦ 0, ⟨length, 0⟩⟩

def plainCopies : Copies := ⟨true, true, true, fun _ ↦ 0⟩

/-- A nickname of five bytes is contained. -/
theorem nickname_contained :
    (wlIwIoctl silentPlatform plainCopies .zeroed (zerosRequest siocsiwnickn 5)).Contained
      (zerosRequest siocsiwnickn 5) := by
  refine (ioctl_contained_iff silentPlatform_documented).mpr fun handler extra hhandler _ ↦ ?_
  obtain rfl : Handler.setNick = handler := Option.some.inj hhandler
  exact fun _ ↦ by decide

/-- An empty nickname is terminated before the field, and the key of an extended encoding is loaded
where there is no buffer. -/
theorem empty_nickname_not_contained :
    ¬(wlIwIoctl silentPlatform plainCopies .zeroed (zerosRequest siocsiwnickn 0)).Contained
        (zerosRequest siocsiwnickn 0) ∧
      ¬(wlIwIoctl silentPlatform plainCopies .zeroed
        ⟨siocsiwencodeext, none, ⟨0, 0⟩⟩).Contained ⟨siocsiwencodeext, none, ⟨0, 0⟩⟩ := by
  constructor
  · intro h
    have hbefore : Op.store .beforeNickname ⟨0, 1⟩ ∈
        (wlIwIoctl silentPlatform plainCopies .zeroed (zerosRequest siocsiwnickn 0)).log := by
      decide
    have hinside : (⟨0, 1⟩ : Range).Inside 0 := h.sound.store hbefore
    exact absurd hinside (by decide)
  · have hnull := @wlIwSetEncodeext_null_not_contained silentPlatform .zeroed ⟨0, 0⟩
    exact hnull

end BroadcomWl.Wext.Iw
