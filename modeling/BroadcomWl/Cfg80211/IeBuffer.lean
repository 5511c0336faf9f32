import BroadcomWl.Cfg80211.ScanResults
import BroadcomWl.Formats.Tlv
import BroadcomWl.Systems.Machine

/-!
# The accumulator of information elements

`struct wl_cfg80211_ie` collects information elements in an array of 1024 bytes with a 16-bit
offset. `wl_add_ie` and `wl_mrg_ie` append when there is room, `wl_cp_ie` copies what was
collected, `wl_rst_ie` starts anew. The copy of `wl_cp_ie` is made under a condition on the
offset, but its return value does not depend on that condition; so the condition must hold
whenever there is something to copy, which is an invariant of the writers.

A session is the accumulator together with the appending operations that were accepted since the
last reset.
-/

namespace BroadcomWl.Cfg80211.IeBuffer

open BroadcomWl.Systems BroadcomWl.Memory BroadcomWl.Formats
open BroadcomWl.Cfg80211.ScanResults (wlTlvInfoMax enospc)

/-- `struct wl_cfg80211_ie`. -/
structure WlCfg80211Ie where
  offset : UInt16
  buf : Vector UInt8 wlTlvInfoMax

def wlRstIe (ie : WlCfg80211Ie) : WlCfg80211Ie := { ie with offset := 0 }

def wlAddIe (ie : WlCfg80211Ie) (t l : UInt8) (v : ℕ → UInt8) : ℤ × WlCfg80211Ie :=
  if ie.offset.toNat + l.toNat + 2 > wlTlvInfoMax then (-enospc, ie)
  else
    let buf := ie.buf.setIfInBounds ie.offset.toNat t
    let buf := buf.setIfInBounds (ie.offset.toNat + 1) l
    (0, ⟨ie.offset + (l.toUInt16 + 2), memcpy buf (ie.offset.toNat + 2) v l.toNat⟩)

def wlMrgIe (ie : WlCfg80211Ie) (ieStream : ℕ → UInt8) (ieSize : UInt16) : ℤ × WlCfg80211Ie :=
  if ie.offset.toNat + ieSize.toNat > wlTlvInfoMax then (-enospc, ie)
  else (0, ⟨ie.offset + ieSize, memcpy ie.buf ie.offset.toNat ieStream ieSize.toNat⟩)

/-- The memory at `dst` after a copy of `len` bytes to it. -/
def copyTo (dst source : ℕ → UInt8) (len : ℕ) : ℕ → UInt8 := fun i ↦
  if i < len then source i else dst i

/-- The error, and the memory at `dst`. -/
def wlCpIe (ie : WlCfg80211Ie) (dst : ℕ → UInt8) (dstSize : UInt16) : ℤ × (ℕ → UInt8) :=
  if ie.offset > dstSize then (-enospc, dst)
  else if ie.offset > 0 ∧ ie.offset.toNat ≤ wlTlvInfoMax then
    (0, copyTo dst (readAt ie.buf 0) ie.offset.toNat)
  else (0, dst)

def wlGetIelen (ie : WlCfg80211Ie) : UInt32 := ie.offset.toUInt32

/-- What was collected. -/
def WlCfg80211Ie.content (ie : WlCfg80211Ie) : List UInt8 :=
  slice (readAt ie.buf 0) 0 ie.offset.toNat

/-! ## Appending -/

/-- Both writers append bytes that are read from somewhere. -/
def WlCfg80211Ie.append (ie : WlCfg80211Ie) (chunk : ℕ → UInt8) (len : ℕ) : WlCfg80211Ie :=
  ⟨ie.offset + UInt16.ofNat len, memcpy ie.buf ie.offset.toNat chunk len⟩

theorem WlCfg80211Ie.offset_append {ie : WlCfg80211Ie} {len : ℕ}
    (h : ie.offset.toNat + len ≤ wlTlvInfoMax) (chunk : ℕ → UInt8) :
    (ie.append chunk len).offset.toNat = ie.offset.toNat + len := by
  have hmax : wlTlvInfoMax = 1024 := rfl
  have hlen : (UInt16.ofNat len).toNat = len := by
    rw [UInt16.toNat_ofNat']
    exact Nat.mod_eq_of_lt (by omega)
  rw [append, UInt16.toNat_add, hlen]
  exact Nat.mod_eq_of_lt (by omega)

theorem WlCfg80211Ie.content_append {ie : WlCfg80211Ie} {len : ℕ}
    (h : ie.offset.toNat + len ≤ wlTlvInfoMax) (chunk : ℕ → UInt8) :
    (ie.append chunk len).content = ie.content ++ slice chunk 0 len := by
  unfold content
  rw [offset_append h, slice_add]
  have hbefore : slice (readAt (ie.append chunk len).buf 0) 0 ie.offset.toNat =
      slice (readAt ie.buf 0) 0 ie.offset.toNat := by
    refine slice_congr fun i hi ↦ ?_
    rw [append, readAt_memcpy h, if_neg (by omega)]
  have hchunk : slice (readAt (ie.append chunk len).buf 0) (0 + ie.offset.toNat) len =
      slice chunk 0 len := by
    refine slice_congr fun i hi ↦ ?_
    rw [append, readAt_memcpy h, if_pos (by omega), Nat.zero_add, Nat.zero_add,
      Nat.add_sub_cancel_left]
  rw [hbefore, hchunk]

/-- The bytes of an element whose value is read from `v`. -/
def elementBytes (t l : UInt8) (v : ℕ → UInt8) : ℕ → UInt8
  | 0 => t
  | 1 => l
  | i + 2 => v i

theorem slice_elementBytes (t l : UInt8) (v : ℕ → UInt8) (len : ℕ) :
    slice (elementBytes t l v) 0 (len + 2) = t :: l :: slice v 0 len := by
  rw [Nat.add_comm, slice_add]
  have hbody : slice (elementBytes t l v) (0 + 2) len = slice v 0 len := by
    refine slice_congr fun i _ ↦ ?_
    rw [Nat.zero_add, Nat.zero_add, Nat.add_comm]
    rfl
  rw [hbody]
  rfl

/-- Type and length are stored one by one. -/
theorem memcpy_elementBytes {n : ℕ} (buf : Vector UInt8 n) (offset : ℕ) (t l : UInt8)
    (v : ℕ → UInt8) (len : ℕ) :
    memcpy ((buf.setIfInBounds offset t).setIfInBounds (offset + 1) l) (offset + 2) v len =
      memcpy buf offset (elementBytes t l v) (len + 2) := by
  refine Vector.ext fun i hi ↦ ?_
  rw [getElem_memcpy, getElem_memcpy]
  by_cases hvalue : offset + 2 ≤ i ∧ i < offset + 2 + len
  · obtain ⟨k, rfl⟩ := Nat.exists_eq_add_of_le hvalue.1
    rw [if_pos hvalue, if_pos (by omega), Nat.add_sub_cancel_left, Nat.add_assoc,
      Nat.add_sub_cancel_left, Nat.add_comm 2 k]
    rfl
  · rw [if_neg hvalue, Vector.getElem_setIfInBounds, Vector.getElem_setIfInBounds]
    by_cases hsecond : offset + 1 = i
    · subst hsecond
      rw [if_pos rfl, if_pos (by omega), Nat.add_sub_cancel_left]
      rfl
    · rw [if_neg hsecond]
      by_cases hfirst : offset = i
      · subst hfirst
        rw [if_pos rfl, if_pos (by omega), Nat.sub_self]
        rfl
      · rw [if_neg hfirst, if_neg (by omega)]

theorem wlMrgIe_eq (ie : WlCfg80211Ie) (ieStream : ℕ → UInt8) (ieSize : UInt16) :
    wlMrgIe ie ieStream ieSize =
      if ie.offset.toNat + ieSize.toNat ≤ wlTlvInfoMax then (0, ie.append ieStream ieSize.toNat)
      else (-enospc, ie) := by
  have hsize : UInt16.ofNat ieSize.toNat = ieSize := UInt16.ofNat_toNat
  unfold wlMrgIe WlCfg80211Ie.append
  rw [hsize]
  split
  next h => rw [if_neg (Nat.not_le.mpr h)]
  next h => rw [if_pos (Nat.not_lt.mp h)]

theorem wlAddIe_eq (ie : WlCfg80211Ie) (t l : UInt8) (v : ℕ → UInt8) :
    wlAddIe ie t l v =
      if ie.offset.toNat + (l.toNat + 2) ≤ wlTlvInfoMax then
        (0, ie.append (elementBytes t l v) (l.toNat + 2))
      else (-enospc, ie) := by
  have hsize : l.toUInt16 + 2 = UInt16.ofNat (l.toNat + 2) := by
    apply UInt16.toNat_inj.mp
    rw [UInt16.toNat_add, UInt16.toNat_ofNat', UInt8.toNat_toUInt16]
    rfl
  unfold wlAddIe WlCfg80211Ie.append
  rw [hsize]
  split
  next h => rw [if_neg (by omega)]
  next h => rw [if_pos (by omega), ← memcpy_elementBytes]

/-! ## Sessions -/

/-- The operations, with all that their arguments say. -/
inductive IeOp where
  | rst
  | add (t l : UInt8) (v : ℕ → UInt8)
  | mrg (ieStream : ℕ → UInt8) (ieSize : UInt16)
  | cp (dst : ℕ → UInt8) (dstSize : UInt16)

namespace IeOp

/-- The result, and the accumulator afterwards. -/
def perform (ie : WlCfg80211Ie) : IeOp → ℤ × WlCfg80211Ie
  | rst => (0, wlRstIe ie)
  | add t l v => wlAddIe ie t l v
  | mrg ieStream ieSize => wlMrgIe ie ieStream ieSize
  | cp dst dstSize => ((wlCpIe ie dst dstSize).1, ie)

/-- The bytes that the operation appends when it is accepted. -/
def chunk : IeOp → List UInt8
  | rst => []
  | add t l v => t :: l :: slice v 0 l.toNat
  | mrg ieStream ieSize => slice ieStream 0 ieSize.toNat
  | cp _ _ => []

/-- The element that `wl_add_ie` adds. -/
def element : IeOp → Option Tlv
  | add t l v => some ⟨t, slice v 0 l.toNat, by rw [length_slice]; exact l.toNat_lt⟩
  | _ => none

/-- The accepted appending operations since the last reset, after one more with some result. -/
def note (accepted : List IeOp) (op : IeOp) (err : ℤ) : List IeOp :=
  match op with
  | rst => []
  | cp _ _ => accepted
  | op => if err = 0 then accepted ++ [op] else accepted

/-- What an operation can do: start anew, leave everything, or append its bytes. -/
theorem perform_cases (ie : WlCfg80211Ie) (op : IeOp) (accepted : List IeOp) :
    (op = rst ∧ op.perform ie = (0, wlRstIe ie) ∧ op.note accepted 0 = []) ∨
      ((op.perform ie).2 = ie ∧ op.note accepted (op.perform ie).1 = accepted ∧
        ((op.perform ie).1 = 0 → op.chunk = [])) ∨
      ∃ source len, ie.offset.toNat + len ≤ wlTlvInfoMax ∧ op.chunk = slice source 0 len ∧
        op.perform ie = (0, ie.append source len) ∧ op.note accepted 0 = accepted ++ [op] := by
  have hrejected : (-enospc : ℤ) ≠ 0 := by decide
  cases op with
  | rst => exact .inl ⟨rfl, rfl, rfl⟩
  | cp dst dstSize => exact .inr (.inl ⟨rfl, rfl, fun _ ↦ rfl⟩)
  | add t l v =>
    have hperform : (add t l v).perform ie = wlAddIe ie t l v := rfl
    rw [wlAddIe_eq] at hperform
    split at hperform
    next h =>
      exact .inr (.inr ⟨_, _, h, (slice_elementBytes ..).symm, hperform, rfl⟩)
    next h =>
      rw [hperform]
      exact .inr (.inl ⟨rfl, rfl, fun herr ↦ absurd herr hrejected⟩)
  | mrg ieStream ieSize =>
    have hperform : (mrg ieStream ieSize).perform ie = wlMrgIe ie ieStream ieSize := rfl
    rw [wlMrgIe_eq] at hperform
    split at hperform
    next h => exact .inr (.inr ⟨_, _, h, rfl, hperform, rfl⟩)
    next h =>
      rw [hperform]
      exact .inr (.inl ⟨rfl, rfl, fun herr ↦ absurd herr hrejected⟩)

end IeOp

/-- The accumulator with the appending operations that were accepted since the last reset. -/
structure Session where
  ie : WlCfg80211Ie
  accepted : List IeOp

/-- Any operations, from an offset of zero on. -/
def session : Machine Session IeOp where
  initial state := state.ie.offset = 0 ∧ state.accepted = []
  step state op := some
    { ie := (op.perform state.ie).2
      accepted := op.note state.accepted (op.perform state.ie).1 }

/-- The accumulator holds the accepted bytes, one after another. -/
structure Session.Faithful (state : Session) : Prop where
  offset_le : state.ie.offset.toNat ≤ wlTlvInfoMax
  content_eq : state.ie.content = state.accepted.flatMap IeOp.chunk

theorem content_of_offset_eq_zero {ie : WlCfg80211Ie} (h : ie.offset = 0) : ie.content = [] := by
  unfold WlCfg80211Ie.content
  rw [h]
  rfl

theorem faithful_step {state next : Session} {op : IeOp} (h : state.Faithful)
    (hstep : session.step state op = some next) : next.Faithful := by
  cases hstep
  rcases op.perform_cases state.ie state.accepted with ⟨-, hperform, hnote⟩ |
    ⟨hsame, hnote, -⟩ | ⟨source, len, hle, hchunk, hperform, hnote⟩
  · rw [hperform, hnote]
    exact ⟨Nat.zero_le _, content_of_offset_eq_zero rfl⟩
  · rw [hsame, hnote]
    exact h
  · rw [hperform, hnote]
    constructor
    · dsimp only
      rw [WlCfg80211Ie.offset_append hle]
      exact hle
    · dsimp only
      rw [WlCfg80211Ie.content_append hle, h.content_eq, List.flatMap_append, ← hchunk,
        List.flatMap_singleton]

/-- In every state that some operations reach. -/
theorem faithful_of_reachable {state : Session} (h : session.Reachable state) :
    state.Faithful := by
  refine h.invariant (fun state hstart ↦ ?_) fun _ _ _ ↦ faithful_step
  refine ⟨?_, ?_⟩
  · rw [hstart.1]
    exact Nat.zero_le _
  · rw [hstart.2, content_of_offset_eq_zero hstart.1]
    rfl

/-! ## What the accumulator is used for -/

/-- While the offset stays inside the array, the condition of the copy only excludes a copy of
nothing. -/
theorem wlCpIe_eq {ie : WlCfg80211Ie} (h : ie.offset.toNat ≤ wlTlvInfoMax) (dst : ℕ → UInt8)
    (dstSize : UInt16) :
    wlCpIe ie dst dstSize =
      if ie.offset > dstSize then (-enospc, dst)
      else (0, copyTo dst (readAt ie.buf 0) ie.offset.toNat) := by
  unfold wlCpIe
  by_cases hfits : ie.offset > dstSize
  · rw [if_pos hfits, if_pos hfits]
  · rw [if_neg hfits, if_neg hfits]
    by_cases hzero : ie.offset = 0
    · have hnothing : copyTo dst (readAt ie.buf 0) ie.offset.toNat = dst := by
        rw [hzero]
        rfl
      rw [hnothing, ite_self]
    · exact if_pos ⟨UInt16.pos_iff_ne_zero.mpr hzero, h⟩

theorem encode_of_element {op : IeOp} {element : Tlv} (h : op.element = some element) :
    op.chunk = element.encode := by
  cases op with
  | rst => cases h
  | mrg ieStream ieSize => cases h
  | cp dst dstSize => cases h
  | add t l v =>
    cases h
    rw [IeOp.chunk, Tlv.encode, length_slice, UInt8.ofNat_toNat]

/-- Bytes that only `wl_add_ie` appended are read back. -/
theorem scan_of_elements {ops : List IeOp} (h : ∀ op ∈ ops, op.element.isSome) :
    Tlv.scan (ops.flatMap IeOp.chunk) = (ops.filterMap IeOp.element, []) := by
  have hbytes : ops.flatMap IeOp.chunk = (ops.filterMap IeOp.element).flatMap Tlv.encode := by
    induction ops with
    | nil => rfl
    | cons op ops ih =>
      rw [List.forall_mem_cons] at h
      obtain ⟨element, helement⟩ := Option.isSome_iff_exists.mp h.1
      rw [List.flatMap_cons, List.filterMap_cons_some helement, List.flatMap_cons, ih h.2,
        encode_of_element helement]
  rw [hbytes, Tlv.scan_encode]

/-- What the accumulator promises in every state that operations reach from an offset of zero:
the offset stays inside the array, so no operation makes it wrap; the array starts with the
accepted bytes; what is rejected leaves everything as it was; `wl_cp_ie` copies the collected
bytes, and only these, whenever it says so; and elements that were added are read back. -/
theorem ieBuffer_faithful {state : Session} (h : session.Reachable state) :
    state.ie.offset.toNat ≤ wlTlvInfoMax ∧
      state.ie.content = state.accepted.flatMap IeOp.chunk ∧
      (∀ op : IeOp, (op.perform state.ie).1 ≠ 0 → (op.perform state.ie).2 = state.ie) ∧
      (∀ op : IeOp, op ≠ .rst → (op.perform state.ie).1 = 0 →
        (op.perform state.ie).2.offset.toNat = state.ie.offset.toNat + op.chunk.length ∧
          state.ie.offset.toNat + op.chunk.length ≤ wlTlvInfoMax) ∧
      (∀ dst dstSize,
        (wlCpIe state.ie dst dstSize).1 = 0 ∧
            (wlCpIe state.ie dst dstSize).2 =
              copyTo dst (readAt state.ie.buf 0) (wlGetIelen state.ie).toNat ∨
          (wlCpIe state.ie dst dstSize).1 ≠ 0 ∧ (wlCpIe state.ie dst dstSize).2 = dst) ∧
      ((∀ op ∈ state.accepted, op.element.isSome) →
        Tlv.scan state.ie.content = (state.accepted.filterMap IeOp.element, [])) := by
  obtain ⟨hoffset, hcontent⟩ := faithful_of_reachable h
  refine ⟨hoffset, hcontent, fun op herr ↦ ?_, fun op hrst herr ↦ ?_, fun dst dstSize ↦ ?_,
    fun hadds ↦ ?_⟩
  · rcases op.perform_cases state.ie [] with ⟨-, hperform, -⟩ | ⟨hsame, -⟩ |
      ⟨source, len, -, -, hperform, -⟩
    · rw [hperform] at herr
      exact absurd rfl herr
    · exact hsame
    · rw [hperform] at herr
      exact absurd rfl herr
  · rcases op.perform_cases state.ie [] with ⟨hop, -⟩ | ⟨hsame, -, hchunk⟩ |
      ⟨source, len, hle, hchunk, hperform, -⟩
    · exact absurd hop hrst
    · rw [hsame, hchunk herr]
      exact ⟨rfl, hoffset⟩
    · rw [hperform, hchunk, length_slice]
      exact ⟨WlCfg80211Ie.offset_append hle source, hle⟩
  · rw [wlCpIe_eq hoffset]
    have hlen : (wlGetIelen state.ie).toNat = state.ie.offset.toNat := UInt16.toNat_toUInt32 _
    rw [hlen]
    split
    next => exact .inr ⟨show (-enospc : ℤ) ≠ 0 by decide, rfl⟩
    next => exact .inl ⟨rfl, rfl⟩
  · rw [hcontent]
    exact scan_of_elements hadds

/-- After an element and two bytes that `wl_mrg_ie` appended. -/
theorem ieBuffer_faithful_run :
    session.Reachable (⟨((IeOp.mrg (fun _ ↦ 7) 2).perform
        ((IeOp.add 48 1 fun _ ↦ 5).perform ⟨0, Vector.replicate 1024 0⟩).2).2,
      [.add 48 1 fun _ ↦ 5, .mrg (fun _ ↦ 7) 2]⟩ : Session) ∧
    ((IeOp.mrg (fun _ ↦ 7) 2).perform
        ((IeOp.add 48 1 fun _ ↦ 5).perform ⟨0, Vector.replicate 1024 0⟩).2).2.content =
      [48, 1, 5, 7, 7] := by
  have hreachable : session.Reachable (⟨((IeOp.mrg (fun _ ↦ 7) 2).perform
      ((IeOp.add 48 1 fun _ ↦ 5).perform ⟨0, Vector.replicate 1024 0⟩).2).2,
      [.add 48 1 fun _ ↦ 5, .mrg (fun _ ↦ 7) 2]⟩ : Session) :=
    ⟨⟨⟨0, Vector.replicate 1024 0⟩, []⟩, [.add 48 1 fun _ ↦ 5, .mrg (fun _ ↦ 7) 2],
      ⟨rfl, rfl⟩, rfl⟩
  exact ⟨hreachable, (ieBuffer_faithful hreachable).2.1.trans rfl⟩

end BroadcomWl.Cfg80211.IeBuffer
