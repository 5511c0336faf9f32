import BroadcomWl.Memory.Bytes

/-!
# Elements with a type, a length and a value

A sequence of elements is read one after another: a byte for the type, one for the length, and so
many bytes for the value. Reading stops at the first element that does not lie wholly inside what
is left. The elements of a memory are found by their positions; they are the elements that are
read from the bytes there.
-/

namespace BroadcomWl.Formats

open BroadcomWl.Memory

/-- The length is a byte. -/
structure Tlv where
  tag : UInt8
  value : List UInt8
  length_lt : value.length < 256
deriving DecidableEq, Repr

namespace Tlv

def encode (element : Tlv) : List UInt8 :=
  element.tag :: UInt8.ofNat element.value.length :: element.value

/-- The first element, and the bytes behind it. -/
def next : List UInt8 → Option (Tlv × List UInt8)
  | tag :: len :: rest =>
      if len.toNat ≤ rest.length then
        some (⟨tag, rest.take len.toNat,
          (List.length_take_le ..).trans_lt len.toNat_lt⟩, rest.drop len.toNat)
      else none
  | _ => none

theorem next_encode_append (element : Tlv) (rest : List UInt8) :
    next (element.encode ++ rest) = some (element, rest) := by
  obtain ⟨tag, value, hlength⟩ := element
  have hlen : (UInt8.ofNat value.length).toNat = value.length := by
    rw [UInt8.toNat_ofNat']
    exact Nat.mod_eq_of_lt hlength
  simp [encode, next, hlen]

theorem eq_of_next {bytes rest : List UInt8} {element : Tlv}
    (h : next bytes = some (element, rest)) : bytes = element.encode ++ rest := by
  unfold next at h
  split at h
  next tag len behind =>
    obtain ⟨hle, heq⟩ := Option.ite_none_right_eq_some.mp h
    obtain ⟨rfl, rfl⟩ := Prod.mk.inj (Option.some.inj heq)
    simp [encode, Nat.min_eq_left hle]
  next => cases h

theorem length_lt_of_next {bytes rest : List UInt8} {element : Tlv}
    (h : next bytes = some (element, rest)) : rest.length < bytes.length := by
  rw [eq_of_next h, encode, List.length_append, List.length_cons]
  omega

/-- The elements one after another, and the bytes that are left behind the last one. -/
def scan (bytes : List UInt8) : List Tlv × List UInt8 :=
  match h : next bytes with
  | none => ([], bytes)
  | some (element, rest) =>
      have := length_lt_of_next h
      (element :: (scan rest).1, (scan rest).2)
termination_by bytes.length

theorem scan_of_none {bytes : List UInt8} (h : next bytes = none) : scan bytes = ([], bytes) := by
  rw [scan]
  split
  next => rfl
  next element rest hnext => rw [h] at hnext; cases hnext

theorem scan_of_some {bytes rest : List UInt8} {element : Tlv}
    (h : next bytes = some (element, rest)) :
    scan bytes = (element :: (scan rest).1, (scan rest).2) := by
  rw [scan]
  split
  next hnext => rw [h] at hnext; cases hnext
  next other behind hnext =>
    rw [h] at hnext
    obtain ⟨rfl, rfl⟩ := Prod.mk.inj (Option.some.inj hnext)
    rfl

/-- Elements that were written are read back. -/
theorem scan_encode (elements : List Tlv) : scan (elements.flatMap encode) = (elements, []) := by
  induction elements with
  | nil => exact scan_of_none rfl
  | cons element elements ih =>
    rw [List.flatMap_cons, scan_of_some (next_encode_append ..), ih]

/-! ## Elements in a memory -/

section Positions

variable (memory : ℕ → UInt8)

/-- The length byte of the element at a position. -/
def lenAt (ptr : ℕ) : ℕ := (memory (ptr + 1)).toNat

/-- The element at a position. -/
def ofMemory (ptr : ℕ) : Tlv where
  tag := memory ptr
  value := slice memory (ptr + 2) (lenAt memory ptr)
  length_lt := by
    rw [length_slice]
    exact (memory (ptr + 1)).toNat_lt

/-- Where the elements start that lie wholly inside the `n` bytes from `ptr` on. -/
def positions (ptr n : ℕ) : List ℕ :=
  if 2 + lenAt memory ptr ≤ n then
    ptr :: positions (ptr + (2 + lenAt memory ptr)) (n - (2 + lenAt memory ptr))
  else []
termination_by n

theorem encode_ofMemory (ptr : ℕ) :
    (ofMemory memory ptr).encode = slice memory ptr (2 + lenAt memory ptr) := by
  rw [slice_add]
  have hlen : UInt8.ofNat (lenAt memory ptr) = memory (ptr + 1) := UInt8.ofNat_toNat
  simp [encode, ofMemory, hlen, slice, List.range_succ]

theorem next_slice (ptr n : ℕ) :
    next (slice memory ptr n) =
      if 2 + lenAt memory ptr ≤ n then
        some (ofMemory memory ptr,
          slice memory (ptr + (2 + lenAt memory ptr)) (n - (2 + lenAt memory ptr)))
      else none := by
  split
  next h =>
    calc next (slice memory ptr n)
      _ = next (slice memory ptr (2 + lenAt memory ptr + (n - (2 + lenAt memory ptr)))) := by
        rw [Nat.add_sub_cancel' h]
      _ = _ := by rw [slice_add, ← encode_ofMemory, next_encode_append]
  next h =>
    match n, h with
    | 0, _ => rfl
    | 1, _ => rfl
    | n + 2, h =>
      have hbytes : slice memory ptr (n + 2) =
          memory ptr :: memory (ptr + 1) :: slice memory (ptr + 2) n := by
        rw [Nat.add_comm, slice_add]
        simp [slice, List.range_succ]
      rw [hbytes, next, if_neg]
      rw [length_slice]
      change ¬lenAt memory ptr ≤ n
      omega

/-- The elements at these positions are those that are read from the bytes. -/
theorem map_ofMemory_positions (ptr n : ℕ) :
    (positions memory ptr n).map (ofMemory memory) = (scan (slice memory ptr n)).1 := by
  fun_induction positions memory ptr n with
  | case1 ptr n h ih =>
    have hnext := next_slice memory ptr n
    rw [if_pos h] at hnext
    rw [scan_of_some hnext, List.map_cons, ih]
  | case2 ptr n h =>
    have hnext := next_slice memory ptr n
    rw [if_neg h] at hnext
    rw [scan_of_none hnext, List.map_nil]

variable {memory}

/-- Every element lies inside, and what follows it is found by going on behind it. -/
theorem positions_eq_append {ptr n ie : ℕ} {before after : List ℕ}
    (h : positions memory ptr n = before ++ ie :: after) :
    ptr ≤ ie ∧ ie + (2 + lenAt memory ie) ≤ ptr + n ∧
      after = positions memory (ie + (2 + lenAt memory ie))
        (ptr + n - (ie + (2 + lenAt memory ie))) := by
  fun_induction positions memory ptr n generalizing before with
  | case1 ptr n hle ih =>
    cases before with
    | nil =>
      obtain ⟨rfl, rfl⟩ := List.cons.inj h
      refine ⟨Nat.le_refl _, by omega, ?_⟩
      rw [Nat.add_sub_add_left]
    | cons first before =>
      obtain ⟨-, hrest⟩ := List.cons.inj h
      obtain ⟨hfrom, hinside, hafter⟩ := ih hrest
      have hend : ptr + (2 + lenAt memory ptr) + (n - (2 + lenAt memory ptr)) = ptr + n := by
        omega
      rw [hend] at hinside hafter
      exact ⟨by omega, hinside, hafter⟩
  | case2 ptr n hle => cases before <;> cases h

end Positions

end Tlv

end BroadcomWl.Formats
