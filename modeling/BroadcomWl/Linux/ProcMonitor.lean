import BroadcomWl.Linux.LockBalance
import BroadcomWl.Systems.Machine
import Mathlib.Logic.Function.Basic
import Mathlib.Tactic.IntervalCases
import Mathlib.Tactic.Positivity

/-!
# The monitor mode in `/proc`

A file in `/proc` shows the monitor mode as a number on a line. `wl_proc_read` prints the mode that
the firmware has at that moment, and answers zero when the file position has moved. `wl_proc_write`
takes one or two bytes and sets the mode to the digit in the first of them.

A program that saves what it has read may write it back later. The module says which modes have a
text at all, that what was read is the text of one mode however often and with whatever buffers it
was asked for, and which modes come back.
-/

namespace BroadcomWl.Linux.ProcMonitor

open BroadcomWl.Systems
open BroadcomWl.Linux.LockBalance (eio efault erange emsgsize Question)

/-! ## The text -/

/-- `%d`. -/
def decimal (value : ℤ) : List Char :=
  if 0 ≤ value then Nat.toDigits 10 value.toNat else '-' :: Nat.toDigits 10 (-value).toNat

/-- `%d\n`. -/
def printed (value : Int32) : List UInt8 := (decimal value.toInt).map Char.toUInt8 ++ [0x0a]

/-- The number that a decimal text stands for. -/
def numberOf : List Char → ℤ
  | '-' :: digits => -(Nat.ofDigitChars 10 digits 0)
  | digits => Nat.ofDigitChars 10 digits 0

/-- The number on a line. -/
def readLine (line : List UInt8) : ℤ := numberOf (line.dropLast.map Char.ofUInt8)

theorem isDigit_of_mem_toDigits {n : ℕ} {char : Char} (h : char ∈ Nat.toDigits 10 n) :
    char.isDigit = true :=
  Nat.isDigit_of_mem_toDigits (by decide) (by decide) h

theorem numberOf_decimal (value : ℤ) : numberOf (decimal value) = value := by
  unfold decimal
  split
  next hsign =>
    have hdigits : numberOf (Nat.toDigits 10 value.toNat) =
        Nat.ofDigitChars 10 (Nat.toDigits 10 value.toNat) 0 := by
      unfold numberOf
      split
      next digits heq =>
        have hminus := @isDigit_of_mem_toDigits value.toNat '-' (heq ▸ List.mem_cons_self)
        cases hminus
      next => rfl
    rw [hdigits, Nat.ofDigitChars_ten_toDigits, Int.toNat_of_nonneg hsign]
  next hsign =>
    change -((Nat.ofDigitChars 10 (Nat.toDigits 10 (-value).toNat) 0 : ℕ) : ℤ) = value
    rw [Nat.ofDigitChars_ten_toDigits]
    omega

/-- The characters of a number fit in a byte. -/
theorem ofUInt8_toUInt8 {value : ℤ} {char : Char} (h : char ∈ decimal value) :
    Char.ofUInt8 char.toUInt8 = char := by
  have hsmall : char.val.toNat < 256 := by
    have hdigit : ∀ {n : ℕ}, char ∈ Nat.toDigits 10 n → char.val.toNat < 256 := by
      intro n hmem
      have hle := (Bool.and_eq_true_iff.mp (isDigit_of_mem_toDigits hmem)).2
      have hle' : char.val.toNat ≤ 57 := UInt32.le_iff_toNat_le.mp (of_decide_eq_true hle)
      omega
    unfold decimal at h
    split at h
    next => exact hdigit h
    next =>
      rcases List.mem_cons.mp h with rfl | h
      · decide
      · exact hdigit h
  refine Char.ext (UInt32.toNat_inj.mp ?_)
  change char.val.toUInt8.toUInt32.toNat = char.val.toNat
  rw [UInt8.toNat_toUInt32, UInt32.toNat_toUInt8, Nat.mod_eq_of_lt hsmall]

theorem readLine_printed (value : Int32) : readLine (printed value) = value.toInt := by
  have hchars : ∀ char ∈ decimal value.toInt,
      (Char.ofUInt8 ∘ Char.toUInt8) char = id char := fun _ h ↦ ofUInt8_toUInt8 h
  unfold readLine printed
  rw [List.dropLast_concat, List.map_map, List.map_congr_left hchars, List.map_id, numberOf_decimal]

theorem printed_ne_nil (value : Int32) : printed value ≠ [] :=
  List.append_ne_nil_of_right_ne_nil _ (List.cons_ne_nil _ _)

/-- The text of a digit. -/
theorem printed_digit {value : Int32} (hnonneg : 0 ≤ value.toInt) (hle : value.toInt ≤ 9) :
    printed value = [UInt8.ofNat (48 + value.toInt.toNat), 0x0a] := by
  have hlt : value.toInt.toNat < 10 := by omega
  have hchar : (Nat.digitChar value.toInt.toNat).toUInt8 =
      UInt8.ofNat (48 + value.toInt.toNat) := by
    refine UInt8.toNat_inj.mp ?_
    have hval := Nat.toNat_digitChar_of_lt_ten hlt
    change (Nat.digitChar value.toInt.toNat).val.toNat = 48 + value.toInt.toNat at hval
    rw [Char.toUInt8, UInt32.toNat_toUInt8, hval, UInt8.toNat_ofNat']
  unfold printed decimal
  rw [if_pos hnonneg, Nat.toDigits_of_lt_base hlt, List.map_singleton, hchar]
  rfl

theorem length_toDigits_le_iff {n k : ℕ} (h : 0 < n ∨ 0 < k) :
    (Nat.toDigits 10 n).length ≤ k ↔ n < 10 ^ k := by
  rcases Nat.eq_zero_or_pos k with rfl | hk
  · have hdigits : 0 < (Nat.toDigits 10 n).length := Nat.length_toDigits_pos
    omega
  · exact Nat.length_toDigits_le_iff (by decide) hk

/-- How long the texts are. -/
theorem length_printed_le_iff (value : Int32) (k : ℕ) :
    (printed value).length ≤ k + 2 ↔ -10 ^ k < value.toInt ∧ value.toInt < 10 ^ (k + 1) := by
  have hlength : (printed value).length = (decimal value.toInt).length + 1 := by simp [printed]
  have hpow : ∀ (n k : ℕ), n < 10 ^ k ↔ (n : ℤ) < 10 ^ k := by
    intro n k
    exact_mod_cast Iff.rfl
  have hpos : (0 : ℤ) < 10 ^ k := by positivity
  have hpos' : (0 : ℤ) < 10 ^ (k + 1) := by positivity
  rw [hlength]
  unfold decimal
  split
  next hsign =>
    rw [Nat.add_le_add_iff_right (n := 1), length_toDigits_le_iff (.inr (Nat.succ_pos k)), hpow,
      Int.toNat_of_nonneg hsign]
    omega
  next hsign =>
    rw [List.length_cons, Nat.add_le_add_iff_right (n := 2), length_toDigits_le_iff (by omega),
      hpow, Int.toNat_of_nonneg (by omega)]
    omega

/-! ## The handlers -/

/-- The size of `tmp`. -/
def tmpSize : ℕ := 8

/-- `wl_proc_read`, with the error of `WLC_GET_MONITOR` and whether `copy_to_user` fails: the
result, and the bytes that were copied. -/
def wlProcRead (monitor : Int32) (length : ℕ) (bcmerror : ℤ) (faults : Bool) (offset : ℕ) :
    ℤ × List UInt8 :=
  if offset > 0 then (0, [])
  else if bcmerror ≠ 0 then (-eio, [])
  else
    let tmp := printed monitor
    if tmp.length ≥ tmpSize then (-erange, [])
    else if length < tmp.length then (-emsgsize, [])
    else if faults then (-efault, [])
    else (tmp.length, tmp)

/-- `from_user`, of which the copy fills the low byte. -/
def fromUser (first : UInt8) : Int32 :=
  let fromUser := Int32.ofNat first.toNat
  if 0x30 ≤ fromUser then fromUser - 0x30 else fromUser

/-- `wl_proc_write`, with whether `copy_from_user` fails and the error of `WLC_SET_MONITOR`: the
result, and the mode after it. -/
def wlProcWrite (buff : List UInt8) (faults : Bool) (bcmerror : ℤ) (monitor : Int32) : ℤ × Int32 :=
  match buff with
  | [first] | [first, _] =>
      if faults then (-efault, monitor)
      else if bcmerror ≠ 0 then (-eio, monitor)
      else (buff.length, fromUser first)
  | _ => (-eio, monitor)

/-- What the environment answers to the questions of one call. -/
def answers (monitor : Int32) (bcmerror : ℤ) (faults : Bool) (_ : ℕ) : Question → ℤ
  | .wlcIoctl _ => bcmerror
  | .monitorLength => (printed monitor).length
  | .copyToUser | .copyFromUser => faults.toNat
  | _ => 0

/-- The result is that of the routine around the lock. -/
theorem wlProcRead_exec (monitor : Int32) (length : ℕ) (bcmerror : ℤ) (faults : Bool)
    (offset : ℕ) :
    (LockBalance.wlProcRead length offset).exec (answers monitor bcmerror faults) 0 false =
      some ((wlProcRead monitor length bcmerror faults offset).1, false) := by
  unfold LockBalance.wlProcRead wlProcRead
  by_cases hoffset : offset > 0
  · rw [if_pos hoffset, if_pos hoffset]
    rfl
  rw [if_neg hoffset, if_neg hoffset]
  change (liftM (LockBalance.reportMonitor length bcmerror) : LockBalance.Prog ℤ).exec
    (answers monitor bcmerror faults) 1 false = _
  unfold LockBalance.reportMonitor
  by_cases herror : bcmerror ≠ 0
  · rw [if_pos herror, if_pos herror]
    rfl
  rw [if_neg herror, if_neg herror]
  let len : ℤ := (printed monitor).length
  change (liftM (if len < 0 ∨ len ≥ 8 then pure (-erange)
    else if (length : ℤ) < len then pure (-emsgsize)
    else LockBalance.ask .copyToUser >>= fun fault ↦
      if fault ≠ 0 then pure (-efault) else pure len : LockBalance.Talk ℤ) :
    LockBalance.Prog ℤ).exec (answers monitor bcmerror faults) 2 false = _
  have hsize : len < 0 ∨ len ≥ 8 ↔ (printed monitor).length ≥ tmpSize := by
    unfold len tmpSize
    omega
  by_cases hfits : (printed monitor).length ≥ tmpSize
  · rw [if_pos (hsize.mpr hfits), if_pos hfits]
    rfl
  rw [if_neg (mt hsize.mp hfits), if_neg hfits]
  by_cases hroom : length < (printed monitor).length
  · rw [if_pos (Int.ofNat_lt.mpr hroom), if_pos hroom]
    rfl
  rw [if_neg (mt Int.ofNat_lt.mp hroom), if_neg hroom]
  cases faults <;> rfl

theorem wlProcWrite_exec (buff : List UInt8) (faults : Bool) (bcmerror : ℤ) (monitor : Int32) :
    (LockBalance.wlProcWrite buff.length).exec (answers monitor bcmerror faults) 0 false =
      some ((wlProcWrite buff faults bcmerror monitor).1, false) := by
  have hwritten : ∀ length : ℕ, length = 1 ∨ length = 2 →
      (LockBalance.wlProcWrite length).exec (answers monitor bcmerror faults) 0 false =
        some (if faults then -efault else if bcmerror ≠ 0 then -eio else length, false) := by
    intro length hlength
    unfold LockBalance.wlProcWrite
    rw [if_neg (by omega)]
    cases faults <;> rfl
  match buff with
  | [] => rfl
  | [first] | [first, _] =>
      refine (hwritten _ (by simp)).trans ?_
      rw [wlProcWrite]
      split
      · rfl
      split <;> rfl
  | first :: second :: third :: rest =>
      have hlong : (first :: second :: third :: rest).length > 2 := by simp
      unfold LockBalance.wlProcWrite
      rw [if_pos (.inr hlong)]
      rfl

/-! ## Programs that read and write -/

/-- An opened file: its position, what was read through it, and the modes that were read. -/
structure Opened where
  offset : ℕ
  bytes : List UInt8
  modes : List Int32
deriving DecidableEq, Repr

def Opened.fresh : Opened := ⟨0, [], []⟩

structure State (File : Type*) where
  monitor : Int32
  files : File → Opened

/-- Opening a file or going back to its beginning, reading, writing, and a mode that the firmware
gets in another way. -/
inductive Label (File : Type*) where
  | openFile (file : File)
  | read (file : File) (length : ℕ) (bcmerror : ℤ) (faults : Bool)
  | write (buff : List UInt8) (faults : Bool) (bcmerror : ℤ)
  | setMonitor (monitor : Int32)

section Runs

variable {File : Type*} [DecidableEq File]

def step (state : State File) : Label File → State File
  | .openFile file => { state with files := Function.update state.files file .fresh }
  | .read file length bcmerror faults =>
      let opened := state.files file
      let bytes := (wlProcRead state.monitor length bcmerror faults opened.offset).2
      { state with
        files := Function.update state.files file {
          offset := opened.offset + bytes.length
          bytes := opened.bytes ++ bytes
          modes := if bytes = [] then opened.modes else opened.modes ++ [state.monitor] } }
  | .write buff faults bcmerror =>
      { state with monitor := (wlProcWrite buff faults bcmerror state.monitor).2 }
  | .setMonitor monitor => { state with monitor }

/-- Files that were just opened, with any mode. -/
def procFs : Machine (State File) (Label File) where
  initial state := ∀ file, state.files file = .fresh
  step state label := some (step state label)

/-- Nothing was read through the file, or the text of one mode. -/
def Opened.Whole (opened : Opened) : Prop :=
  opened = .fresh ∨ ∃ mode, (printed mode).length < tmpSize ∧
    opened = ⟨(printed mode).length, printed mode, [mode]⟩

theorem wlProcRead_cases (monitor : Int32) (length : ℕ) (bcmerror : ℤ) (faults : Bool)
    (offset : ℕ) :
    (wlProcRead monitor length bcmerror faults offset).2 = [] ∨
      offset = 0 ∧ (printed monitor).length < tmpSize ∧
        (wlProcRead monitor length bcmerror faults offset).2 = printed monitor := by
  unfold wlProcRead
  split
  · exact .inl rfl
  next hoffset =>
    split
    · exact .inl rfl
    dsimp only
    split
    · exact .inl rfl
    next hfits =>
      split
      · exact .inl rfl
      split
      · exact .inl rfl
      · exact .inr ⟨Nat.eq_zero_of_not_pos hoffset, not_le.mp hfits, rfl⟩

theorem whole_read {state : State File} {file : File} (h : (state.files file).Whole) (length : ℕ)
    (bcmerror : ℤ) (faults : Bool) :
    ((step state (.read file length bcmerror faults)).files file).Whole := by
  dsimp only [step]
  rw [Function.update_self]
  rcases wlProcRead_cases state.monitor length bcmerror faults (state.files file).offset with
    hnothing | ⟨hoffset, hfits, htext⟩
  · rw [hnothing, if_pos rfl, List.append_nil, List.length_nil, Nat.add_zero]
    exact h
  · rw [htext, if_neg (printed_ne_nil _)]
    rcases h with hfresh | ⟨mode, -, hread⟩
    · rw [hfresh]
      exact .inr ⟨state.monitor, hfits, by simp [Opened.fresh]⟩
    · -- the position has moved
      rw [hread] at hoffset
      exact absurd (List.length_eq_zero_iff.mp hoffset) (printed_ne_nil mode)

theorem whole_of_reachable {state : State File} (h : procFs.Reachable state) (file : File) :
    (state.files file).Whole := by
  let invariant := fun state : State File ↦ (state.files file).Whole
  refine @Machine.Reachable.invariant _ _ procFs invariant
    (fun start hstart ↦ .inl (hstart file)) ?_ _ h
  intro state label next hwhole hstep
  cases hstep
  cases label with
  | openFile other =>
    by_cases hsame : file = other
    · subst hsame
      exact .inl (Function.update_self ..)
    · change (Function.update state.files other .fresh file).Whole
      rw [Function.update_of_ne hsame]
      exact hwhole
  | read other length bcmerror faults =>
    by_cases hsame : file = other
    · subst hsame
      exact whole_read hwhole ..
    · change (Function.update state.files other _ file).Whole
      rw [Function.update_of_ne hsame]
      exact hwhole
  | write buff faults bcmerror => exact hwhole
  | setMonitor monitor => exact hwhole

/-- A digit comes back. -/
theorem fromUser_digit {mode : Int32} (hnonneg : 0 ≤ mode.toInt) (hle : mode.toInt ≤ 9) :
    fromUser (UInt8.ofNat (48 + mode.toInt.toNat)) = mode := by
  obtain ⟨n, hn⟩ := Int.eq_ofNat_of_zero_le hnonneg
  have hmode : mode = Int32.ofInt n := by rw [← hn, Int32.ofInt_toInt]
  rw [hn] at hle ⊢
  rw [hmode]
  have hbound : n ≤ 9 := by omega
  interval_cases n <;> rfl

/-- The text of a mode is taken if and only if the mode is a digit, and is then the mode. -/
theorem wlProcWrite_printed (mode monitor : Int32) :
    wlProcWrite (printed mode) false 0 monitor =
      if 0 ≤ mode.toInt ∧ mode.toInt ≤ 9 then (2, mode) else (-eio, monitor) := by
  split
  next hdigit =>
    rw [printed_digit hdigit.1 hdigit.2]
    change (((2 : ℕ) : ℤ), fromUser (UInt8.ofNat (48 + mode.toInt.toNat))) = _
    rw [fromUser_digit hdigit.1 hdigit.2]
    rfl
  next hdigit =>
    have hlong : ¬(printed mode).length ≤ 2 := by
      rw [length_printed_le_iff mode 0]
      omega
    match htext : printed mode with
    | [] | [_] | [_, _] =>
        rw [htext] at hlong
        exact absurd (by simp) hlong
    | _ :: _ :: _ :: _ => rfl

/-- In every run of programs that read and write the files, while the mode changes in other ways
too: what was read through a file is the text of one mode that the firmware had, and a mode has a
text when it has six digits at most, or five after the sign. Written back later, the text restores
the mode exactly when it is a digit; any other is refused, and the mode stays. -/
theorem saved_mode_restored {state : State File} (h : procFs.Reachable state) (file : File)
    (hread : (state.files file).bytes ≠ []) :
    ∃ mode : Int32, (state.files file).modes = [mode] ∧
      (state.files file).bytes = printed mode ∧
      readLine (state.files file).bytes = mode.toInt ∧
      (-100000 < mode.toInt ∧ mode.toInt < 1000000) ∧
      ∀ monitor, wlProcWrite (state.files file).bytes false 0 monitor =
        if 0 ≤ mode.toInt ∧ mode.toInt ≤ 9 then (2, mode) else (-eio, monitor) := by
  rcases whole_of_reachable h file with hfresh | ⟨mode, hfits, hopened⟩
  · rw [hfresh] at hread
    exact absurd rfl hread
  · rw [hopened]
    exact ⟨mode, rfl, rfl, readLine_printed mode,
      (length_printed_le_iff mode 5).mp (Nat.le_of_lt_succ hfits),
      wlProcWrite_printed mode⟩

end Runs

/-- A program whose first buffer is too small. -/
def shown : State Unit :=
  step (step ⟨1, fun _ ↦ .fresh⟩ (.read () 1 0 false)) (.read () 100 0 false)

theorem saved_mode_restored_shown :
    ∃ mode : Int32, (shown.files ()).modes = [mode] ∧
      (shown.files ()).bytes = printed mode ∧
      readLine (shown.files ()).bytes = mode.toInt ∧
      (-100000 < mode.toInt ∧ mode.toInt < 1000000) ∧
      ∀ monitor, wlProcWrite (shown.files ()).bytes false 0 monitor =
        if 0 ≤ mode.toInt ∧ mode.toInt ≤ 9 then (2, mode) else (-eio, monitor) :=
  saved_mode_restored ⟨⟨1, fun _ ↦ .fresh⟩, [.read () 1 0 false, .read () 100 0 false],
    fun _ ↦ rfl, rfl⟩ () (by decide)

end BroadcomWl.Linux.ProcMonitor
