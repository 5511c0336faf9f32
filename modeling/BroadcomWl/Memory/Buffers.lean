import BroadcomWl.Memory.Access
import BroadcomWl.Memory.Stores
import Mathlib.Logic.Function.Basic

/-!
# Loads and stores in partly filled buffers

A buffer has a capacity, and so many of its first bytes are filled. A log of loads and stores is
sound when every store stays inside its buffer and every byte that is loaded was filled or stored
before. Logs are put together one after the other; where a log only loads, or only stores, each
entry can be looked at alone.
-/

namespace BroadcomWl.Memory

/-- A load or a store of some bytes of one of several buffers. -/
inductive Op (Buffer : Type*) where
  | load (buffer : Buffer) (range : Range)
  | store (buffer : Buffer) (range : Range)
deriving DecidableEq, Repr

/-- How many bytes each buffer has, and how many of the first ones are filled. -/
structure BufferSizes (Buffer : Type*) where
  capacity : Buffer → ℕ
  filled : Buffer → ℕ

variable {Buffer : Type*}

/-- The entry stores the byte. -/
def Op.StoresAt (buffer : Buffer) (i : ℕ) : Op Buffer → Prop
  | load _ _ => False
  | store other range => other = buffer ∧ range.Covers i

/-- What an entry has to keep to after the entries before it. -/
def Op.SoundAfter (sizes : BufferSizes Buffer) (before : List (Op Buffer)) : Op Buffer → Prop
  | load buffer range => ∀ i < range.length,
      range.offset + i < sizes.filled buffer ∨
        ∃ op ∈ before, op.StoresAt buffer (range.offset + i)
  | store buffer range => range.Inside (sizes.capacity buffer)

/-- What an entry has to keep to where nothing was stored before. -/
def Op.Sound (sizes : BufferSizes Buffer) : Op Buffer → Prop
  | load buffer range => range.Inside (sizes.filled buffer)
  | store buffer range => range.Inside (sizes.capacity buffer)

/-- Every entry of the log keeps to its buffer, after the entries `before` the log. -/
def LogSoundAfter (sizes : BufferSizes Buffer) : List (Op Buffer) → List (Op Buffer) → Prop
  | _, [] => True
  | before, op :: rest => op.SoundAfter sizes before ∧ LogSoundAfter sizes (before ++ [op]) rest

def LogSound (sizes : BufferSizes Buffer) (log : List (Op Buffer)) : Prop :=
  LogSoundAfter sizes [] log

variable {sizes : BufferSizes Buffer} {before first second log : List (Op Buffer)}

/-- What was stored before only allows more. -/
theorem Op.Sound.soundAfter {op : Op Buffer} (h : op.Sound sizes) : op.SoundAfter sizes before := by
  cases op with
  | load buffer range => exact fun i hi ↦ .inl (h i hi)
  | store buffer range => exact h

@[simp]
theorem logSound_nil : LogSound sizes [] := trivial

/-- One log behind the other. -/
theorem logSoundAfter_append :
    LogSoundAfter sizes before (first ++ second) ↔
      LogSoundAfter sizes before first ∧ LogSoundAfter sizes (before ++ first) second := by
  induction first generalizing before with
  | nil => simp [LogSoundAfter]
  | cons op first ih =>
    rw [List.cons_append, LogSoundAfter, LogSoundAfter, ih, List.append_assoc, and_assoc]
    rfl

theorem logSoundAfter_of_forall (h : ∀ op ∈ log, op.Sound sizes) :
    LogSoundAfter sizes before log := by
  induction log generalizing before with
  | nil => trivial
  | cons op log ih =>
    obtain ⟨hop, hlog⟩ := List.forall_mem_cons.mp h
    exact ⟨hop.soundAfter, ih hlog⟩

/-- Entries that keep to their buffers alone do so together. -/
theorem logSound_of_forall (h : ∀ op ∈ log, op.Sound sizes) : LogSound sizes log :=
  logSoundAfter_of_forall h

/-- Whatever came before, a store stays inside its buffer. -/
theorem LogSoundAfter.store {buffer : Buffer} {range : Range}
    (h : LogSoundAfter sizes before log) (hstore : Op.store buffer range ∈ log) :
    range.Inside (sizes.capacity buffer) := by
  induction log generalizing before with
  | nil => cases hstore
  | cons op log ih =>
    rcases List.mem_cons.mp hstore with rfl | hlater
    · exact h.1
    · exact ih h.2 hlater

theorem LogSound.store {buffer : Buffer} {range : Range} (h : LogSound sizes log)
    (hstore : Op.store buffer range ∈ log) : range.Inside (sizes.capacity buffer) :=
  LogSoundAfter.store h hstore

theorem logSoundAfter_loads {buffer : Buffer} {ranges : List Range}
    (hbefore : ∀ op ∈ before, ∀ i, ¬op.StoresAt buffer i) :
    LogSoundAfter sizes before (ranges.map (.load buffer)) ↔
      ∀ range ∈ ranges, range.Inside (sizes.filled buffer) := by
  induction ranges generalizing before with
  | nil => simp [LogSoundAfter]
  | cons range ranges ih =>
    have hlater : ∀ op ∈ before ++ [Op.load buffer range], ∀ i, ¬op.StoresAt buffer i := by
      intro op hop
      rcases List.mem_append.mp hop with hop | hop
      · exact hbefore op hop
      · rw [List.mem_singleton.mp hop]
        exact fun _ ↦ id
    rw [List.map_cons, LogSoundAfter, ih hlater, List.forall_mem_cons]
    refine and_congr_left' (forall₂_congr fun i _ ↦ or_iff_left ?_)
    rintro ⟨op, hop, hstores⟩
    exact hbefore op hop _ hstores

/-- Only loads. -/
theorem logSound_loads {buffer : Buffer} {ranges : List Range} :
    LogSound sizes (ranges.map (.load buffer)) ↔
      ∀ range ∈ ranges, range.Inside (sizes.filled buffer) :=
  logSoundAfter_loads fun _ hop ↦ absurd hop List.not_mem_nil

/-- What was stored can be loaded. -/
theorem logSound_store_load {buffer : Buffer} {range : Range} :
    LogSound sizes [.store buffer range, .load buffer range] ↔
      range.Inside (sizes.capacity buffer) := by
  constructor
  · intro h
    exact h.store List.mem_cons_self
  · intro h
    refine ⟨h, fun i hi ↦ .inr ⟨_, List.mem_singleton_self _, rfl, ?_, ?_⟩, trivial⟩
    · exact Nat.le_add_right ..
    · exact Nat.add_lt_add_left hi _

/-- The first bytes of a buffer that were stored before count as filled. -/
theorem LogSoundAfter.of_stored [DecidableEq Buffer] {buffer : Buffer} {n : ℕ}
    (hstored : Op.store buffer ⟨0, n⟩ ∈ before)
    (h : ∀ op ∈ log, op.Sound ⟨sizes.capacity, Function.update sizes.filled buffer n⟩) :
    LogSoundAfter sizes before log := by
  induction log generalizing before with
  | nil => trivial
  | cons op log ih =>
    obtain ⟨hop, hlog⟩ := List.forall_mem_cons.mp h
    refine ⟨?_, ih (List.mem_append_left _ hstored) hlog⟩
    cases op with
    | store other range => exact hop
    | load other range =>
      intro i hi
      have hfilled : range.offset + i < Function.update sizes.filled buffer n other := hop i hi
      by_cases hother : other = buffer
      · subst hother
        rw [Function.update_self] at hfilled
        exact .inr ⟨_, hstored, rfl, Nat.zero_le _, (Nat.zero_add n).symm ▸ hfilled⟩
      · rw [Function.update_of_ne hother] at hfilled
        exact .inl hfilled

end BroadcomWl.Memory
