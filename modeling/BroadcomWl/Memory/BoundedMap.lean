import Mathlib.Data.List.Nodup

/-!
# Finite maps of bounded size

A bounded map is a list of entries with distinct keys and at most `capacity` entries.
Storing a value under a known key overwrites the entry in its place, storing it under a new
key appends an entry when there is room, and removing a key deletes its one entry. Entries
that an operation does not concern keep their order.
-/

namespace BroadcomWl.Memory

/-- Entries with distinct keys, at most `capacity` of them. -/
@[ext]
structure BoundedMap (Key Value : Type*) (capacity : ℕ) where
  entries : List (Key × Value)
  nodup : (entries.map Prod.fst).Nodup
  length_le : entries.length ≤ capacity

namespace BoundedMap

variable {Key Value : Type*} {capacity : ℕ}

def empty : BoundedMap Key Value capacity := ⟨[], List.nodup_nil, Nat.zero_le _⟩

def keys (map : BoundedMap Key Value capacity) : List Key := map.entries.map Prod.fst

theorem nodup_append {entries : List (Key × Value)} {key : Key} (value : Value)
    (hnodup : (entries.map Prod.fst).Nodup) (hnew : key ∉ entries.map Prod.fst) :
    ((entries ++ [(key, value)]).map Prod.fst).Nodup := by
  rw [List.map_append, List.map_singleton, ← List.concat_eq_append]
  exact hnodup.concat hnew

variable [DecidableEq Key]

/-- Give the entry of a known key a new value. -/
def overwrite (key : Key) (value : Value) (entries : List (Key × Value)) : List (Key × Value) :=
  entries.map fun entry ↦ if entry.1 = key then (key, value) else entry

theorem map_fst_overwrite (key : Key) (value : Value) (entries : List (Key × Value)) :
    (overwrite key value entries).map Prod.fst = entries.map Prod.fst := by
  unfold overwrite
  rw [List.map_map]
  refine List.map_congr_left fun entry _ ↦ ?_
  by_cases hkey : entry.1 = key
  · simp [hkey]
  · simp [hkey]

/-- Store a value: overwrite the entry of a known key, or append an entry if there is room. -/
def put (map : BoundedMap Key Value capacity) (key : Key) (value : Value) :
    Option (BoundedMap Key Value capacity) :=
  if hknown : key ∈ map.keys then
    some ⟨overwrite key value map.entries,
      (map_fst_overwrite key value map.entries).symm ▸ map.nodup,
      le_of_eq_of_le (List.length_map _) map.length_le⟩
  else if hroom : map.entries.length < capacity then
    some ⟨map.entries ++ [(key, value)], nodup_append value map.nodup hknown,
      le_of_eq_of_le List.length_append hroom⟩
  else none

/-- Remove the entry of a known key. -/
def remove (map : BoundedMap Key Value capacity) (key : Key) :
    Option (BoundedMap Key Value capacity) :=
  if key ∈ map.keys then
    some ⟨map.entries.filter fun entry ↦ entry.1 ≠ key,
      map.nodup.sublist (List.filter_sublist.map Prod.fst),
      Nat.le_trans (List.length_filter_le _ _) map.length_le⟩
  else none

variable {map next : BoundedMap Key Value capacity} {key : Key} {value : Value}

theorem put_of_mem (value : Value) (h : key ∈ map.keys) :
    ∃ next, map.put key value = some next ∧ next.entries = overwrite key value map.entries :=
  ⟨_, dif_pos h, rfl⟩

theorem put_of_notMem (value : Value) (h : key ∉ map.keys)
    (hroom : map.entries.length < capacity) :
    ∃ next, map.put key value = some next ∧ next.entries = map.entries ++ [(key, value)] :=
  ⟨_, (dif_neg h).trans (dif_pos hroom), rfl⟩

/-- A value cannot be stored exactly when the map is full and the key is new. -/
theorem put_eq_none_iff :
    map.put key value = none ↔ map.entries.length = capacity ∧ key ∉ map.keys := by
  have hle := map.length_le
  unfold put
  split
  case isTrue hknown => simp [hknown]
  case isFalse hnew =>
    split
    case isTrue hroom => simp [Nat.ne_of_lt hroom]
    case isFalse hfull => simp [hnew, Nat.le_antisymm hle (Nat.le_of_not_lt hfull)]

theorem remove_of_mem (h : key ∈ map.keys) :
    ∃ next, map.remove key = some next ∧
      next.entries = map.entries.filter fun entry ↦ entry.1 ≠ key :=
  ⟨_, if_pos h, rfl⟩

/-- A key cannot be removed exactly when it is absent. -/
theorem remove_eq_none_iff : map.remove key = none ↔ key ∉ map.keys := by
  simp [remove]

end BoundedMap

end BroadcomWl.Memory
