import BroadcomWl.Memory.Stores

/-!
# The multicast list

`_wl_set_multicast_list` hands the multicast addresses of the device to the firmware. It copies
them one after another into a buffer with room for `MAXMULTILIST`; when there are more, it asks for
all multicast frames instead and hands over an empty list.

The buffer is modelled with the stores that fill it; its old contents are those that the allocation
returned. The kernel is one later than 2.6.34, which goes over the addresses with
`netdev_for_each_mc_addr`.
-/

namespace BroadcomWl.Linux.Multicast

open BroadcomWl.Memory

def maxMultiList : ℕ := 32
def etherAddrLen : ℕ := 6

def iffPromisc : UInt32 := 0x100
def iffAllmulti : UInt32 := 0x200

abbrev HwAddr := Vector UInt8 etherAddrLen

def uintT : Extent := ⟨4, 4⟩
def etherAddrT : Extent := (⟨1, 1⟩ : Extent).array etherAddrLen

/-- `struct maclist`, which ends with a flexible array. -/
def maclistT : Extent := .struct [uintT, etherAddrT.flexible]

/-- `maclist->ea[i]`. -/
def eaAt (i : ℕ) : ℕ := Extent.offsetAfter [uintT] etherAddrT + etherAddrT.size * i

def buflen : ℕ := maclistT.size + maxMultiList * etherAddrLen

/-- Where the loop stands when it ends: `i`, `allmulti`, and the stores. -/
structure Loop where
  i : ℕ
  allmulti : Bool
  stores : List Store
deriving DecidableEq, Repr

/-- The loop over the addresses that are left. -/
def copyAddrs : List HwAddr → ℕ → Bool → Loop
  | [], i, allmulti => ⟨i, allmulti, []⟩
  | ha :: rest, i, allmulti =>
      if maxMultiList ≤ i then ⟨0, true, []⟩
      else
        let loop := copyAddrs rest (i + 1) allmulti
        { loop with stores := ⟨eaAt i, ha.toList⟩ :: loop.stores }

/-- What the firmware is passed: `allmulti`, `WLC_SET_PROMISC` and the buffer of `mcast_list`, with
the stores that filled it. -/
structure Passed where
  allmulti : Bool
  promisc : UInt32
  maclist : ℕ → UInt8
  stores : List Store

/-- `_wl_set_multicast_list`; `malloc` are the contents of what was allocated. -/
def wlSetMulticastList (up : Bool) (malloc : Option (ℕ → UInt8)) (flags : UInt32)
    (mcList : List HwAddr) : Option Passed :=
  if !up then none
  else
    malloc.map fun maclist ↦
      let loop := copyAddrs mcList 0 (flags &&& iffAllmulti ≠ 0)
      let stores := loop.stores ++ [⟨0, le32 loop.i⟩]
      { allmulti := loop.allmulti
        promisc := flags &&& iffPromisc
        maclist := fill stores maclist
        stores := stores }

/-! ## What the buffer holds -/

/-- `maclist->count`, as the firmware reads it. -/
def count (maclist : ℕ → UInt8) : ℕ := load32 maclist 0

/-- The entries that are counted. -/
def entries (maclist : ℕ → UInt8) : List (List UInt8) :=
  (List.range (count maclist)).map fun i ↦ slice maclist (eaAt i) etherAddrLen

/-- The stores that put some addresses at the `i`-th entry and those behind it. -/
def storesFrom (i : ℕ) : List HwAddr → List Store
  | [] => []
  | ha :: rest => ⟨eaAt i, ha.toList⟩ :: storesFrom (i + 1) rest

theorem eaAt_eq (i : ℕ) : eaAt i = 4 + 6 * i := rfl

theorem buflen_eq : buflen = 196 := by decide

/-- Where the loop ends: with all addresses stored, or with the room filled and `i` reset. -/
theorem copyAddrs_eq (mcList : List HwAddr) {i : ℕ} (hi : i ≤ maxMultiList) (allmulti : Bool) :
    copyAddrs mcList i allmulti =
      if i + mcList.length ≤ maxMultiList then
        ⟨i + mcList.length, allmulti, storesFrom i mcList⟩
      else ⟨0, true, storesFrom i (mcList.take (maxMultiList - i))⟩ := by
  induction mcList generalizing i with
  | nil => rw [if_pos (by simpa using hi)]; rfl
  | cons ha rest ih =>
    rw [copyAddrs, List.length_cons]
    by_cases hfull : maxMultiList ≤ i
    · have hnone : maxMultiList - i = 0 := Nat.sub_eq_zero_of_le hfull
      rw [if_pos hfull, if_neg (by omega), hnone]
      rfl
    · obtain ⟨room, hroom⟩ : ∃ room, maxMultiList - i = room + 1 :=
        Nat.exists_eq_succ_of_ne_zero (by omega)
      have hrest : maxMultiList - (i + 1) = room := by omega
      rw [if_neg hfull, ih (by omega), hrest, hroom, List.take_succ_cons]
      by_cases hfits : i + (rest.length + 1) ≤ maxMultiList
      · rw [if_pos hfits, if_pos (by omega)]
        simp only [storesFrom]
        congr 1
        omega
      · rw [if_neg hfits, if_neg (by omega)]
        rfl

theorem covered_storesFrom {mcList : List HwAddr} {i j : ℕ} (h : Covered (storesFrom i mcList) j) :
    eaAt i ≤ j := by
  induction mcList generalizing i with
  | nil => exact absurd h (not_covered_nil j)
  | cons ha rest ih =>
    rcases covered_cons.mp h with hfirst | hrest
    · exact hfirst.1
    · have hbehind := ih hrest
      rw [eaAt_eq] at hbehind ⊢
      omega

/-- Every address lies at its entry. -/
theorem storesFrom_holds {mcList : List HwAddr} {i k : ℕ} {ha : HwAddr}
    (h : mcList[k]? = some ha) : Holds (storesFrom i mcList) (eaAt (i + k)) ha.toList := by
  induction mcList generalizing i k with
  | nil => cases h
  | cons first rest ih =>
    cases k with
    | zero =>
      obtain rfl : first = ha := Option.some.inj h
      refine (Holds.single (eaAt i) first.toList).append_of_disjoint fun j hj ↦ .inr ?_
      have hbehind := covered_storesFrom hj
      have hnext : eaAt (i + 1) = eaAt i + etherAddrLen := rfl
      rw [Vector.length_toList]
      omega
    | succ k =>
      have hlater := @ih (i + 1) k h
      rw [Nat.add_right_comm] at hlater
      exact hlater.cons _

/-- Every store is inside the buffer. -/
theorem storesFrom_within {mcList : List HwAddr} {i : ℕ} (h : i + mcList.length ≤ maxMultiList) :
    ∀ store ∈ storesFrom i mcList, store.span.Within buflen := by
  induction mcList generalizing i with
  | nil => exact List.forall_mem_nil _
  | cons ha rest ih =>
    rw [List.length_cons] at h
    refine List.forall_mem_cons.mpr ⟨?_, ih (by omega)⟩
    change eaAt i + ha.toList.length ≤ buflen
    rw [eaAt_eq, buflen_eq, Vector.length_toList]
    unfold maxMultiList at h
    unfold etherAddrLen
    omega

theorem count_fill (stores : List Store) {n : ℕ} (hn : n ≤ maxMultiList) (maclist : ℕ → UInt8) :
    count (fill (stores ++ [⟨0, le32 n⟩]) maclist) = n := by
  have hheld : Holds (stores ++ [⟨0, le32 n⟩]) 0 (le32 n ++ []) := by
    rw [List.append_nil]
    exact (Holds.single 0 (le32 n)).prepend stores
  unfold maxMultiList at hn
  rw [count, hheld.load32]
  exact Nat.mod_eq_of_lt (by omega)

/-- Addresses that are stored and counted are the entries. -/
theorem entries_fill {mcList : List HwAddr} (hlength : mcList.length ≤ maxMultiList)
    (maclist : ℕ → UInt8) :
    entries (fill (storesFrom 0 mcList ++ [⟨0, le32 mcList.length⟩]) maclist) =
      mcList.map Vector.toList := by
  have hcount : ∀ j, Covered [⟨0, le32 mcList.length⟩] j → j < 4 := by
    intro j hj
    exact (covered_singleton.mp hj).2
  unfold entries
  rw [count_fill _ hlength]
  refine List.ext_getElem? fun k ↦ ?_
  rw [List.getElem?_map, List.getElem?_map]
  by_cases hk : k < mcList.length
  · have hheld := @storesFrom_holds mcList 0 k mcList[k] (List.getElem?_eq_getElem hk)
    rw [Nat.zero_add] at hheld
    have hkept : Holds (storesFrom 0 mcList ++ [⟨0, le32 mcList.length⟩]) (eaAt k)
        mcList[k].toList := by
      refine hheld.append_of_disjoint fun j hj ↦ .inl ?_
      have hlow := hcount j hj
      rw [eaAt_eq]
      omega
    have hslice := hkept.slice maclist
    rw [Vector.length_toList] at hslice
    rw [List.getElem?_range hk, List.getElem?_eq_getElem hk, Option.map_some, Option.map_some,
      hslice]
  · rw [List.getElem?_eq_none (by simpa using hk), List.getElem?_eq_none (by simpa using hk)]
    rfl

/-- The stores of the loop and that of the count. -/
theorem stores_within {mcList : List HwAddr} (hlength : mcList.length ≤ maxMultiList) (n : ℕ) :
    ∀ store ∈ storesFrom 0 mcList ++ [⟨0, le32 n⟩], store.span.Within buflen := by
  refine List.forall_mem_append.mpr ⟨storesFrom_within (by omega), ?_⟩
  rw [List.forall_mem_singleton]
  exact (by decide : (⟨0, 4⟩ : Range).Within buflen)

/-- However many addresses the device has, none is lost: they are the entries of the list, in
order, or all multicast frames are asked for. The stores stay inside the buffer. -/
theorem multicast_not_lost (maclist : ℕ → UInt8) (flags : UInt32) (mcList : List HwAddr) :
    ∃ passed, wlSetMulticastList true (some maclist) flags mcList = some passed ∧
      (∀ store ∈ passed.stores, store.span.Within buflen) ∧
      (∀ ha ∈ mcList, ha.toList ∈ entries passed.maclist ∨ passed.allmulti = true) ∧
      (mcList.length ≤ maxMultiList →
        entries passed.maclist = mcList.map Vector.toList ∧
          (passed.allmulti = true ↔ flags &&& iffAllmulti ≠ 0)) ∧
      (maxMultiList < mcList.length → passed.allmulti = true ∧ count passed.maclist = 0) := by
  have hloop := copyAddrs_eq mcList (Nat.zero_le maxMultiList) (flags &&& iffAllmulti ≠ 0)
  rw [Nat.zero_add, Nat.sub_zero] at hloop
  refine ⟨_, rfl, ?_⟩
  dsimp only
  rw [hloop]
  by_cases hfits : mcList.length ≤ maxMultiList
  · rw [if_pos hfits]
    have hentries := entries_fill hfits maclist
    refine ⟨stores_within hfits _, fun ha hmem ↦ .inl ?_, fun _ ↦ ⟨hentries, decide_eq_true_iff⟩,
      fun hmore ↦ absurd hfits (Nat.not_le.mpr hmore)⟩
    rw [hentries]
    exact List.mem_map_of_mem hmem
  · rw [if_neg hfits]
    have hroom : (mcList.take maxMultiList).length ≤ maxMultiList := List.length_take_le ..
    exact ⟨stores_within hroom _, fun _ _ ↦ .inr rfl, fun h ↦ absurd h hfits,
      fun _ ↦ ⟨rfl, count_fill _ (Nat.zero_le _) maclist⟩⟩

end BroadcomWl.Linux.Multicast
