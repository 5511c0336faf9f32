import BroadcomWl.Systems.Machine
import BroadcomWl.Wext.IwParams
import Mathlib.Data.List.TakeWhile

/-!
# Rates of the wireless extensions

`wl_iw_set_rate` reads the current rate set of the firmware and picks a rate: the last one for a
negative value, one of the set for an index, and the value in units of 500 kbit/s otherwise. A
fixed rate goes to the variables `bg_rate` and `a_rate`. An automatic one clears them and cuts the
rate set off before the first rate that is larger.

What the firmware reports as its current rate set is one of its answers, like every error. Of the
sets that it was given the one that it accepted last is kept. Where it reports that set, what one
request has cut off no later request can bring back; the reads are followed for any report.
-/

namespace BroadcomWl.Wext.IwRate

open BroadcomWl.Systems
open BroadcomWl.Wext.IwParams (IwParam)

/-- `wl_rateset_t`. -/
structure WlRateset where
  count : UInt32
  rates : Vector UInt8 16
deriving DecidableEq, Repr

/-- The rates that count. -/
def WlRateset.list (rateset : WlRateset) : List UInt8 :=
  rateset.rates.toList.take rateset.count.toNat

/-- A rate without the bit of a basic rate. -/
def rateOf (rate : UInt8) : ℤ := (rate &&& 0x7f).toNat

/-- The rate set that `WLC_SET_RATESET` accepted last, and the two variables of the firmware. -/
structure Device where
  rateset : WlRateset
  bgRate : Int32
  aRate : Int32
deriving DecidableEq, Repr

/-- The error of `WLC_GET_CURR_RATESET` and the rate set that it reports, the errors of the writes
of `bg_rate` and `a_rate`, and that of `WLC_SET_RATESET`. -/
structure Answers where
  getRateset : Int32
  rateset : WlRateset
  setBgRate : Int32
  setARate : Int32
  setRateset : Int32
deriving DecidableEq, Repr

/-- The rate that a request means; `none` stands for a read outside `rates`. -/
def pickRate (vwrq : IwParam) (rateset : WlRateset) : Option ℤ :=
  if vwrq.value < 0 then
    -- the subtraction is one of `uint32`
    (rateset.rates[(rateset.count - 1).toNat]?).map rateOf
  else if vwrq.value.toInt < rateset.count.toNat then
    (rateset.rates[vwrq.value.toInt.toNat]?).map rateOf
  else some (vwrq.value.toInt / 500000)

/-- The loop over the rates from `i` on, of which `left` are left: the first rate that is larger. -/
def firstLarger (rateset : WlRateset) (rate : ℤ) (i : ℕ) : ℕ → Option ℕ
  | 0 => some i
  | left + 1 =>
      match rateset.rates[i]? with
      | none => none
      | some other => if rate < rateOf other then some i else firstLarger rateset rate (i + 1) left

/-- `dev_wlc_intvar_set`, for one of the two variables. -/
def wroteRate (error : Int32) (rate old : Int32) : Int32 := if error = 0 then rate else old

/-- `wl_iw_set_rate`; `none` stands for a read outside `rates`. -/
def wlIwSetRate (vwrq : IwParam) (answers : Answers) (device : Device) : Option (Int32 × Device) :=
  if answers.getRateset ≠ 0 then some (answers.getRateset, device)
  else
    let rateset := answers.rateset
    (pickRate vwrq rateset).bind fun rate ↦
      if vwrq.fixed ≠ 0 then
        let device := { device with
          bgRate := wroteRate answers.setBgRate (Int32.ofInt rate) device.bgRate
          aRate := wroteRate answers.setARate (Int32.ofInt rate) device.aRate }
        if answers.setBgRate ≠ 0 ∧ answers.setARate ≠ 0 then
          some (answers.setBgRate ||| answers.setARate, device)
        else some (0, device)
      else
        let device := { device with
          bgRate := wroteRate answers.setBgRate 0 device.bgRate
          aRate := wroteRate answers.setARate 0 device.aRate }
        if answers.setBgRate ≠ 0 ∧ answers.setARate ≠ 0 then
          some (answers.setBgRate ||| answers.setARate, device)
        else
          (firstLarger rateset rate 0 rateset.count.toNat).map fun i ↦
            if answers.setRateset ≠ 0 then (answers.setRateset, device)
            else (0, { device with rateset := { rateset with count := UInt32.ofNat i } })

/-! ## The loop -/

/-- The rates before the first one that is larger. -/
def upTo (rate : ℤ) (rates : List UInt8) : List UInt8 :=
  rates.takeWhile fun other ↦ decide (rateOf other ≤ rate)

theorem firstLarger_eq {rateset : WlRateset} (rate : ℤ) {i left : ℕ} (h : i + left ≤ 16) :
    firstLarger rateset rate i left =
      some (i + (upTo rate ((rateset.rates.toList.drop i).take left)).length) := by
  induction left generalizing i with
  | zero => simp [firstLarger, upTo]
  | succ left ih =>
    have hlength : i < rateset.rates.toList.length := by simp; omega
    have hget : rateset.rates[i]? = some rateset.rates.toList[i] := by
      simp [Vector.getElem?_eq_getElem (show i < 16 by omega)]
    rw [firstLarger, hget, List.drop_eq_getElem_cons hlength, List.take_succ_cons]
    dsimp only
    by_cases hlarger : rate < rateOf rateset.rates.toList[i]
    · rw [if_pos hlarger]
      simp only [upTo, List.takeWhile_cons, decide_eq_false (not_le.mpr hlarger), if_false,
        List.length_nil, Nat.add_zero, Bool.false_eq_true]
    · rw [if_neg hlarger, ih (by omega)]
      simp only [upTo, List.takeWhile_cons, decide_eq_true (not_lt.mp hlarger), if_true,
        List.length_cons]
      congr 1
      omega

/-- A rate set that fits its array. -/
def WlRateset.Fits (rateset : WlRateset) : Prop := rateset.count.toNat ≤ 16

/-- The rate set that an automatic rate leaves. -/
def WlRateset.cut (rateset : WlRateset) (rate : ℤ) : WlRateset :=
  { rateset with count := UInt32.ofNat (upTo rate rateset.list).length }

theorem upTo_initial (rate : ℤ) (rates : List UInt8) : upTo rate rates <+: rates :=
  List.takeWhile_prefix _

theorem length_upTo_le (rate : ℤ) (rateset : WlRateset) :
    (upTo rate rateset.list).length ≤ rateset.count.toNat :=
  (upTo_initial rate rateset.list).length_le.trans (List.length_take_le _ _)

theorem toNat_cut_count (rate : ℤ) (rateset : WlRateset) :
    (rateset.cut rate).count.toNat = (upTo rate rateset.list).length := by
  refine UInt32.toNat_ofNat_of_lt' ?_
  exact lt_of_le_of_lt (length_upTo_le rate rateset) rateset.count.toNat_lt

theorem WlRateset.Fits.cut {rateset : WlRateset} (h : rateset.Fits) (rate : ℤ) :
    (rateset.cut rate).Fits := by
  unfold WlRateset.Fits
  rw [toNat_cut_count]
  exact (length_upTo_le rate rateset).trans h

/-- What is left of the rate set are the rates before the first one that is larger. -/
theorem list_cut (rate : ℤ) (rateset : WlRateset) :
    (rateset.cut rate).list = upTo rate rateset.list := by
  have hprefix : upTo rate rateset.list <+: rateset.rates.toList :=
    (upTo_initial rate rateset.list).trans (List.take_prefix _ _)
  rw [WlRateset.list, toNat_cut_count]
  exact (List.prefix_iff_eq_take.mp hprefix).symm

theorem firstLarger_rateset {rateset : WlRateset} (h : rateset.Fits) (rate : ℤ) :
    firstLarger rateset rate 0 rateset.count.toNat =
      some (upTo rate rateset.list).length := by
  rw [firstLarger_eq rate (by rw [Nat.zero_add]; exact h), List.drop_zero, Nat.zero_add]
  rfl

/-! ## Requests -/

structure Request where
  vwrq : IwParam
  answers : Answers
deriving DecidableEq, Repr

/-- The rates that were asked for by the automatic requests that the firmware took. -/
structure State where
  device : Device
  asked : List ℤ
deriving DecidableEq, Repr

/-- A request for an automatic rate whose rate set is accepted. -/
def Request.cuts (request : Request) : Bool :=
  request.answers.getRateset == 0 && request.vwrq.fixed == 0 &&
    (request.answers.setBgRate == 0 || request.answers.setARate == 0) &&
    request.answers.setRateset == 0

/-- A request that reads outside `rates` ends the run. -/
def rates : Machine State Request where
  initial state := state.asked = []
  step state request :=
    (wlIwSetRate request.vwrq request.answers state.device).map fun result ↦
      { device := result.2
        asked :=
          match request.cuts, pickRate request.vwrq request.answers.rateset with
          | true, some rate => rate :: state.asked
          | _, _ => state.asked }

/-- The firmware reports the rate set that it accepted last. -/
def Reports (state : State) (request : Request) : Prop :=
  request.answers.getRateset = 0 → request.answers.rateset = state.device.rateset

/-- What a request leaves of the rate set. -/
theorem rateset_of_set {vwrq : IwParam} {answers : Answers} {device : Device}
    {result : Int32 × Device} (hfits : answers.getRateset = 0 → answers.rateset.Fits)
    (h : wlIwSetRate vwrq answers device = some result) :
    if Request.cuts ⟨vwrq, answers⟩ then
      ∃ rate, pickRate vwrq answers.rateset = some rate ∧
        result.2.rateset = answers.rateset.cut rate
    else result.2.rateset = device.rateset := by
  unfold wlIwSetRate at h
  by_cases hget : answers.getRateset = 0
  · rw [if_neg (not_not.mpr hget)] at h
    obtain ⟨rate, hrate, h⟩ := Option.bind_eq_some_iff.mp h
    by_cases hfixed : vwrq.fixed = 0
    · rw [if_neg (not_not.mpr hfixed)] at h
      dsimp only at h
      by_cases hboth : answers.setBgRate ≠ 0 ∧ answers.setARate ≠ 0
      · rw [if_pos hboth] at h
        cases h
        rw [if_neg (by simp [Request.cuts, hboth])]
      · rw [if_neg hboth, firstLarger_rateset (hfits hget), Option.map_some] at h
        have hone : (answers.setBgRate == 0 || answers.setARate == 0) = true := by
          simpa [imp_iff_not_or] using hboth
        by_cases hset : answers.setRateset = 0
        · rw [if_neg (not_not.mpr hset)] at h
          cases h
          rw [if_pos (by simp [Request.cuts, hget, hfixed, hone, hset])]
          exact ⟨rate, hrate, rfl⟩
        · rw [if_pos hset] at h
          cases h
          rw [if_neg (by simp [Request.cuts, hset])]
    · rw [if_pos hfixed] at h
      rw [if_neg (by simp [Request.cuts, hfixed])]
      dsimp only at h
      split at h
      · cases h
        rfl
      · cases h
        rfl
  · rw [if_pos hget] at h
    cases h
    rw [if_neg (by simp [Request.cuts, hget])]

/-! ## Runs -/

/-- The rate set fits, and it is what the rates that were asked for leave of the first one. -/
structure Narrowed (first : WlRateset) (state : State) : Prop where
  fits : state.device.rateset.Fits
  list : state.device.rateset.list =
    first.list.takeWhile fun rate ↦ decide (∀ limit ∈ state.asked, rateOf rate ≤ limit)

theorem Narrowed.step {first : WlRateset} {state next : State} {request : Request}
    (h : Narrowed first state) (hreports : Reports state request)
    (hstep : rates.step state request = some next) : Narrowed first next := by
  obtain ⟨result, hresult, rfl⟩ := Option.map_eq_some_iff.mp hstep
  have hfits : request.answers.getRateset = 0 → request.answers.rateset.Fits := by
    intro hget
    rw [hreports hget]
    exact h.fits
  have hrateset := rateset_of_set hfits hresult
  cases hcuts : request.cuts with
  | false =>
    rw [if_neg (by rw [hcuts]; simp)] at hrateset
    exact ⟨by rw [hrateset]; exact h.fits, by rw [hrateset]; exact h.list⟩
  | true =>
    rw [if_pos hcuts] at hrateset
    obtain ⟨rate, hrate, hcut⟩ := hrateset
    have hget : request.answers.getRateset = 0 := by
      by_contra hfailed
      simp [Request.cuts, hfailed] at hcuts
    rw [hreports hget] at hcut
    rw [hrate]
    refine ⟨by rw [hcut]; exact h.fits.cut rate, ?_⟩
    rw [hcut, list_cut, h.list, upTo, List.takeWhile_takeWhile]
    congr 1
    funext other
    simp

theorem narrowed_start {start : State} (h : rates.initial start)
    (hfits : start.device.rateset.Fits) : Narrowed start.device.rateset start := by
  refine ⟨hfits, ?_⟩
  rw [h, eq_comm, List.takeWhile_eq_self_iff]
  intro rate _
  exact decide_eq_true fun limit hlimit ↦ absurd hlimit List.not_mem_nil

/-- Where what holds of an element holds of those before it, the first elements are all. -/
theorem takeWhile_eq_filter_of_pairwise {α : Type*} {list : List α} {p : α → Bool}
    (h : list.Pairwise fun first second ↦ p second = true → p first = true) :
    list.takeWhile p = list.filter p := by
  induction list with
  | nil => rfl
  | cons first list ih =>
    obtain ⟨hfirst, hlist⟩ := List.pairwise_cons.mp h
    by_cases hp : p first = true
    · rw [List.takeWhile_cons_of_pos hp, List.filter_cons_of_pos hp, ih hlist]
    · rw [List.takeWhile_cons_of_neg hp, List.filter_cons_of_neg hp, eq_comm,
        List.filter_eq_nil_iff]
      exact fun second hsecond hholds ↦ hp (hfirst second hsecond hholds)

/-- In every run in which the firmware reports the rate set that it accepted last, at first one that
fits its array, the rate set is a prefix of the first one: the rates before the first that is larger
than some automatic rate that was taken, and in ascending order exactly the rates up to all of them.
No request widens it again. -/
theorem rateset_narrows {start final : State} {requests : List Request}
    (hstart : rates.initial start) (hfits : start.device.rateset.Fits)
    (hreports : rates.Along Reports start requests)
    (hrun : rates.run start requests = some final) :
    final.device.rateset.list <+: start.device.rateset.list ∧
      (final.device.rateset.list = start.device.rateset.list.takeWhile
        fun rate ↦ decide (∀ limit ∈ final.asked, rateOf rate ≤ limit)) ∧
      (start.device.rateset.list.Pairwise (fun first second ↦ rateOf first ≤ rateOf second) →
        final.device.rateset.list = start.device.rateset.list.filter
          fun rate ↦ decide (∀ limit ∈ final.asked, rateOf rate ≤ limit)) := by
  have hfinal : Narrowed start.device.rateset final :=
    hreports.preserves (fun _ _ _ ↦ Narrowed.step) (narrowed_start hstart hfits) hrun
  refine ⟨?_, hfinal.list, fun hsorted ↦ ?_⟩
  · rw [hfinal.list]
    exact List.takeWhile_prefix _
  · rw [hfinal.list]
    refine takeWhile_eq_filter_of_pairwise (hsorted.imp fun hle hlimits ↦ ?_)
    exact decide_eq_true fun limit hlimit ↦ hle.trans (of_decide_eq_true hlimits limit hlimit)

/-- The first rates of 802.11b. -/
def bRateset (count : UInt32) : WlRateset :=
  ⟨count, #v[0x82, 0x84, 0x8b, 0x96, 0, 0, 0, 0, 0, 0, 0, 0, 0, 0, 0, 0]⟩

def bRates (count : UInt32) (asked : List ℤ) : State := ⟨⟨bRateset count, 0, 0⟩, asked⟩

/-- An automatic rate of so many bit/s, or the last one, where `count` rates are reported. -/
def autoRate (count : UInt32) (value : Int32) : Request :=
  ⟨⟨value, 0, 0, 0⟩, ⟨0, bRateset count, 0, 0, 0⟩⟩

/-- 5.5 Mbit/s, and then 11 Mbit/s, which is not there any more. -/
theorem rateset_narrows_bRates :
    (bRates 3 [22, 11]).device.rateset.list <+: (bRates 4 []).device.rateset.list := by
  have hfirst : rates.step (bRates 4 []) (autoRate 4 5500000) = some (bRates 3 [11]) := by decide
  have hsecond : rates.step (bRates 3 [11]) (autoRate 3 11000000) = some (bRates 3 [22, 11]) := by
    decide
  have hfits : (bRates 4 []).device.rateset.Fits := by
    unfold WlRateset.Fits
    decide
  have hreports : rates.Along Reports (bRates 4 []) [autoRate 4 5500000, autoRate 3 11000000] :=
    .cons (fun _ ↦ rfl) hfirst (.cons (fun _ ↦ rfl) hsecond trivial)
  have hrun : rates.run (bRates 4 []) [autoRate 4 5500000, autoRate 3 11000000] =
      some (bRates 3 [22, 11]) :=
    Machine.run_cons_eq_some.mpr ⟨_, hfirst, Machine.run_cons_eq_some.mpr ⟨_, hsecond, rfl⟩⟩
  have hstart : rates.initial (bRates 4 []) := rfl
  exact (rateset_narrows hstart hfits hreports hrun).1

/-! ## Reads -/

/-- The rate that the request means is one of the array, or is not looked up. -/
def PicksInside (vwrq : IwParam) (rateset : WlRateset) : Prop :=
  (vwrq.value < 0 → 0 < rateset.count.toNat ∧ rateset.count.toNat ≤ 16) ∧
    (0 ≤ vwrq.value → vwrq.value.toInt < rateset.count.toNat → vwrq.value.toInt < 16)

/-- The loop ends at the count or at a rate that is larger, before the array does. -/
def StopsInside (rateset : WlRateset) (rate : ℤ) : Prop :=
  rateset.count.toNat ≤ 16 ∨ ∃ other ∈ rateset.rates.toList, rate < rateOf other

/-- When the rate set is reported, the rate is looked up inside, and when it is an automatic one
that the variables take, the loop stops inside. -/
def Request.ReadsInside (request : Request) : Prop :=
  request.answers.getRateset = 0 →
    PicksInside request.vwrq request.answers.rateset ∧
      ∀ rate, pickRate request.vwrq request.answers.rateset = some rate →
        request.vwrq.fixed = 0 →
        (request.answers.setBgRate = 0 ∨ request.answers.setARate = 0) →
        StopsInside request.answers.rateset rate

theorem toNat_sub_one_lt (count : UInt32) :
    (count - 1).toNat < 16 ↔ 0 < count.toNat ∧ count.toNat ≤ 16 := by
  have hone : (1 : UInt32).toNat = 1 := rfl
  have hlt := count.toNat_lt
  rw [UInt32.toNat_sub, hone]
  omega

theorem isSome_pickRate (vwrq : IwParam) (rateset : WlRateset) :
    (pickRate vwrq rateset).isSome = true ↔ PicksInside vwrq rateset := by
  unfold pickRate PicksInside
  by_cases hnegative : vwrq.value < 0
  · have hneg : ¬(0 ≤ vwrq.value) := Int32.not_le.mpr hnegative
    rw [if_pos hnegative, Option.isSome_map, isSome_getElem?, toNat_sub_one_lt]
    exact ⟨fun h ↦ ⟨fun _ ↦ h, fun hpos ↦ absurd hpos hneg⟩, fun h ↦ h.1 hnegative⟩
  · have hpos : 0 ≤ vwrq.value := Int32.not_lt.mp hnegative
    rw [if_neg hnegative]
    split
    next hless =>
      rw [Option.isSome_map, isSome_getElem?]
      have hindex : vwrq.value.toInt.toNat < 16 ↔ vwrq.value.toInt < 16 := by omega
      rw [hindex]
      exact ⟨fun h ↦ ⟨fun hneg ↦ absurd hneg hnegative, fun _ _ ↦ h⟩, fun h ↦ h.2 hpos hless⟩
    next hmore =>
      exact iff_of_true rfl
        ⟨fun hneg ↦ absurd hneg hnegative, fun _ hless ↦ absurd hless hmore⟩

/-- The loop leaves the array exactly when the count does and no rate in it is larger. -/
theorem isSome_firstLarger (rateset : WlRateset) (rate : ℤ) {i left : ℕ} (h : i ≤ 16) :
    (firstLarger rateset rate i left).isSome = true ↔
      i + left ≤ 16 ∨ ∃ other ∈ rateset.rates.toList.drop i, rate < rateOf other := by
  induction left generalizing i with
  | zero => exact iff_of_true rfl (.inl h)
  | succ left ih =>
    rw [firstLarger]
    by_cases hi : i < 16
    · have hlength : i < rateset.rates.toList.length := by simp; omega
      have hget : rateset.rates[i]? = some rateset.rates.toList[i] := by
        simp [Vector.getElem?_eq_getElem hi]
      rw [hget, List.drop_eq_getElem_cons hlength]
      dsimp only
      rw [List.exists_mem_cons_iff]
      by_cases hlarger : rate < rateOf rateset.rates.toList[i]
      · rw [if_pos hlarger]
        exact iff_of_true rfl (.inr (.inl hlarger))
      · rw [if_neg hlarger, ih hi, or_iff_right hlarger, Nat.succ_add_eq_add_succ]
    · have hget : rateset.rates[i]? = none := Vector.getElem?_eq_none (not_lt.mp hi)
      have hdrop : rateset.rates.toList.drop i = [] :=
        List.drop_eq_nil_of_le (by rw [Vector.length_toList]; exact not_lt.mp hi)
      rw [hget, hdrop]
      refine iff_of_false nofun (not_or.mpr ⟨by omega, ?_⟩)
      rintro ⟨other, hmem, _⟩
      exact absurd hmem List.not_mem_nil

theorem isSome_set (request : Request) (device : Device) :
    (wlIwSetRate request.vwrq request.answers device).isSome = true ↔ request.ReadsInside := by
  obtain ⟨vwrq, answers⟩ := request
  unfold wlIwSetRate Request.ReadsInside
  by_cases hget : answers.getRateset = 0
  · rw [if_neg (not_not.mpr hget), forall_prop_of_true hget, ← isSome_pickRate]
    dsimp only
    cases pickRate vwrq answers.rateset with
    | none => exact iff_of_false Bool.false_ne_true fun h ↦ Bool.false_ne_true h.1
    | some rate =>
      simp only [Option.bind_some, Option.isSome_some, true_and, Option.some.injEq,
        forall_eq']
      by_cases hfixed : vwrq.fixed = 0
      · rw [if_neg (not_not.mpr hfixed), forall_prop_of_true hfixed]
        by_cases hboth : answers.setBgRate ≠ 0 ∧ answers.setARate ≠ 0
        · rw [if_pos hboth]
          exact iff_of_true rfl fun hone ↦ absurd hone (not_or.mpr hboth)
        · rw [if_neg hboth, Option.isSome_map, isSome_firstLarger _ _ (Nat.zero_le _),
            Nat.zero_add, List.drop_zero]
          have hone : answers.setBgRate = 0 ∨ answers.setARate = 0 := by
            rwa [not_and_or, not_not, not_not] at hboth
          exact ⟨fun hstops _ ↦ hstops, fun h ↦ h hone⟩
      · rw [if_pos hfixed]
        refine iff_of_true ?_ fun hzero ↦ absurd hzero hfixed
        split <;> rfl
  · rw [if_pos hget]
    exact iff_of_true rfl fun hzero ↦ absurd hzero hget

/-- A run of requests stays inside the rates exactly when every request does, whatever the firmware
reports: a negative value needs a rate set of 1 to 16 rates, an index that counts has to be below
16, and an automatic rate needs at most 16 rates or a larger one among the 16. -/
theorem reads_inside_iff (start : State) (requests : List Request) :
    (rates.run start requests).isSome = true ↔ ∀ request ∈ requests, request.ReadsInside := by
  induction requests generalizing start with
  | nil => simp
  | cons request requests ih =>
    have hmap : (rates.step start request).isSome =
        (wlIwSetRate request.vwrq request.answers start.device).isSome := Option.isSome_map
    have hstep : (rates.step start request).isSome = true ↔ request.ReadsInside := by
      rw [hmap, isSome_set]
    rw [Machine.run_cons, List.forall_mem_cons, ← hstep]
    cases rates.step start request with
    | none => simp
    | some next => simpa using ih next

end BroadcomWl.Wext.IwRate
