import BroadcomWl.Cfg80211.WiphyParams

/-!
# Thresholds and retry limits of the wireless extensions

`wl_iw_set_rts`, `wl_iw_set_frag` and `wl_iw_set_retry` write parameters of the firmware, and
`wl_iw_get_rts`, `wl_iw_get_frag` and `wl_iw_get_retry` read them. A threshold that is off is
written as the longest length. The long retry limit has two names in the flags of a request, and
only one of them is known to the function that reads it.

The module states which requests are read back as they were made.
-/

namespace BroadcomWl.Wext.IwParams

open BroadcomWl.Systems
open BroadcomWl.Cfg80211.WiphyParams (Param)

def einval : ℤ := 22

def dot11DefaultRtsLen : Int32 := 2347
def dot11DefaultFragLen : Int32 := 2346

def iwRetryType : UInt16 := 0xF000
def iwRetryLimit : UInt16 := 0x1000
def iwRetryLifetime : UInt16 := 0x2000
def iwRetryMin : UInt16 := 0x0001
def iwRetryMax : UInt16 := 0x0002
def iwRetryShort : UInt16 := 0x0010
def iwRetryLong : UInt16 := 0x0020

/-- `struct iw_param`. -/
structure IwParam where
  value : Int32
  fixed : UInt8
  disabled : UInt8
  flags : UInt16
deriving DecidableEq, Repr

/-- The parameters that the firmware holds. -/
abbrev Params := Param → UInt32

/-! ## The handlers -/

/-- `dev_wlc_intvar_set` and `dev_wlc_ioctl` for a parameter that the firmware stores when it
answers zero. -/
def devWlcSet (p : Param) (value : UInt32) (answer : ℤ) (params : Params) : ℤ × Params :=
  (answer, if answer = 0 then Function.update params p value else params)

/-- What `wl_iw_set_rts` and `wl_iw_set_frag` have in common. -/
def setThreshold (p : Param) (longest : Int32) (vwrq : IwParam) (answer : ℤ) (params : Params) :
    ℤ × Params :=
  if vwrq.disabled ≠ 0 then devWlcSet p longest.toUInt32 answer params
  else if vwrq.value < 0 ∨ longest < vwrq.value then (-einval, params)
  else devWlcSet p vwrq.value.toUInt32 answer params

def wlIwSetRts : IwParam → ℤ → Params → ℤ × Params :=
  setThreshold .rtsThreshold dot11DefaultRtsLen

def wlIwSetFrag : IwParam → ℤ → Params → ℤ × Params :=
  setThreshold .fragThreshold dot11DefaultFragLen

/-- What `wl_iw_get_rts` and `wl_iw_get_frag` have in common. -/
def getThreshold (p : Param) (longest : Int32) (answer : ℤ) (vwrq : IwParam) (params : Params) :
    ℤ × IwParam :=
  if answer ≠ 0 then (answer, vwrq)
  else
    let threshold := (params p).toInt32
    (0, { vwrq with
      value := threshold
      disabled := if longest ≤ threshold then 1 else 0
      fixed := 1 })

def wlIwGetRts : ℤ → IwParam → Params → ℤ × IwParam :=
  getThreshold .rtsThreshold dot11DefaultRtsLen

def wlIwGetFrag : ℤ → IwParam → Params → ℤ × IwParam :=
  getThreshold .fragThreshold dot11DefaultFragLen

/-- The flags name the long limit. -/
def namesLong (flags : UInt16) : Bool := flags &&& iwRetryLong != 0 || flags &&& iwRetryMax != 0

/-- The flags name the short limit. -/
def namesShort (flags : UInt16) : Bool := flags &&& iwRetryShort != 0 || flags &&& iwRetryMin != 0

/-- `wl_iw_set_retry`: without a name both limits are set, the long one first. -/
def wlIwSetRetry (vwrq : IwParam) (answer : Param → ℤ) (params : Params) : ℤ × Params :=
  if vwrq.disabled ≠ 0 ∨ vwrq.flags &&& iwRetryLifetime ≠ 0 then (-einval, params)
  else if vwrq.flags &&& iwRetryLimit = 0 then (0, params)
  else
    let (error, params) :=
      if namesLong vwrq.flags || !namesShort vwrq.flags then
        devWlcSet .retryLong vwrq.value.toUInt32 (answer .retryLong) params
      else (0, params)
    if error ≠ 0 then (error, params)
    else if namesShort vwrq.flags || !namesLong vwrq.flags then
      devWlcSet .retryShort vwrq.value.toUInt32 (answer .retryShort) params
    else (0, params)

/-- `wl_iw_get_retry`. -/
def wlIwGetRetry (answer : Param → ℤ) (vwrq : IwParam) (params : Params) : ℤ × IwParam :=
  let vwrq := { vwrq with disabled := 0 }
  if vwrq.flags &&& iwRetryType = iwRetryLifetime then (-einval, vwrq)
  else if answer .retryLong ≠ 0 then (answer .retryLong, vwrq)
  else if answer .retryShort ≠ 0 then (answer .retryShort, vwrq)
  else
    let lrl := (params .retryLong).toInt32
    let srl := (params .retryShort).toInt32
    if vwrq.flags &&& iwRetryMax ≠ 0 then
      (0, { vwrq with flags := iwRetryLimit ||| iwRetryMax, value := lrl })
    else
      let flags := if srl ≠ lrl then iwRetryLimit ||| iwRetryMin else iwRetryLimit
      (0, { vwrq with flags := flags, value := srl })

/-- A request that sets something, with the answers of the firmware. -/
inductive Request where
  | setRts (vwrq : IwParam) (answer : ℤ)
  | setFrag (vwrq : IwParam) (answer : ℤ)
  | setRetry (vwrq : IwParam) (answer : Param → ℤ)

def perform (params : Params) : Request → ℤ × Params
  | .setRts vwrq answer => wlIwSetRts vwrq answer params
  | .setFrag vwrq answer => wlIwSetFrag vwrq answer params
  | .setRetry vwrq answer => wlIwSetRetry vwrq answer params

def driver : Machine Params Request where
  initial _ := True
  step params request := some (perform params request).2

/-! ## Reading back -/

/-- A threshold that is read is off when an off one was asked for, and has the value that was asked
for when not. -/
def SameThreshold (vwrq read : IwParam) : Prop :=
  (read.disabled ≠ 0 ↔ vwrq.disabled ≠ 0) ∧ (vwrq.disabled = 0 → read.value = vwrq.value)

/-- When the request returns zero, a program that reads with the same flags afterwards finds what
the request has asked for. -/
def ReadsBack (params : Params) (request : Request) : Prop :=
  (perform params request).1 = 0 →
    ∀ reply : IwParam,
      match request with
      | .setRts vwrq _ => SameThreshold vwrq (wlIwGetRts 0 reply (perform params request).2).2
      | .setFrag vwrq _ => SameThreshold vwrq (wlIwGetFrag 0 reply (perform params request).2).2
      | .setRetry vwrq _ =>
          let read := wlIwGetRetry (fun _ ↦ 0) { reply with flags := vwrq.flags }
            (perform params request).2
          read.1 = 0 ∧ read.2.value = vwrq.value

/-- Flags that are for another kind of value than a limit. -/
def namesNoLimit (flags : UInt16) : Bool := flags &&& iwRetryLimit == 0

/-- Flags that name the long limit, and only by the name that is not known to who reads it. -/
def namesOnlyLong (flags : UInt16) : Bool :=
  flags &&& iwRetryLong != 0 && flags &&& iwRetryMax == 0 && !namesShort flags

/-- A threshold that is on is not asked for at the longest length. A value that is not named as a
limit is that of the limit which is read, and a long limit by its other name is that of the short
one. -/
def Plain (params : Params) (request : Request) : Prop :=
  (perform params request).1 = 0 →
    match request with
    | .setRts vwrq _ => vwrq.disabled = 0 → vwrq.value ≠ dot11DefaultRtsLen
    | .setFrag vwrq _ => vwrq.disabled = 0 → vwrq.value ≠ dot11DefaultFragLen
    | .setRetry vwrq _ =>
        (namesNoLimit vwrq.flags = true → vwrq.value.toUInt32 =
          params (if vwrq.flags &&& iwRetryMax ≠ 0 then .retryLong else .retryShort)) ∧
        (namesNoLimit vwrq.flags = false → namesOnlyLong vwrq.flags = true →
          vwrq.value.toUInt32 = params .retryShort)

theorem toInt32_eq_iff (value : Int32) (word : UInt32) :
    word.toInt32 = value ↔ value.toUInt32 = word := by
  constructor
  · rintro rfl
    rfl
  · rintro rfl
    rfl

/-- A threshold is read back unless it is on at the longest length. -/
theorem sameThreshold_iff {p : Param} {longest : Int32} {vwrq reply : IwParam} {answer : ℤ}
    {params : Params} (hzero : (setThreshold p longest vwrq answer params).1 = 0) :
    SameThreshold vwrq
        (getThreshold p longest 0 reply (setThreshold p longest vwrq answer params).2).2 ↔
      (vwrq.disabled = 0 → vwrq.value ≠ longest) := by
  unfold setThreshold at hzero ⊢
  by_cases hdisabled : vwrq.disabled = 0
  · rw [if_neg (not_not.mpr hdisabled)] at hzero ⊢
    by_cases hrange : vwrq.value < 0 ∨ longest < vwrq.value
    · rw [if_pos hrange] at hzero
      cases hzero
    · rw [if_neg hrange] at hzero ⊢
      have hanswer : answer = 0 := hzero
      have hle : vwrq.value ≤ longest := Int32.not_lt.mp (not_or.mp hrange).2
      have heq : longest ≤ vwrq.value ↔ vwrq.value = longest :=
        ⟨fun hge ↦ Int32.le_antisymm hle hge, fun hsame ↦ hsame ▸ Int32.le_refl _⟩
      simp [SameThreshold, getThreshold, devWlcSet, hanswer, hdisabled, heq]
  · rw [if_pos hdisabled] at hzero ⊢
    have hanswer : answer = 0 := hzero
    simp [SameThreshold, getThreshold, devWlcSet, hanswer, hdisabled]

/-- The limits after a request that has returned zero. -/
theorem limits_wlIwSetRetry {vwrq : IwParam} {answer : Param → ℤ} {params : Params}
    (hzero : (wlIwSetRetry vwrq answer params).1 = 0) :
    vwrq.flags &&& iwRetryLifetime = 0 ∧
      (wlIwSetRetry vwrq answer params).2 .retryLong =
        (if !namesNoLimit vwrq.flags && (namesLong vwrq.flags || !namesShort vwrq.flags) then
          vwrq.value.toUInt32 else params .retryLong) ∧
      (wlIwSetRetry vwrq answer params).2 .retryShort =
        (if !namesNoLimit vwrq.flags && (namesShort vwrq.flags || !namesLong vwrq.flags) then
          vwrq.value.toUInt32 else params .retryShort) := by
  unfold wlIwSetRetry at hzero ⊢
  by_cases hrefused : vwrq.disabled ≠ 0 ∨ vwrq.flags &&& iwRetryLifetime ≠ 0
  · rw [if_pos hrefused] at hzero
    cases hzero
  rw [if_neg hrefused] at hzero ⊢
  refine ⟨not_not.mp (not_or.mp hrefused).2, ?_⟩
  by_cases hlimit : vwrq.flags &&& iwRetryLimit = 0
  · rw [if_pos hlimit]
    simp [namesNoLimit, hlimit]
  rw [if_neg hlimit] at hzero ⊢
  -- which limits are written, and which of the writes succeed
  generalize namesLong vwrq.flags = long at hzero ⊢
  generalize namesShort vwrq.flags = short at hzero ⊢
  have hnamed : namesNoLimit vwrq.flags = false := by simp [namesNoLimit, hlimit]
  rw [hnamed]
  by_cases hl : answer .retryLong = 0 <;> by_cases hs : answer .retryShort = 0 <;>
    cases long <;> cases short <;> simp [devWlcSet, hl, hs] at hzero ⊢

theorem readsBack_setRetry_iff (vwrq : IwParam) (answer : Param → ℤ) (params : Params) :
    ReadsBack params (.setRetry vwrq answer) ↔ Plain params (.setRetry vwrq answer) := by
  refine forall_congr' fun hzero ↦ ?_
  obtain ⟨hlifetime, hlong, hshort⟩ := limits_wlIwSetRetry hzero
  have htype : vwrq.flags &&& iwRetryType ≠ iwRetryLifetime := by
    intro htype
    have hinside : iwRetryLifetime = iwRetryType &&& iwRetryLifetime := rfl
    rw [hinside, ← UInt16.and_assoc, htype] at hlifetime
    exact absurd hlifetime (by decide)
  have hread : (∀ reply : IwParam,
      (wlIwGetRetry (fun _ ↦ 0) { reply with flags := vwrq.flags }
          (wlIwSetRetry vwrq answer params).2).1 = 0 ∧
        (wlIwGetRetry (fun _ ↦ 0) { reply with flags := vwrq.flags }
          (wlIwSetRetry vwrq answer params).2).2.value = vwrq.value) ↔
      vwrq.value.toUInt32 = (wlIwSetRetry vwrq answer params).2
        (if vwrq.flags &&& iwRetryMax ≠ 0 then .retryLong else .retryShort) := by
    unfold wlIwGetRetry
    by_cases hmax : vwrq.flags &&& iwRetryMax = 0
    · simp only [htype, hmax, if_false, ne_eq, not_true, true_and, toInt32_eq_iff]
      exact ⟨fun h ↦ h ⟨0, 0, 0, 0⟩, fun h _ ↦ h⟩
    · simp only [htype, hmax, if_false, ne_eq, not_true, not_false_eq_true, if_true, true_and,
        toInt32_eq_iff]
      exact ⟨fun h ↦ h ⟨0, 0, 0, 0⟩, fun h _ ↦ h⟩
  refine hread.trans ?_
  by_cases hmax : vwrq.flags &&& iwRetryMax = 0
  · simp only [hmax, ne_eq, not_true, if_false, hshort]
    cases hnone : namesNoLimit vwrq.flags with
    | true => simp
    | false =>
      by_cases hname : vwrq.flags &&& iwRetryLong = 0
      · simp [namesOnlyLong, namesLong, hname, hmax]
      · cases hother : namesShort vwrq.flags <;>
          simp [namesOnlyLong, namesLong, hname, hmax, hother]
  · simp only [hmax, ne_eq, not_false_eq_true, if_true, hlong]
    cases hnone : namesNoLimit vwrq.flags with
    | true => simp
    | false => simp [namesOnlyLong, namesLong, hmax]

theorem readsBack_iff (params : Params) (request : Request) :
    ReadsBack params request ↔ Plain params request := by
  cases request with
  | setRts vwrq answer =>
    refine forall_congr' fun hzero ↦ ?_
    exact ⟨fun h ↦ (sameThreshold_iff hzero).mp (h ⟨0, 0, 0, 0⟩),
      fun h _ ↦ (sameThreshold_iff hzero).mpr h⟩
  | setFrag vwrq answer =>
    refine forall_congr' fun hzero ↦ ?_
    exact ⟨fun h ↦ (sameThreshold_iff hzero).mp (h ⟨0, 0, 0, 0⟩),
      fun h _ ↦ (sameThreshold_iff hzero).mpr h⟩
  | setRetry vwrq answer => exact readsBack_setRetry_iff vwrq answer params

/-- In every run of requests, whatever the firmware holds and answers, each request that returns
zero is read back as it was made if and only if each is plain: no threshold is set on at the longest
length, no value without the name of a limit differs from the limit that is read, and no long limit
under the name that reading does not know differs from the short one. -/
theorem requests_read_back_iff (params : Params) (requests : List Request) :
    driver.Along ReadsBack params requests ↔ driver.Along Plain params requests :=
  @Machine.along_congr _ _ driver (fun _ ↦ True) _ _
    (fun params request _ ↦ readsBack_iff params request) (fun _ _ _ _ _ _ ↦ trivial) _ _ trivial

/-- A long limit of seven, read under its own name when the short one is four. -/
example : ¬driver.Along ReadsBack (fun _ ↦ 4)
    [.setRetry ⟨7, 0, 0, iwRetryLimit ||| iwRetryLong⟩ fun _ ↦ 0] := by
  rintro ⟨h, -⟩
  exact absurd (h rfl ⟨0, 0, 0, 0⟩).2 (by decide)

end BroadcomWl.Wext.IwParams
