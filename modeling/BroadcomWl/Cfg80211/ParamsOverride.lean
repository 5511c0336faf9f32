import BroadcomWl.Cfg80211.WiphyParams

/-!
# Parameters that programs override

`wl_cfg80211_set_wiphy_params` trusts the values that it caches in `wl->conf` and skips a write when
the cached value is the requested one. A program can write the same parameters past it: `wl_ioctl`
hands the commands of a private request to the firmware and leaves the cache alone. The module
states exactly which runs of calls and private requests keep the cache coherent and give every call
what it asked for.
-/

namespace BroadcomWl.Cfg80211.ParamsOverride

open BroadcomWl.Systems BroadcomWl.Cfg80211.WiphyParams

/-- A call of cfg80211, or a command of a private request that sets a parameter, with the answer of
the firmware. -/
inductive Label where
  | cfg80211 (call : WiphyParams.Call)
  | privateSet (p : Param) (value : UInt32) (answer : ℤ)

def driver : Machine State Label where
  initial := machine.initial
  step state label :=
    match label with
    | .cfg80211 call => some (wlCfg80211SetWiphyParams call state).2
    | .privateSet p value answer => some (writeFirmware p value answer state).2

/-- A call of cfg80211 does what it is to achieve, and a private request leaves the cache
coherent. -/
def Agrees (state : State) : Label → Prop
  | .cfg80211 call => Sound state call
  | .privateSet p value answer => WiphyParams.Coherent (writeFirmware p value answer state).2

/-- A call of cfg80211 is covered, and a private request that is accepted sets a parameter that no
call has tried to set, or the value that is cached. -/
def Respects (state : State) : Label → Prop
  | .cfg80211 call => Covered state call
  | .privateSet p value answer => answer = 0 → state.tried p = true → value = state.conf p

theorem coherent_writeFirmware_iff {state : State} (h : WiphyParams.Coherent state) (p : Param)
    (value : UInt32) (answer : ℤ) :
    WiphyParams.Coherent (writeFirmware p value answer state).2 ↔
      (answer = 0 → state.tried p = true → value = state.conf p) := by
  unfold writeFirmware
  by_cases hanswer : answer = 0
  · rw [if_pos hanswer]
    constructor
    · intro hcoherent _ htried
      have hp : state.conf p = Function.update state.firmware p value p := hcoherent p htried
      rw [hp, Function.update_self]
    · intro hvalue q htried
      change state.conf q = Function.update state.firmware p value q
      by_cases hq : q = p
      · subst hq
        rw [Function.update_self, hvalue hanswer htried]
      · rw [Function.update_of_ne hq]
        exact h q htried
  · rw [if_neg hanswer]
    exact iff_of_true h fun hzero ↦ absurd hzero hanswer

/-- In every run of calls and private requests, each call of cfg80211 does what it is to achieve and
the cache stays coherent, exactly when every call is covered and no private request overrides a
parameter that a call has tried to set. -/
theorem overrides_respected_iff (firmware : Param → UInt32) (labels : List Label) :
    driver.Along Agrees (initialized firmware) labels ↔
      driver.Along Respects (initialized firmware) labels := by
  have hcondition : ∀ state label, WiphyParams.Coherent state →
      (Agrees state label ↔ Respects state label) := by
    intro state label hcoherent
    cases label with
    | cfg80211 call => exact ⟨Sound.covered, fun hcovered ↦ hcovered.sound hcoherent⟩
    | privateSet p value answer => exact coherent_writeFirmware_iff hcoherent p value answer
  have hstep : ∀ state label next, WiphyParams.Coherent state → Agrees state label →
      driver.step state label = some next → WiphyParams.Coherent next := by
    intro state label next _ hagrees hnext
    cases label with
    | cfg80211 call =>
      cases hnext
      exact hagrees.2
    | privateSet p value answer =>
      cases hnext
      exact hagrees
  have hstart : WiphyParams.Coherent (initialized firmware) := by
    intro p htried
    cases htried
  exact Machine.along_congr hcondition hstep hstart

/-- A program changes a threshold that was set before, and setting it again does nothing. -/
example : ¬driver.Along Agrees (initialized fun _ ↦ 2347)
    [.cfg80211 ⟨8, ⟨500, 2346, 7, 4⟩, fun _ ↦ 0⟩, .privateSet .rtsThreshold 600 0] := by
  rintro ⟨-, h⟩
  exact absurd ((h _ rfl).1 .rtsThreshold rfl) (by decide)

end BroadcomWl.Cfg80211.ParamsOverride
