import BroadcomWl.Formats.Radiotap
import BroadcomWl.Linux.MonitorLeak

/-!
# Reading the radiotap headers back

A capture tool walks the header that monitor types 2 and 3 put before a frame and reads the
fields it finds. The module states what it should find there, a receive status narrowed to the
width of each field, and proves exactly when it does. The walk over the legacy form of type 2
goes through the word that is not written; the HT form of type 2 shifts the STBC bits out of
their byte; and both HT forms test the bit of a preamble that is an enumeration.
-/

namespace BroadcomWl.Linux.MonitorFrame

open BroadcomWl.Memory
open BroadcomWl.Formats (Radiotap.Cursor Radiotap.walk)
open BroadcomWl.Formats.Radiotap (Namespace Quiet presentWords takeWord takeWords takeFields
  takeVendor)

/-! ## What the status says of the modulation -/

/-- The bandwidth of an HT frame, with the half of a 40 MHz channel. -/
inductive HtBandwidth where
  | mhz20
  | mhz40
  | mhz20L
  | mhz20U
deriving DecidableEq

namespace WlRxsts

variable (rxsts : WlRxsts)

def bandwidth : HtBandwidth :=
  if rxsts.htflags &&& wlRxsHtfBwMask = wlRxsHtf40 then .mhz40
  else if rxsts.htflags &&& wlRxsHtfBwMask = wlRxsHtf20L then .mhz20L
  else if rxsts.htflags &&& wlRxsHtfBwMask = wlRxsHtf20U then .mhz20U
  else .mhz20

def fortyMhz : Prop := rxsts.htflags &&& wlRxsHtf40 ≠ 0

def shortGi : Prop := rxsts.htflags &&& wlRxsHtfSgi ≠ 0

/-- The preambles are an enumeration. -/
def greenfield : Prop := rxsts.preamble = wlRxsPreambleHtGf

def ldpc : Prop := rxsts.htflags &&& wlRxsHtfLdpc ≠ 0

/-- The number of streams with STBC. -/
def stbc : ℕ := ((rxsts.htflags &&& wlRxsHtfStbcMask) >>> 4).toNat

def isHt : Prop := rxsts.phytype = wlRxsPhyN ∧ rxsts.encoding = wlRxsEncodingHt

def isVht : Prop := rxsts.phytype = wlRxsPhyN ∧ rxsts.encoding = wlRxsEncodingVht

end WlRxsts

/-! ## What a capture tool should read -/

def mcsHaveStbc : UInt8 := 0x20

/-- The bandwidth that the low bits of the MCS flags stand for. -/
def mcsBandwidth (code : UInt8) : HtBandwidth :=
  if code = mcsBw40 then .mhz40
  else if code = mcsBw20L then .mhz20L
  else if code = mcsBw20U then .mhz20U
  else .mhz20

/-- The MCS field: whatever its `known` byte declares agrees with the status. -/
structure McsRecovered (rxsts : WlRxsts) (known flags index : UInt8) : Prop where
  index : known &&& mcsHaveMcs ≠ 0 → index = rxsts.mcs
  bandwidth : known &&& mcsHaveBw ≠ 0 → mcsBandwidth (flags &&& mcsBwMask) = rxsts.bandwidth
  shortGi : known &&& mcsHaveGi ≠ 0 → (flags &&& mcsSgi ≠ 0 ↔ rxsts.shortGi)
  greenfield : known &&& mcsHaveFmt ≠ 0 → (flags &&& mcsFmtGf ≠ 0 ↔ rxsts.greenfield)
  ldpc : known &&& mcsHaveFec ≠ 0 → (flags &&& mcsFecLdpc ≠ 0 ↔ rxsts.ldpc)
  stbc : known &&& mcsHaveStbc ≠ 0 → ((flags &&& 0x60) >>> 5).toNat = rxsts.stbc

/-- The VHT field. The flags STBC, TXOP_PS, SGI, SGI_NSYM_DA, LDPC_EXTRA and BF have the same
bits in `known`, in the field and in the status. -/
structure VhtRecovered (rxsts : WlRxsts) (known : ℕ) (flags bw mcsNss coding gid : UInt8)
    (paid : ℕ) : Prop where
  flags : ∀ bit < 6, known.testBit bit = true →
    flags.toNat.testBit bit = rxsts.vhtflags.toNat.testBit bit
  bandwidth : known.testBit 6 = true → bw = rxsts.bw
  groupId : known.testBit 7 = true → gid = rxsts.gid
  partialAid : known.testBit 8 = true → paid = rxsts.aid.toNat
  mcs : mcsNss.toNat / 16 = rxsts.mcs.toNat % 16
  nss : mcsNss.toNat % 16 = rxsts.nss.toNat % 16
  coding : coding = rxsts.coding

/-- The vendor data of the HT form of type 2. -/
structure Brcm2Recovered (rxsts : WlRxsts) (mcs htflags : UInt8) : Prop where
  mcs : mcs = rxsts.mcs
  fortyMhz : htflags &&& htmod40 ≠ 0 ↔ rxsts.fortyMhz
  shortGi : htflags &&& htmodSgi ≠ 0 ↔ rxsts.shortGi
  greenfield : htflags &&& htmodGf ≠ 0 ↔ rxsts.greenfield
  ldpc : htflags &&& htmodLdpc ≠ 0 ↔ rxsts.ldpc
  stbc : ((htflags &&& htmodStbcMask) >>> 4).toNat = rxsts.stbc

variable (wifi : Wifi) (wl : WlInfo) (rxsts : WlRxsts) (fc : UInt16) (buffer : ℕ → UInt8)
  (cursor : Radiotap.Cursor)

/-- The fields that every form has, and the rate where it is present. -/
structure CommonRecovered : Prop where
  tsft : ∃ start, cursor.find tsftBit = some start ∧ load32 buffer start = rxsts.mactime.toNat ∧
    load32 buffer (start + 4) = 0
  flags : ∃ start, cursor.find flagsBit = some start ∧ buffer start = rtapFlags rxsts fc
  channel : ∃ start, cursor.find channelBit = some start ∧
    load16 buffer start = toU16 (channelFrequency wifi rxsts)
  signal : ∃ start, cursor.find dbmAntsignalBit = some start ∧
    buffer start = UInt8.ofInt rxsts.signal.toInt
  noise : ∃ start, cursor.find dbmAntnoiseBit = some start ∧
    buffer start = UInt8.ofInt rxsts.noise.toInt
  antenna : ∃ start, cursor.find antennaBit = some start ∧
    (buffer start).toNat = rxsts.antenna.toNat % 256
  rate : ∀ start, cursor.find rateBit = some start →
    (buffer start).toNat = rxsts.datarate.toNat % 256

/-- The field with the driver's HT data: its OUI, and its sub-namespace 1. -/
def IsBrcm2 (start : ℕ) : Prop :=
  [buffer start, buffer (start + 1), buffer (start + 2)] = brcmOui ∧ buffer (start + 3) = 1

/-- The modulation: HT and VHT frames declare it, and whatever is declared is right. -/
structure ModulationRecovered : Prop where
  declaresBrcm2 : wl.monitorType = 2 → rxsts.phytype = wlRxsPhyN →
    ∃ start, cursor.find vendorNamespaceBit = some start ∧ IsBrcm2 buffer start
  declaresMcs : wl.monitorType = 3 → rxsts.isHt → (cursor.find mcsBit).isSome = true
  declaresVht : wl.monitorType = 3 → rxsts.isVht → (cursor.find vhtBit).isSome = true
  brcm2 : ∀ start, cursor.find vendorNamespaceBit = some start → IsBrcm2 buffer start →
    Brcm2Recovered rxsts (buffer (start + 6)) (buffer (start + 7))
  mcs : ∀ start, cursor.find mcsBit = some start →
    McsRecovered rxsts (buffer start) (buffer (start + 1)) (buffer (start + 2))
  vht : ∀ start, cursor.find vhtBit = some start →
    VhtRecovered rxsts (load16 buffer start) (buffer (start + 2)) (buffer (start + 3))
      (buffer (start + 4)) (buffer (start + 8)) (buffer (start + 9)) (load16 buffer (start + 10))

/-- The walk over the header ends at `it_len` and finds the status. -/
def RoundTrips : Prop :=
  ∃ cursor, Radiotap.walk buffer = some cursor ∧ cursor.offset = Formats.Radiotap.itLen buffer ∧
    CommonRecovered wifi rxsts fc buffer cursor ∧ ModulationRecovered wl rxsts buffer cursor

/-! ## Packing the modulation -/

section Packing

variable (rxsts : WlRxsts)

/-- The preamble bit that both HT forms test says what the enumeration says. -/
def PreambleExact : Prop := rxsts.preamble &&& wlRxsPreambleHtGf ≠ 0 ↔ rxsts.greenfield

/-- The flags of type 2 with the outcome of each test. -/
theorem htmod_flags (forty sgi gf ldpc : Bool) (stbc : UInt8) (hstbc : stbc = 0) :
    let flags := (if forty then htmod40 else 0) ||| (if sgi then htmodSgi else 0) |||
      (if gf then htmodGf else 0) ||| (if ldpc then htmodLdpc else 0) ||| stbc
    (flags &&& htmod40 ≠ 0 ↔ forty = true) ∧ (flags &&& htmodSgi ≠ 0 ↔ sgi = true) ∧
      (flags &&& htmodGf ≠ 0 ↔ gf = true) ∧ (flags &&& htmodLdpc ≠ 0 ↔ ldpc = true) ∧
      flags &&& htmodStbcMask = 0 := by
  subst hstbc
  revert forty sgi gf ldpc
  decide

theorem stbcBits_mod : (rxsts.htflags &&& wlRxsHtfStbcMask).toNat % 16 = 0 := by
  have hmod := Nat.and_mod_two_pow (a := rxsts.htflags.toNat) (b := 0x30) (n := 4)
  rw [UInt8.toNat_and]
  exact hmod.trans (Nat.and_zero _)

/-- The STBC bits are in place already; the shift moves them out of the byte. -/
theorem stbcBits_shifted :
    UInt8.ofNat ((rxsts.htflags &&& wlRxsHtfStbcMask).toNat <<< htmodStbcShift) = 0 := by
  have hmod := stbcBits_mod rxsts
  rw [← UInt8.toNat_inj, UInt8.toNat_ofNat', Nat.shiftLeft_eq]
  generalize (rxsts.htflags &&& wlRxsHtfStbcMask).toNat = bits at hmod ⊢
  show bits * 16 % 256 = 0
  omega

theorem stbc_eq_zero_iff : rxsts.stbc = 0 ↔ rxsts.htflags &&& wlRxsHtfStbcMask = 0 := by
  have hmod := stbcBits_mod rxsts
  unfold WlRxsts.stbc
  rw [UInt8.toNat_shiftRight, ← UInt8.toNat_inj, Nat.shiftRight_eq_div_pow]
  generalize (rxsts.htflags &&& wlRxsHtfStbcMask).toNat = bits at hmod ⊢
  show bits / 16 = 0 ↔ bits = 0
  omega

theorem mcs_flags (bw : UInt8) (hbw : bw < 4) (sgi gf ldpc : Bool) :
    let flags := bw ||| (if sgi then mcsSgi else 0) ||| (if gf then mcsFmtGf else 0) |||
      (if ldpc then mcsFecLdpc else 0)
    flags &&& mcsBwMask = bw ∧ (flags &&& mcsSgi ≠ 0 ↔ sgi = true) ∧
      (flags &&& mcsFmtGf ≠ 0 ↔ gf = true) ∧ (flags &&& mcsFecLdpc ≠ 0 ↔ ldpc = true) := by
  have hcases : bw = 0 ∨ bw = 1 ∨ bw = 2 ∨ bw = 3 := by
    have hlt : bw.toNat < 4 := UInt8.lt_iff_toNat_lt.mp hbw
    simp only [← UInt8.toNat_inj]
    show bw.toNat = 0 ∨ bw.toNat = 1 ∨ bw.toNat = 2 ∨ bw.toNat = 3
    omega
  revert sgi gf ldpc
  rcases hcases with rfl | rfl | rfl | rfl <;> decide

theorem vhtMcsNss_toNat :
    (vhtMcsNss rxsts).toNat = rxsts.mcs.toNat % 16 * 16 + rxsts.nss.toNat % 16 := by
  have hnss : (rxsts.nss &&& radiotapVhtNss).toNat = rxsts.nss.toNat % 2 ^ 4 := by
    rw [UInt8.toNat_and]
    exact Nat.and_two_pow_sub_one_eq_mod _ 4
  have hlt : rxsts.nss.toNat % 2 ^ 4 < 2 ^ 4 := Nat.mod_lt _ (by decide)
  unfold vhtMcsNss
  rw [hnss, ← Nat.shiftLeft_add_eq_or_of_lt hlt, UInt8.toNat_ofNat', Nat.shiftLeft_eq]
  omega

/-- The data of type 2 is right for a frame without STBC whose preamble is not mistaken. -/
theorem brcm2Recovered_iff :
    Brcm2Recovered rxsts rxsts.mcs (brcm2Htflags rxsts) ↔
      PreambleExact rxsts ∧ rxsts.htflags &&& wlRxsHtfStbcMask = 0 := by
  have hflags := htmod_flags (decide (rxsts.htflags &&& wlRxsHtf40 ≠ 0))
    (decide (rxsts.htflags &&& wlRxsHtfSgi ≠ 0))
    (decide (rxsts.preamble &&& wlRxsPreambleHtGf ≠ 0))
    (decide (rxsts.htflags &&& wlRxsHtfLdpc ≠ 0)) _ (stbcBits_shifted rxsts)
  simp only [decide_eq_true_eq] at hflags
  obtain ⟨hforty, hsgi, hgf, hldpc, hstbc⟩ := hflags
  rw [← stbc_eq_zero_iff]
  constructor
  · intro h
    refine ⟨hgf.symm.trans h.greenfield, ?_⟩
    have hback := h.stbc
    rw [show brcm2Htflags rxsts &&& htmodStbcMask = 0 from hstbc] at hback
    exact hback.symm
  · rintro ⟨hpreamble, hnone⟩
    exact
      { mcs := rfl
        fortyMhz := hforty
        shortGi := hsgi
        greenfield := hgf.trans hpreamble
        ldpc := hldpc
        stbc := by
          rw [show brcm2Htflags rxsts &&& htmodStbcMask = 0 from hstbc]
          exact hnone.symm }

theorem mcsBw_lt : mcsBw rxsts < 4 ∧ mcsBandwidth (mcsBw rxsts) = rxsts.bandwidth := by
  unfold mcsBw WlRxsts.bandwidth
  dsimp only
  generalize rxsts.htflags &&& wlRxsHtfBwMask = bw
  by_cases h20L : bw = wlRxsHtf20L
  · subst h20L
    decide
  by_cases h20U : bw = wlRxsHtf20U
  · subst h20U
    decide
  by_cases h40 : bw = wlRxsHtf40
  · subst h40
    decide
  rw [if_neg h20L, if_neg h20U, if_neg h40, if_neg h40, if_neg h20L, if_neg h20U]
  decide

/-- The MCS field is right for a frame whose preamble is not mistaken; it does not declare STBC. -/
theorem mcsRecovered_iff :
    McsRecovered rxsts mcsKnown (mcsFlags rxsts) rxsts.mcs ↔ PreambleExact rxsts := by
  have hflags := mcs_flags (mcsBw rxsts) (mcsBw_lt rxsts).1
    (decide (rxsts.htflags &&& wlRxsHtfSgi ≠ 0))
    (decide (rxsts.preamble &&& wlRxsPreambleHtGf ≠ 0))
    (decide (rxsts.htflags &&& wlRxsHtfLdpc ≠ 0))
  simp only [decide_eq_true_eq] at hflags
  obtain ⟨hbw, hsgi, hgf, hldpc⟩ := hflags
  constructor
  · intro h
    exact hgf.symm.trans (h.greenfield (by decide))
  · intro hpreamble
    exact
      { index := fun _ ↦ rfl
        bandwidth := fun _ ↦ (congrArg mcsBandwidth hbw).trans (mcsBw_lt rxsts).2
        shortGi := fun _ ↦ hsgi
        greenfield := fun _ ↦ hgf.trans hpreamble
        ldpc := fun _ ↦ hldpc
        stbc := fun h ↦ absurd rfl h }

/-- The VHT field is always right. -/
theorem vhtRecovered :
    VhtRecovered rxsts vhtKnown rxsts.vhtflags.toUInt8 rxsts.bw (vhtMcsNss rxsts) rxsts.coding
      rxsts.gid rxsts.aid.toNat where
  flags bit hbit _ := by
    rw [UInt16.toNat_toUInt8, Nat.testBit_mod_two_pow, decide_eq_true (by omega), Bool.true_and]
  bandwidth _ := rfl
  groupId _ := rfl
  partialAid _ := rfl
  mcs := by
    rw [vhtMcsNss_toNat]
    omega
  nss := by
    rw [vhtMcsNss_toNat]
    omega
  coding := rfl

end Packing

/-! ## Walking the headers -/

section Walks

variable {buffer : ℕ → UInt8}

/-- The word behind the first, and the one behind that where its extension bit is set, stand for
no field: nothing is left of the header when they are looked at. -/
def QuietExt (buffer : ℕ → UInt8) : Prop :=
  Quiet .vendor (load32 buffer 8) ∧
    ((load32 buffer 8).testBit extBit = true →
      (load32 buffer 12).testBit extBit = false ∧
        Quiet (Namespace.next .vendor (load32 buffer 8)) (load32 buffer 12))

instance (buffer : ℕ → UInt8) : Decidable (QuietExt buffer) :=
  inferInstanceAs (Decidable (_ ∧ _))

/-- The vendor field behind the antenna, whose data ends the header. -/
theorem takeVendor_last {size skipLen : ℕ} {fields : List (ℕ × ℕ)}
    (hskip : load16 buffer 38 = skipLen) (hsize : 40 + skipLen = size) :
    takeVendor buffer size ⟨33, fields⟩ = some ⟨size, fields ++ [(vendorNamespaceBit, 34)]⟩ := by
  subst hskip hsize
  unfold takeVendor
  rw [show roundUp 2 33 = 34 from rfl]
  exact if_pos (Nat.le_refl _)

def legacyFields : List (ℕ × ℕ) :=
  [(0, 16), (1, 24), (2, 25), (3, 26), (5, 30), (6, 31), (11, 32), (30, 34)]

/-- The fields behind two or three words. -/
theorem takeWord_legacy {start : ℕ} (hskip : load16 buffer 38 = legacySkipLen)
    (hstart : start = 12 ∨ start = 16) :
    takeWord buffer legacySize (.standard 0) presentLegacy ⟨start, []⟩ =
      some ⟨legacySize, legacyFields⟩ := by
  have hfields : takeFields legacySize (.standard 0) presentLegacy ⟨start, []⟩ =
      some ⟨33, legacyFields.dropLast⟩ := by
    rcases hstart with rfl | rfl <;> rfl
  unfold takeWord
  rw [hfields]
  exact takeVendor_last hskip rfl

/-- Behind four words the fields do not fit. -/
theorem takeWord_legacy_none {start : ℕ} (hstart : 20 ≤ start) :
    takeWord buffer legacySize (.standard 0) presentLegacy ⟨start, []⟩ = none := by
  unfold takeWord
  cases hfields : takeFields legacySize (.standard 0) presentLegacy ⟨start, []⟩ with
  | none => rfl
  | some cursor =>
    have hle : start + 17 ≤ cursor.offset := Formats.Radiotap.le_takeFields hfields
    have hround : 38 ≤ roundUp 2 cursor.offset := by
      unfold roundUp
      omega
    have hend : ¬roundUp 2 cursor.offset + 6 + load16 buffer (roundUp 2 cursor.offset + 4) ≤
        legacySize := by
      unfold legacySize
      omega
    exact if_neg hend

/-- Words after the first two. -/
theorem presentWords_legacy (hfirst : load32 buffer 4 = presentLegacy)
    (hext : (load32 buffer 8).testBit extBit = true) :
    presentWords buffer legacySize legacySize 4 =
      (presentWords buffer legacySize 41 12).map
        fun (words, stop) ↦ (presentLegacy :: load32 buffer 8 :: words, stop) := by
  have hmore : (load32 buffer 4).testBit extBit = true := by
    rw [hfirst]
    decide
  have hone : presentWords buffer legacySize legacySize 4 =
      (presentWords buffer legacySize 42 8).map
        fun (words, stop) ↦ (load32 buffer 4 :: words, stop) :=
    Formats.Radiotap.presentWords_more (by decide) hmore
  have htwo : presentWords buffer legacySize 42 8 =
      (presentWords buffer legacySize 41 12).map
        fun (words, stop) ↦ (load32 buffer 8 :: words, stop) :=
    Formats.Radiotap.presentWords_more (by decide) hext
  rw [hone, htwo, hfirst, Option.map_map]
  rfl

/-- The walk over a legacy header. -/
theorem walk_legacy (hlen : Formats.Radiotap.itLen buffer = legacySize)
    (hfirst : load32 buffer 4 = presentLegacy) (hskip : load16 buffer 38 = legacySkipLen) :
    Radiotap.walk buffer =
      if QuietExt buffer then some ⟨legacySize, legacyFields⟩ else none := by
  have hnext : Namespace.next (.standard 0) presentLegacy = .vendor := by decide
  have hquiet : ∀ {ns : Namespace} {word : ℕ},
      takeWord buffer legacySize ns word ⟨legacySize, legacyFields⟩ =
        if Quiet ns word then some ⟨legacySize, legacyFields⟩ else none :=
    Formats.Radiotap.takeWord_at_end (Nat.le_refl _)
  by_cases hext : (load32 buffer 8).testBit extBit = true
  swap
  · rw [Formats.Radiotap.walk_two hlen (by decide) hfirst (by decide) rfl
      (Bool.eq_false_of_not_eq_true hext), takeWord_legacy hskip (.inl rfl), hnext,
      Option.bind_some, hquiet]
    simp only [QuietExt, hext, Bool.false_eq_true, false_implies, and_true]
  have hwords := presentWords_legacy hfirst hext
  by_cases hext' : (load32 buffer 12).testBit extBit = true
  · have hnot : ¬QuietExt buffer := fun h ↦ Bool.noConfusion ((h.2 hext).1.symm.trans hext')
    have hthree : presentWords buffer legacySize 41 12 =
        (presentWords buffer legacySize 40 16).map
          fun (words, stop) ↦ (load32 buffer 12 :: words, stop) :=
      Formats.Radiotap.presentWords_more (by decide) hext'
    rw [hthree] at hwords
    rw [if_neg hnot]
    cases hrest : presentWords buffer legacySize 40 16 with
    | none =>
      rw [hrest] at hwords
      unfold Radiotap.walk
      rw [hlen, hwords]
      rfl
    | some rest =>
      have hstop : 20 ≤ rest.2 := Formats.Radiotap.lt_of_presentWords hrest
      rw [hrest] at hwords
      rw [Formats.Radiotap.walk_words hlen hwords, Formats.Radiotap.takeWords_cons,
        takeWord_legacy_none hstop]
      rfl
  · have hlast : presentWords buffer legacySize 41 12 = some ([load32 buffer 12], 16) :=
      Formats.Radiotap.presentWords_last (by decide) (Bool.eq_false_of_not_eq_true hext')
    rw [hlast] at hwords
    rw [Formats.Radiotap.walk_words hlen hwords, Formats.Radiotap.takeWords_cons,
      takeWord_legacy hskip (.inr rfl), Option.bind_some, Formats.Radiotap.takeWords_cons, hnext,
      hquiet]
    by_cases hsecond : Quiet .vendor (load32 buffer 8)
    · rw [if_pos hsecond, Option.bind_some, Formats.Radiotap.takeWords_singleton, hquiet]
      simp only [QuietExt, hsecond, hext, Bool.eq_false_of_not_eq_true hext', true_and,
        forall_true_left]
    · rw [if_neg hsecond, if_neg fun h : QuietExt buffer ↦ hsecond h.1]
      rfl

def htBrcm2Fields : List (ℕ × ℕ) :=
  [(0, 16), (1, 24), (3, 26), (5, 30), (6, 31), (11, 32), (30, 34)]

/-- The walk over the HT header of type 2. -/
theorem walk_htBrcm2 (hlen : Formats.Radiotap.itLen buffer = htBrcm2Size)
    (hfirst : load32 buffer 4 = presentHtBrcm2) (hsecond : load32 buffer 8 = 1)
    (hskip : load16 buffer 38 = htBrcm2SkipLen) :
    Radiotap.walk buffer = some ⟨htBrcm2Size, htBrcm2Fields⟩ := by
  have hnext : Namespace.next (.standard 0) presentHtBrcm2 = .vendor := by decide
  have hfields : takeFields htBrcm2Size (.standard 0) presentHtBrcm2 ⟨12, []⟩ =
      some ⟨33, htBrcm2Fields.dropLast⟩ := rfl
  have hword : takeWord buffer htBrcm2Size (.standard 0) presentHtBrcm2 ⟨12, []⟩ =
      some ⟨htBrcm2Size, htBrcm2Fields⟩ := by
    unfold takeWord
    rw [hfields]
    exact takeVendor_last hskip rfl
  rw [Formats.Radiotap.walk_two hlen (by decide) hfirst (by decide) hsecond (by decide), hword,
    Option.bind_some, hnext]
  have hquiet : Quiet .vendor 1 := by decide
  exact (Formats.Radiotap.takeWord_at_end (Nat.le_refl _)).trans (if_pos hquiet)

def htFields : List (ℕ × ℕ) :=
  [(0, 8), (1, 16), (3, 18), (5, 22), (6, 23), (11, 24), (19, 25)]

/-- The walk over the HT header of type 3. -/
theorem walk_ht (hlen : Formats.Radiotap.itLen buffer = htSize)
    (hfirst : load32 buffer 4 = presentHt) :
    Radiotap.walk buffer = some ⟨htSize, htFields⟩ :=
  Formats.Radiotap.walk_one hlen (by decide) hfirst (by decide)

def vhtFields : List (ℕ × ℕ) :=
  [(0, 8), (1, 16), (3, 18), (5, 22), (6, 23), (11, 24), (20, 28), (21, 36)]

/-- The walk over the VHT header. -/
theorem walk_vht (hlen : Formats.Radiotap.itLen buffer = vhtSize)
    (hfirst : load32 buffer 4 = presentVht) :
    Radiotap.walk buffer = some ⟨vhtSize, vhtFields⟩ :=
  Formats.Radiotap.walk_one hlen (by decide) hfirst (by decide)

end Walks


/-! ## What the buffers hold -/

/-- The stores leave the fields that all forms share. -/
structure CommonStored (wifi : Wifi) (rxsts : WlRxsts) (fc : UInt16) (stores : List Store)
    (tsft channel : ℕ) : Prop where
  tsft : Holds stores tsft (le32 rxsts.mactime.toNat ++ (le32 0 ++ [rtapFlags rxsts fc]))
  channel : Holds stores channel (le16 (toU16 (channelFrequency wifi rxsts)) ++
    (le16 (channelFlags wifi rxsts) ++ [UInt8.ofInt rxsts.signal.toInt,
      UInt8.ofInt rxsts.noise.toInt, rxsts.antenna.toUInt8]))

namespace CommonStored

variable {wifi : Wifi} {rxsts : WlRxsts} {fc : UInt16} {stores rest : List Store}
  {tsft channel size : ℕ}

theorem append (h : CommonStored wifi rxsts fc stores tsft channel) (htsft : tsft + 9 ≤ size)
    (hchannel : channel + 7 ≤ size) (hrest : ∀ i, Covered rest i → size ≤ i) :
    CommonStored wifi rxsts fc (stores ++ rest) tsft channel where
  tsft := Holds.append h.tsft htsft hrest
  channel := Holds.append h.channel hchannel hrest

/-- The walk that finds the shared fields at their places recovers them. -/
theorem recovered (h : CommonStored wifi rxsts fc stores tsft channel) (stale : ℕ → UInt8)
    {cursor : Radiotap.Cursor}
    (hfind : [tsftBit, flagsBit, channelBit, dbmAntsignalBit, dbmAntnoiseBit, antennaBit].map
        cursor.find =
      [tsft, tsft + 8, channel, channel + 4, channel + 5, channel + 6].map some)
    (hrate : ∀ start, cursor.find rateBit = some start →
      Holds stores start [rxsts.datarate.toUInt8]) :
    CommonRecovered wifi rxsts fc (fill stores stale) cursor := by
  simp only [List.map_cons, List.map_nil, List.cons.injEq, and_true] at hfind
  obtain ⟨htsft, hflags, hchannel, hsignal, hnoise, hantenna⟩ := hfind
  have hhigh : Holds stores (tsft + 4) (le32 0 ++ [rtapFlags rxsts fc]) := Holds.drop h.tsft
  have hflagsByte : Holds stores (tsft + 8) [rtapFlags rxsts fc] := Holds.drop hhigh
  have hchannelFlags := Holds.drop h.channel
  have hsignalByte : Holds stores (channel + 4) [UInt8.ofInt rxsts.signal.toInt,
      UInt8.ofInt rxsts.noise.toInt, rxsts.antenna.toUInt8] := Holds.drop hchannelFlags
  have hmactime : rxsts.mactime.toNat % 4294967296 = rxsts.mactime.toNat :=
    Nat.mod_eq_of_lt rxsts.mactime.toNat_lt
  have hfrequency : toU16 (channelFrequency wifi rxsts) % 65536 =
      toU16 (channelFrequency wifi rxsts) := by
    unfold toU16
    omega
  exact
    { tsft := ⟨_, htsft, (Holds.load32 h.tsft stale).trans hmactime, Holds.load32 hhigh stale⟩
      flags := ⟨_, hflags, Holds.byte hflagsByte stale⟩
      channel := ⟨_, hchannel, (Holds.load16 h.channel stale).trans hfrequency⟩
      signal := ⟨_, hsignal, Holds.byte hsignalByte stale⟩
      noise := ⟨_, hnoise, Holds.byte (Holds.tail hsignalByte) stale⟩
      antenna := ⟨_, hantenna, by
        rw [Holds.byte (Holds.tail (Holds.tail hsignalByte)) stale]
        exact UInt32.toNat_toUInt8 _⟩
      rate := fun start hstart ↦ by
        rw [Holds.byte (hrate start hstart) stale]
        exact UInt16.toNat_toUInt8 _ }

end CommonStored

/-! ## Each header read back -/

section Headers

variable {wifi : Wifi} {wl : WlInfo} {rxsts : WlRxsts} {fc : UInt16} {rest : List Store}

/-- Reading back is up to the modulation once the walk ends where it should. -/
theorem roundTrips_iff {buffer : ℕ → UInt8} {cursor : Radiotap.Cursor}
    (hwalk : Radiotap.walk buffer = some cursor)
    (hoffset : cursor.offset = Formats.Radiotap.itLen buffer)
    (hcommon : CommonRecovered wifi rxsts fc buffer cursor) :
    RoundTrips wifi wl rxsts fc buffer ↔ ModulationRecovered wl rxsts buffer cursor := by
  constructor
  · rintro ⟨other, hother, -, -, hmodulation⟩
    rw [hwalk] at hother
    cases hother
    exact hmodulation
  · intro hmodulation
    exact ⟨cursor, hwalk, hoffset, hcommon, hmodulation⟩

theorem itLen_of_holds {stores : List Store} {size present : ℕ}
    (h : Holds stores 0 ([0, 0] ++ (le16 size ++ le32 present))) (hsize : size < 65536)
    (stale : ℕ → UInt8) : Formats.Radiotap.itLen (fill stores stale) = size := by
  have hdrop : Holds stores 2 (le16 size ++ le32 present) := Holds.drop h
  exact (Holds.load16 hdrop stale).trans (Nat.mod_eq_of_lt hsize)

theorem present_of_holds {stores : List Store} {size present : ℕ}
    (h : Holds stores 0 ([0, 0] ++ (le16 size ++ le32 present))) (hpresent : present < 4294967296)
    (stale : ℕ → UInt8) : load32 (fill stores stale) 4 = present := by
  have hdrop : Holds stores 2 (le16 size ++ le32 present) := Holds.drop h
  have hword : Holds stores 4 (le32 present ++ []) := Holds.drop hdrop
  exact (Holds.load32 hword stale).trans (Nat.mod_eq_of_lt hpresent)

/-- A header whose fixed and shared fields are stored is read back up to the modulation. -/
theorem roundTrips_iff_of_stored {stores : List Store} {size present tsft channel : ℕ}
    {fields : List (ℕ × ℕ)} (stale : ℕ → UInt8)
    (hfixed : Holds stores 0 ([0, 0] ++ (le16 size ++ le32 present))) (hsize : size < 65536)
    (hpresent : present < 4294967296) (hcommon : CommonStored wifi rxsts fc stores tsft channel)
    (hwalk : Formats.Radiotap.itLen (fill stores stale) = size →
      load32 (fill stores stale) 4 = present →
        Radiotap.walk (fill stores stale) = some ⟨size, fields⟩)
    (hfind : [tsftBit, flagsBit, channelBit, dbmAntsignalBit, dbmAntnoiseBit, antennaBit].map
        (Radiotap.Cursor.find ⟨size, fields⟩) =
      [tsft, tsft + 8, channel, channel + 4, channel + 5, channel + 6].map some)
    (hrate : ∀ start, Radiotap.Cursor.find ⟨size, fields⟩ rateBit = some start →
      Holds stores start [rxsts.datarate.toUInt8]) :
    RoundTrips wifi wl rxsts fc (fill stores stale) ↔
      ModulationRecovered wl rxsts (fill stores stale) ⟨size, fields⟩ := by
  have hlen := itLen_of_holds hfixed hsize stale
  have hcursor := hwalk hlen (present_of_holds hfixed hpresent stale)
  exact roundTrips_iff hcursor hlen.symm (hcommon.recovered stale hfind hrate)

/-- The legacy form has no field for the modulation. -/
theorem modulation_legacy {buffer : ℕ → UInt8} (hsns : buffer 37 ≠ 1)
    (htwo : wl.monitorType = 2 → rxsts.phytype ≠ wlRxsPhyN)
    (hthree : wl.monitorType = 3 → ¬rxsts.isHt ∧ ¬rxsts.isVht) :
    ModulationRecovered wl rxsts buffer ⟨legacySize, legacyFields⟩ where
  declaresBrcm2 h2 hphy := absurd hphy (htwo h2)
  declaresMcs h3 hht := absurd hht (hthree h3).1
  declaresVht h3 hvht := absurd hvht (hthree h3).2
  brcm2 start hstart hbrcm := by
    cases (show some 34 = some start from hstart)
    exact absurd hbrcm.2 hsns
  mcs start hstart := by cases (show none = some start from hstart)
  vht start hstart := by cases (show none = some start from hstart)

/-- A legacy header reads back exactly when the words behind the first stand for nothing. -/
theorem roundTrips_legacy {header : List Store} {sns flags bw : UInt8}
    (hheader : header = legacyStores wifi rxsts fc sns flags bw ∨
      ∃ word, header = word :: legacyStores wifi rxsts fc sns flags bw)
    (hsns : sns ≠ 1) (hrest : ∀ i, Covered rest i → legacySize ≤ i)
    (htwo : wl.monitorType = 2 → rxsts.phytype ≠ wlRxsPhyN)
    (hthree : wl.monitorType = 3 → ¬rxsts.isHt ∧ ¬rxsts.isVht) (stale : ℕ → UInt8) :
    RoundTrips wifi wl rxsts fc (fill (header ++ rest) stale) ↔
      QuietExt (fill (header ++ rest) stale) := by
  have hlift : ∀ {offset : ℕ} {bytes : List UInt8},
      Holds (legacyStores wifi rxsts fc sns flags bw) offset bytes →
        offset + bytes.length ≤ legacySize → Holds (header ++ rest) offset bytes := by
    intro offset bytes hbytes hsize
    refine Holds.append ?_ hsize hrest
    rcases hheader with rfl | ⟨word, rfl⟩
    · exact hbytes
    · exact Holds.cons word hbytes
  have hfixed : Holds (header ++ rest) 0
      ([0, 0] ++ (le16 legacySize ++ le32 presentLegacy)) :=
    hlift (Holds.of_map rfl) (Nat.le_of_ble_eq_true rfl)
  have hvendor : Holds (header ++ rest) 37 (sns :: (le16 legacySkipLen ++ [])) :=
    hlift (Holds.of_map rfl) (Nat.le_of_ble_eq_true rfl)
  have hrate : Holds (header ++ rest) 25 [rxsts.datarate.toUInt8] :=
    hlift (Holds.of_map rfl) (Nat.le_of_ble_eq_true rfl)
  have hcommon : CommonStored wifi rxsts fc (header ++ rest) 16 26 :=
    ⟨hlift (Holds.of_map rfl) (Nat.le_of_ble_eq_true rfl),
      hlift (Holds.of_map rfl) (Nat.le_of_ble_eq_true rfl)⟩
  have hwalk := fun hlen hpresent ↦
    walk_legacy hlen hpresent (Holds.load16 (Holds.tail hvendor) stale)
  by_cases hquiet : QuietExt (fill (header ++ rest) stale)
  · rw [roundTrips_iff_of_stored stale hfixed (by decide) (by decide) hcommon
      (fun hlen hpresent ↦ (hwalk hlen hpresent).trans (if_pos hquiet)) rfl fun start hstart ↦ by
        cases (show some 25 = some start from hstart)
        exact hrate]
    refine iff_of_true (modulation_legacy ?_ htwo hthree) hquiet
    rw [Holds.byte hvendor stale]
    exact hsns
  · refine iff_of_false ?_ hquiet
    rintro ⟨cursor, hcursor, -⟩
    rw [hwalk (itLen_of_holds hfixed (by decide) stale)
      (present_of_holds hfixed (by decide) stale), if_neg hquiet] at hcursor
    cases hcursor

/-- The words behind the first are what the buffer held before. -/
theorem quietExt_legacy2 (hrest : ∀ i, Covered rest i → legacySize ≤ i) (stale : ℕ → UInt8) :
    QuietExt (fill (legacy2Stores wifi rxsts fc ++ rest) stale) ↔ QuietExt stale := by
  have hkept : ∀ i, 8 ≤ i → i < 16 →
      fill (legacy2Stores wifi rxsts fc ++ rest) stale i = stale i := by
    intro i hle hlt
    have hnot : ¬Covered (legacy2Stores wifi rxsts fc ++ rest) i := by
      rw [covered_append]
      rintro (hheader | hbehind)
      · have hlegacy : i < legacySize := Nat.lt_trans hlt (by decide)
        exact ((legacy2_covered_iff wifi rxsts fc hlegacy).mp hheader).1 ⟨hle, hlt⟩
      · exact absurd (Nat.le_trans (hrest i hbehind) (Nat.le_of_lt hlt)) (by decide)
    rw [fill_apply, lastByte_eq_none hnot]
    rfl
  have hword : ∀ i, 8 ≤ i → i + 4 ≤ 16 →
      load32 (fill (legacy2Stores wifi rxsts fc ++ rest) stale) i = load32 stale i := by
    intro i hle hlt
    unfold load32 load16
    rw [hkept _ hle (by omega), hkept _ (by omega) (by omega), hkept _ (by omega) (by omega),
      hkept _ (by omega) (by omega)]
  unfold QuietExt
  rw [hword 8 (by decide) (by decide), hword 12 (by decide) (by decide)]

/-- Type 3 writes the word behind the first. -/
theorem quietExt_legacy3 (hrest : ∀ i, Covered rest i → legacySize ≤ i) (stale : ℕ → UInt8) :
    QuietExt (fill (legacy3Stores wifi rxsts fc ++ rest) stale) := by
  have hword : Holds (legacy3Stores wifi rxsts fc ++ rest) 8 (le32 1 ++ []) :=
    Holds.of_map_append hrest rfl rfl
  unfold QuietExt
  rw [Holds.load32 hword stale]
  exact ⟨by decide, fun h ↦ absurd h (by decide)⟩

/-- The HT header of type 2 reads back for frames without STBC whose preamble is not mistaken. -/
theorem roundTrips_htBrcm2 (hrest : ∀ i, Covered rest i → htBrcm2Size ≤ i)
    (htwo : wl.monitorType = 2) (stale : ℕ → UInt8) :
    RoundTrips wifi wl rxsts fc (fill (htBrcm2Stores wifi rxsts fc ++ rest) stale) ↔
      PreambleExact rxsts ∧ rxsts.htflags &&& wlRxsHtfStbcMask = 0 := by
  have hfixed : Holds (htBrcm2Stores wifi rxsts fc ++ rest) 0
      ([0, 0] ++ (le16 htBrcm2Size ++ le32 presentHtBrcm2)) :=
    Holds.of_map_append hrest rfl rfl
  have hword : Holds (htBrcm2Stores wifi rxsts fc ++ rest) 8 (le32 1 ++ []) :=
    Holds.of_map_append hrest rfl rfl
  have hvendor : Holds (htBrcm2Stores wifi rxsts fc ++ rest) 34
      (brcmOui ++ [1] ++ (le16 htBrcm2SkipLen ++ [rxsts.mcs, brcm2Htflags rxsts])) :=
    Holds.of_map_append hrest rfl rfl
  have hskip : Holds (htBrcm2Stores wifi rxsts fc ++ rest) 38
      (le16 htBrcm2SkipLen ++ [rxsts.mcs, brcm2Htflags rxsts]) := Holds.drop hvendor
  have hdata : Holds (htBrcm2Stores wifi rxsts fc ++ rest) 40
      [rxsts.mcs, brcm2Htflags rxsts] := Holds.drop hskip
  have hcommon : CommonStored wifi rxsts fc (htBrcm2Stores wifi rxsts fc ++ rest) 16 26 :=
    ⟨Holds.of_map_append hrest rfl rfl,
      Holds.of_map_append hrest rfl rfl⟩
  have hwalk := fun hlen hpresent ↦ walk_htBrcm2 hlen hpresent (Holds.load32 hword stale)
    (Holds.load16 hskip stale)
  have hbrcm : IsBrcm2 (fill (htBrcm2Stores wifi rxsts fc ++ rest) stale) 34 := by
    unfold IsBrcm2
    rw [Holds.byte hvendor stale, Holds.byte (Holds.tail hvendor) stale,
      Holds.byte (Holds.tail (Holds.tail hvendor)) stale,
      Holds.byte (Holds.tail (Holds.tail (Holds.tail hvendor))) stale]
    exact ⟨rfl, rfl⟩
  have hmcs := Holds.byte hdata stale
  have hhtflags := Holds.byte (Holds.tail hdata) stale
  rw [roundTrips_iff_of_stored stale hfixed (by decide) (by decide) hcommon hwalk rfl
    (fun start hstart ↦ by cases (show none = some start from hstart)), ← brcm2Recovered_iff]
  constructor
  · intro h
    have hbrcm2 := h.brcm2 34 rfl hbrcm
    rwa [hmcs, hhtflags] at hbrcm2
  · intro h
    exact
      { declaresBrcm2 := fun _ _ ↦ ⟨34, rfl, hbrcm⟩
        declaresMcs := fun hthree ↦ absurd (htwo.symm.trans hthree) (by decide)
        declaresVht := fun hthree ↦ absurd (htwo.symm.trans hthree) (by decide)
        brcm2 := fun start hstart _ ↦ by
          cases (show some 34 = some start from hstart)
          rwa [hmcs, hhtflags]
        mcs := fun start hstart ↦ by cases (show none = some start from hstart)
        vht := fun start hstart ↦ by cases (show none = some start from hstart) }

/-- The HT header of type 3 reads back for frames whose preamble is not mistaken. -/
theorem roundTrips_ht (hrest : ∀ i, Covered rest i → htSize ≤ i) (hthree : wl.monitorType = 3)
    (hht : rxsts.isHt) (stale : ℕ → UInt8) :
    RoundTrips wifi wl rxsts fc (fill (htStores wifi rxsts fc ++ rest) stale) ↔
      PreambleExact rxsts := by
  have hfixed : Holds (htStores wifi rxsts fc ++ rest) 0
      ([0, 0] ++ (le16 htSize ++ le32 presentHt)) :=
    Holds.of_map_append hrest rfl rfl
  have hdata : Holds (htStores wifi rxsts fc ++ rest) 25 [mcsKnown, mcsFlags rxsts, rxsts.mcs] :=
    Holds.of_map_append hrest rfl rfl
  have hcommon : CommonStored wifi rxsts fc (htStores wifi rxsts fc ++ rest) 8 18 :=
    ⟨Holds.of_map_append hrest rfl rfl,
      Holds.of_map_append hrest rfl rfl⟩
  have hknown := Holds.byte hdata stale
  have hflags := Holds.byte (Holds.tail hdata) stale
  have hindex := Holds.byte (Holds.tail (Holds.tail hdata)) stale
  rw [roundTrips_iff_of_stored stale hfixed (by decide) (by decide) hcommon walk_ht rfl
    (fun start hstart ↦ by cases (show none = some start from hstart)), ← mcsRecovered_iff]
  constructor
  · intro h
    have hmcs := h.mcs 25 rfl
    rwa [hknown, hflags, hindex] at hmcs
  · intro h
    exact
      { declaresBrcm2 := fun htwo ↦ absurd (hthree.symm.trans htwo) (by decide)
        declaresMcs := fun _ _ ↦ rfl
        declaresVht := fun _ hvht ↦ absurd (hht.2.symm.trans hvht.2) (by decide)
        brcm2 := fun start hstart ↦ by cases (show none = some start from hstart)
        mcs := fun start hstart ↦ by
          cases (show some 25 = some start from hstart)
          rwa [hknown, hflags, hindex]
        vht := fun start hstart ↦ by cases (show none = some start from hstart) }

/-- The VHT header always reads back. -/
theorem roundTrips_vht (hrest : ∀ i, Covered rest i → vhtSize ≤ i) (hthree : wl.monitorType = 3)
    (hvht : rxsts.isVht) (stale : ℕ → UInt8) :
    RoundTrips wifi wl rxsts fc (fill (vhtStores wifi rxsts fc ++ rest) stale) := by
  have hfixed : Holds (vhtStores wifi rxsts fc ++ rest) 0
      ([0, 0] ++ (le16 vhtSize ++ le32 presentVht)) :=
    Holds.of_map_append hrest rfl rfl
  have hdata : Holds (vhtStores wifi rxsts fc ++ rest) 36
      (le16 vhtKnown ++ [rxsts.vhtflags.toUInt8, rxsts.bw, vhtMcsNss rxsts]) :=
    Holds.of_map_append hrest rfl rfl
  have hflags : Holds (vhtStores wifi rxsts fc ++ rest) 38
      [rxsts.vhtflags.toUInt8, rxsts.bw, vhtMcsNss rxsts] := Holds.drop hdata
  have hcoding : Holds (vhtStores wifi rxsts fc ++ rest) 44
      ([rxsts.coding, rxsts.gid] ++ (le16 rxsts.aid.toNat ++ [])) :=
    Holds.of_map_append hrest rfl rfl
  have haid : Holds (vhtStores wifi rxsts fc ++ rest) 46 (le16 rxsts.aid.toNat ++ []) :=
    Holds.drop hcoding
  have hcommon : CommonStored wifi rxsts fc (vhtStores wifi rxsts fc ++ rest) 8 18 :=
    ⟨Holds.of_map_append hrest rfl rfl,
      Holds.of_map_append hrest rfl rfl⟩
  rw [roundTrips_iff_of_stored stale hfixed (by decide) (by decide) hcommon walk_vht rfl
    (fun start hstart ↦ by cases (show none = some start from hstart))]
  exact
    { declaresBrcm2 := fun htwo ↦ absurd (hthree.symm.trans htwo) (by decide)
      declaresMcs := fun _ hht ↦ absurd (hvht.2.symm.trans hht.2) (by decide)
      declaresVht := fun _ _ ↦ rfl
      brcm2 := fun start hstart ↦ by cases (show none = some start from hstart)
      mcs := fun start hstart ↦ by cases (show none = some start from hstart)
      vht := fun start hstart ↦ by
        cases (show some 36 = some start from hstart)
        rw [Holds.load16 hdata stale, Holds.byte hflags stale, Holds.byte (Holds.tail hflags) stale,
          Holds.byte (Holds.tail (Holds.tail hflags)) stale, Holds.byte hcoding stale,
          Holds.byte (Holds.tail hcoding) stale, Holds.load16 haid stale,
          Nat.mod_eq_of_lt rxsts.aid.toNat_lt]
        exact vhtRecovered rxsts }

end Headers

/-! ## Both monitor types -/

/-- When the header can be read back: a legacy header of type 2 if its unwritten words stand for
nothing, an HT header of type 2 if no STBC is to be declared, and both HT headers if the preamble
is not mistaken for greenfield. -/
def HeaderReadable (wl : WlInfo) (rxsts : WlRxsts) (stale : ℕ → UInt8) : Prop :=
  (wl.monitorType = 2 →
    if rxsts.phytype = wlRxsPhyN then
      PreambleExact rxsts ∧ rxsts.htflags &&& wlRxsHtfStbcMask = 0
    else QuietExt stale) ∧
    (wl.monitorType = 3 → rxsts.isHt → PreambleExact rxsts)

/-- What lies behind a header. -/
theorem le_of_covered_bytes {p : Packet} {size i : ℕ} (h : Covered [⟨size, p.bytes⟩] i) :
    size ≤ i :=
  ((covered_bytes p size i).mp h).1

theorem le_of_covered_chain {p : Packet} {size i : ℕ}
    (h : Covered ([⟨size, p.bytes⟩] ++ chainStores (size + p.frameLen) p.next) i) : size ≤ i := by
  rcases covered_append.mp h with hbytes | hchain
  · exact le_of_covered_bytes hbytes
  · exact Nat.le_trans (Nat.le_add_right ..) ((covered_chainStores ..).mp hchain).1

theorem roundTrips_rtap2 {wl : WlInfo} (wifi : Wifi) (rxsts : WlRxsts) (p : Packet)
    (htwo : wl.monitorType = 2) (stale : ℕ → UInt8) :
    RoundTrips wifi wl rxsts p.fc (fill (headerAndFrame (rtap2 wifi rxsts p.fc).1
        (rtap2 wifi rxsts p.fc).2 p).stores stale) ↔
      if rxsts.phytype = wlRxsPhyN then
        PreambleExact rxsts ∧ rxsts.htflags &&& wlRxsHtfStbcMask = 0
      else QuietExt stale := by
  unfold rtap2 headerAndFrame
  by_cases hphy : rxsts.phytype = wlRxsPhyN
  · rw [if_neg (not_not_intro hphy), if_pos hphy]
    exact roundTrips_htBrcm2 (fun i ↦ le_of_covered_bytes) htwo stale
  · rw [if_pos hphy, if_neg hphy, ← quietExt_legacy2 fun i ↦ le_of_covered_bytes]
    exact roundTrips_legacy (.inl rfl) (by decide)
      (fun i ↦ le_of_covered_bytes) (fun _ ↦ hphy)
      (fun hthree ↦ absurd (htwo.symm.trans hthree) (by decide)) stale

theorem roundTrips_rtap3 {wl : WlInfo} (wifi : Wifi) (rxsts : WlRxsts) (p : Packet)
    (hthree : wl.monitorType = 3) (stale : ℕ → UInt8) :
    RoundTrips wifi wl rxsts p.fc (fill (rtap3 wifi rxsts p.fc ++
        ([⟨rtapLen3 rxsts, p.bytes⟩] ++ chainStores (rtapLen3 rxsts + p.frameLen) p.next)) stale) ↔
      (rxsts.isHt → PreambleExact rxsts) := by
  rcases rtap3_eq wifi rxsts p.fc with
    ⟨hphy, hht, hlen, hstores⟩ | ⟨hphy, hvht, hlen, hstores⟩ | ⟨hlegacy, hlen, hstores⟩
  · rw [hlen, hstores, roundTrips_ht (fun i ↦ le_of_covered_chain) hthree ⟨hphy, hht⟩]
    exact ⟨fun h _ ↦ h, fun h ↦ h ⟨hphy, hht⟩⟩
  · rw [hlen, hstores]
    refine iff_of_true
      (roundTrips_vht (fun i ↦ le_of_covered_chain) hthree ⟨hphy, hvht⟩ stale) fun hht ↦ ?_
    exact absurd (hvht.symm.trans hht.2) (by decide)
  · have hnot : ¬rxsts.isHt ∧ ¬rxsts.isVht :=
      ⟨fun h ↦ hlegacy.elim (fun hphy ↦ hphy h.1) fun hencoding ↦ hencoding.1 h.2,
        fun h ↦ hlegacy.elim (fun hphy ↦ hphy h.1) fun hencoding ↦ hencoding.2 h.2⟩
    have hbehind : ∀ i, Covered ([⟨legacySize, p.bytes⟩] ++
        chainStores (legacySize + p.frameLen) p.next) i → legacySize ≤ i :=
      fun i ↦ le_of_covered_chain
    rw [hlen, hstores]
    refine iff_of_true ?_ fun hht ↦ absurd hht hnot.1
    refine (roundTrips_legacy (.inr ⟨_, rfl⟩) ?_ hbehind
      (fun htwo ↦ absurd (hthree.symm.trans htwo) (by decide)) (fun _ ↦ hnot) stale).mpr
      (quietExt_legacy3 hbehind stale)
    split_ifs <;> decide

/-- A capture tool reads the status back exactly from these headers. -/
theorem radiotap_round_trip_iff (wifi : Wifi) (wl : WlInfo) (jiffies : ℕ) (rxsts : WlRxsts)
    (p : Packet) (stale : ℕ → UInt8) :
    (wl.monitorType = 2 ∨ wl.monitorType = 3 →
        ∀ skb, monitorSkb wifi wl jiffies rxsts p = some skb →
          RoundTrips wifi wl rxsts p.fc (fill skb.stores stale)) ↔
      (wl.monitorDev = true → HeaderReadable wl rxsts stale) := by
  by_cases hdev : wl.monitorDev = true
  swap
  · refine iff_of_true (fun _ skb hskb ↦ ?_) fun h ↦ absurd h hdev
    unfold monitorSkb at hskb
    rw [if_pos (by simpa using hdev)] at hskb
    cases hskb
  rw [forall_prop_of_true hdev]
  unfold HeaderReadable
  by_cases htwo : wl.monitorType = 2
  · have hskb : monitorSkb wifi wl jiffies rxsts p = some (headerAndFrame
        (rtap2 wifi rxsts p.fc).1 (rtap2 wifi rxsts p.fc).2 p) := by
      simp [monitorSkb, hdev, htwo]
    rw [hskb, ← roundTrips_rtap2 wifi rxsts p htwo stale]
    simp [htwo]
  by_cases hthree : wl.monitorType = 3
  · have hskb : monitorSkb wifi wl jiffies rxsts p = some
        { len := rtapLen3 rxsts + p.frameLen + (p.next.map List.length).sum
          stores := rtap3 wifi rxsts p.fc ++ ([⟨rtapLen3 rxsts, p.bytes⟩] ++
            chainStores (rtapLen3 rxsts + p.frameLen) p.next) } := by
      simp [monitorSkb, hdev, hthree]
    rw [hskb, ← roundTrips_rtap3 wifi rxsts p hthree stale]
    simp [hthree]
  · simp [htwo, hthree]

/-- An HT frame with one stream of STBC. -/
def stbcRxsts : WlRxsts :=
  { legacyRxsts with
    phytype := wlRxsPhyN
    encoding := wlRxsEncodingHt
    preamble := 3
    htflags := 0x10 }

/-- The HT header of type 2 declares no STBC for it. -/
theorem stbc_not_declared :
    stbcRxsts.stbc = 1 ∧ brcm2Htflags stbcRxsts &&& htmodStbcMask = 0 ∧
      ¬∀ skb, monitorSkb channelOne ⟨true, 2, []⟩ 0 stbcRxsts zeroFrame = some skb →
        ∀ stale, RoundTrips channelOne ⟨true, 2, []⟩ stbcRxsts zeroFrame.fc
          (fill skb.stores stale) := by
  refine ⟨by decide, by decide, fun h ↦ ?_⟩
  have hround := (roundTrips_rtap2 channelOne stbcRxsts zeroFrame rfl fun _ ↦ 0).mp
    (h _ rfl fun _ ↦ 0)
  rw [if_pos (show stbcRxsts.phytype = wlRxsPhyN from rfl)] at hround
  exact absurd hround.2 (by decide)

end BroadcomWl.Linux.MonitorFrame
