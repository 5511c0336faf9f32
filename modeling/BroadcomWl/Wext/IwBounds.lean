import BroadcomWl.Wext.IwIoctl
import Mathlib.Algebra.Ring.Nat

/-!
# Requests that stay inside their buffers

For each handler the exact condition under which what it does is contained, and from these the
condition for a request. Most handlers need none. Of the others some use a buffer that they were
not given, some trust a length of the user, of the key or of the firmware, and the scan results
step over the header of a set of rates without asking for room.
-/

namespace BroadcomWl.Wext.Iw

open BroadcomWl.Memory

/-! ## Entries of a log -/

/-- The entry keeps to the first `n` bytes of `extra`. -/
def InExtra (n : ℕ) : Op Buffer → Prop
  | .load .extra range | .store .extra range => range.offset + range.length ≤ n
  | _ => False

instance (n : ℕ) (op : Op Buffer) : Decidable (InExtra n op) := by
  unfold InExtra
  split <;> infer_instance

theorem inside_of_le {range : Range} {size : ℕ} (h : range.offset + range.length ≤ size) :
    range.Inside size :=
  Range.inside_iff.mpr (.inr h)

theorem InExtra.sound {n : ℕ} {op : Op Buffer} {sizes : BufferSizes Buffer} (h : InExtra n op)
    (hcapacity : n ≤ sizes.capacity .extra) (hfilled : n ≤ sizes.filled .extra) :
    op.Sound sizes := by
  match op, h with
  | .load .extra range, h => exact inside_of_le (Nat.le_trans h hfilled)
  | .store .extra range, h => exact inside_of_le (Nat.le_trans h hcapacity)

/-- The entry stores into the first `n` bytes of `extra`. -/
def StoreInExtra (n : ℕ) : Op Buffer → Prop
  | .store .extra range => range.offset + range.length ≤ n
  | _ => False

theorem StoreInExtra.sound {n : ℕ} {op : Op Buffer} {sizes : BufferSizes Buffer}
    (h : StoreInExtra n op) (hcapacity : n ≤ sizes.capacity .extra) : op.Sound sizes := by
  match op, h with
  | .store .extra range, h => exact inside_of_le (Nat.le_trans h hcapacity)

variable {tokens : ℕ × ℕ} {length left : ℕ} {extra : Bool} {log : List (Op Buffer)}

/-- Without a buffer there is nothing to copy back. -/
theorem contained_null_iff :
    Contained tokens length false log left ↔ LogSound (bufferSizes false tokens length) log :=
  ⟨Contained.sound, fun h ↦ ⟨h, fun hextra ↦ Bool.noConfusion hextra⟩⟩

/-- With a buffer the length must fit. -/
theorem contained_some_iff (htokens : 0 < tokens.1) :
    Contained tokens length true log left ↔
      LogSound (bufferSizes true tokens length) log ∧ left ≤ tokens.2 := by
  constructor
  · intro h
    exact ⟨h.sound, Nat.le_of_mul_le_mul_right (h.returned rfl) htokens⟩
  · intro h
    exact ⟨h.1, fun _ ↦ Nat.mul_le_mul_right _ h.2⟩

/-- A handler that leaves the buffers and the length alone. -/
theorem contained_nil (hleft : left ≤ tokens.2) : Contained tokens length extra [] left :=
  ⟨logSound_nil, fun _ ↦ Nat.mul_le_mul_right _ hleft⟩

/-- A handler that may stop with an error: where stopping is contained, the rest counts if it is
reached. -/
theorem contained_guard_iff {stop goOn : Handled} {c d goal : Prop} [Decidable c] (hd : ¬c ↔ d)
    (hstop : c → Contained tokens length extra stop.log stop.dwrq.length.toNat)
    (hgoOn : d → (Contained tokens length extra goOn.log goOn.dwrq.length.toNat ↔ goal)) :
    Contained tokens length extra (if c then stop else goOn).log
        (if c then stop else goOn).dwrq.length.toNat ↔ (d → goal) := by
  by_cases hc : c
  · rw [if_pos hc]
    exact iff_of_true (hstop hc) fun h ↦ absurd hc (hd.mpr h)
  · rw [if_neg hc, hgoOn (hd.mp hc), forall_prop_of_true (hd.mp hc)]

/-! ## Scan results -/

section Scan

variable {fits : ℕ → ℕ → Bool}

/-- The header that a piece steps over without asking for room. -/
def Piece.headerLen : Piece → ℕ
  | .event _ => 0
  | .rates _ => iwEvLcpLen

/-- Every header that is stepped over lies inside the first `room` bytes. -/
def HeadersFit (fits : ℕ → ℕ → Bool) (ends room : ℕ) : List Piece → ℕ → Prop
  | [], _ => True
  | piece :: pieces, event =>
      event + piece.headerLen ≤ room ∧
        HeadersFit fits ends room pieces (piece.add fits ends event).1

/-- Values are added behind the header and inside the stream. -/
theorem addValues_spec (hfits : ∀ stop ends, fits stop ends = true → stop ≤ ends) (count : ℕ)
    {ends event value : ℕ} (hvalue : event + iwEvLcpLen ≤ value) :
    value ≤ (addValues fits ends event count value).1 ∧
      (addValues fits ends event count value).1 ≤ max value ends ∧
      ∀ op ∈ (addValues fits ends event count value).2, StoreInExtra ends op := by
  induction count generalizing value with
  | zero => exact ⟨Nat.le_refl _, Nat.le_max_left .., fun op hop ↦ absurd hop List.not_mem_nil⟩
  | succ count ih =>
    rw [addValues]
    dsimp only
    by_cases hroom : fits (value + (iwEvParamLen - iwEvLcpLen)) ends = true
    · rw [if_pos hroom]
      have hends := hfits _ _ hroom
      obtain ⟨hle, hmax, hlog⟩ := @ih (value + (iwEvParamLen - iwEvLcpLen)) (by omega)
      refine ⟨by omega, by omega, List.forall_mem_cons.mpr ⟨hends, List.forall_mem_cons.mpr
        ⟨?_, hlog⟩⟩⟩
      exact Nat.le_trans hvalue (Nat.le_trans (Nat.le_add_right ..) hends)
    · rw [if_neg hroom]
      exact ih hvalue

/-- A piece ends behind its header, and inside the stream unless the header does not. -/
theorem Piece.add_spec (hfits : ∀ stop ends, fits stop ends = true → stop ≤ ends)
    (piece : Piece) (ends event : ℕ) :
    event + piece.headerLen ≤ (piece.add fits ends event).1 ∧
      (piece.add fits ends event).1 ≤ max (event + piece.headerLen) ends ∧
      ∀ op ∈ (piece.add fits ends event).2, StoreInExtra ends op := by
  cases piece with
  | event len =>
    rw [Piece.add]
    by_cases hroom : fits (event + len) ends = true
    · rw [if_pos hroom]
      have hends := hfits _ _ hroom
      exact ⟨Nat.le_add_right .., Nat.le_trans hends (Nat.le_max_right ..),
        List.forall_mem_singleton.mpr hends⟩
    · rw [if_neg hroom]
      exact ⟨Nat.le_refl _, Nat.le_max_left .., fun op hop ↦ absurd hop List.not_mem_nil⟩
  | rates count => exact addValues_spec hfits count (Nat.le_refl _)

/-- The pieces stay inside the stream; behind it only headers can be stepped over. -/
theorem addPieces_spec (hfits : ∀ stop ends, fits stop ends = true → stop ≤ ends)
    (pieces : List Piece) (ends event : ℕ) :
    event ≤ (addPieces fits ends pieces event).1 ∧
      (addPieces fits ends pieces event).1 ≤
        max event ends + (pieces.map Piece.headerLen).sum ∧
      ∀ op ∈ (addPieces fits ends pieces event).2, StoreInExtra ends op := by
  induction pieces generalizing event with
  | nil => exact ⟨Nat.le_refl _, Nat.le_max_left .., fun op hop ↦ absurd hop List.not_mem_nil⟩
  | cons piece pieces ih =>
    obtain ⟨hfirst, hfirstEnd, hfirstLog⟩ := piece.add_spec hfits ends event
    obtain ⟨hrest, hrestEnd, hrestLog⟩ := ih (piece.add fits ends event).1
    rw [addPieces, List.map_cons, List.sum_cons]
    refine ⟨by dsimp only; omega, by dsimp only; omega, ?_⟩
    exact List.forall_mem_append.mpr ⟨hfirstLog, hrestLog⟩

/-- The stream ends inside its room exactly when no header is stepped over beyond it. -/
theorem addPieces_le_iff (hfits : ∀ stop ends, fits stop ends = true → stop ≤ ends) {room : ℕ}
    {ends event : ℕ} (hends : ends ≤ room) (pieces : List Piece) (hevent : event ≤ room) :
    (addPieces fits ends pieces event).1 ≤ room ↔ HeadersFit fits ends room pieces event := by
  induction pieces generalizing event with
  | nil => exact iff_of_true hevent trivial
  | cons piece pieces ih =>
    obtain ⟨hfirst, hfirstEnd, -⟩ := piece.add_spec hfits ends event
    rw [addPieces, HeadersFit]
    dsimp only
    by_cases hheader : event + piece.headerLen ≤ room
    · rw [ih (by omega), and_iff_right hheader]
    · have hrest := (addPieces_spec hfits pieces ends (piece.add fits ends event).1).1
      exact iff_of_false (by omega) fun h ↦ hheader h.1

/-- A record has at most one set of rates. -/
theorem sum_headerLen_scanPieces (platform : Platform) (memory : ℕ → UInt8) (count bi : ℕ) :
    ((scanPieces platform memory count bi).map Piece.headerLen).sum ≤ 8 * count := by
  have hies : ∀ bi,
      ((wlIwHandleScanresultsIes platform memory bi).map Piece.headerLen).sum = 0 := by
    intro bi
    refine List.sum_eq_zero fun len hlen ↦ ?_
    obtain ⟨piece, hpiece, rfl⟩ := List.mem_map.mp hlen
    unfold wlIwHandleScanresultsIes at hpiece
    dsimp only at hpiece
    split at hpiece
    · cases hpiece
    · obtain ⟨found, -, hfound⟩ := List.mem_filterMap.mp hpiece
      obtain ⟨ie, -, rfl⟩ := Option.map_eq_some_iff.mp hfound
      rfl
  induction count generalizing bi with
  | zero => exact Nat.le_refl _
  | succ count ih =>
    have hrest := ih (nextBss memory bi)
    rw [scanPieces, List.map_append, List.sum_append]
    have hbss : ((bssPieces platform memory bi).map Piece.headerLen).sum ≤ 8 := by
      unfold bssPieces
      simp only [List.map_append, List.sum_append, hies]
      split_ifs <;> exact Nat.le_of_ble_eq_true rfl
    omega

end Scan

/-! ## Range -/

section Range

variable {platform : Platform} {iw : WlIw} {dwrq : IwPoint} {bytes : ℕ → UInt8}

theorem forall_inExtra_stores {n : ℕ} {ranges : List Range}
    (h : ∀ range ∈ ranges, range.offset + range.length ≤ n) :
    ∀ op ∈ ranges.map (Op.store Buffer.extra), InExtra n op := by
  intro op hop
  obtain ⟨range, hrange, rfl⟩ := List.mem_map.mp hop
  exact h range hrange

/-- The structure is zeroed first, so everything in it can be loaded. -/
theorem range_contained {length : ℕ} {tail : List (Op Buffer)}
    (h : ∀ op ∈ tail, InExtra iwRangeSize op) :
    Contained (1, iwRangeSize) length true (.store .extra ⟨0, iwRangeSize⟩ :: tail)
      iwRangeSize := by
  refine (contained_some_iff Nat.one_pos).mpr ⟨⟨inside_of_le (Nat.le_refl _), ?_⟩, Nat.le_refl _⟩
  refine LogSoundAfter.of_stored (List.mem_singleton_self _) fun op hop ↦ ?_
  exact (h op hop).sound (Nat.le_refl _) (Nat.le_refl _)

/-- The fields with a place of their own. -/
theorem fields_inExtra :
    (∀ range ∈ nwidStores ++ linkStores ++ limitStores ++ capabilityWords ++ [rangeMember 5],
      range.offset + range.length ≤ iwRangeSize) ∧
      ∀ i < iwMaxFrequencies, ∀ range ∈ freqStores i,
        range.offset + range.length ≤ iwRangeSize := by
  decide +kernel

theorem headLog_inExtra (count : ℕ) (hcount : count ≤ iwMaxFrequencies) :
    ∀ op ∈ nwidStores.map (Op.store Buffer.extra) ++
      ((List.range count).flatMap freqStores ++ linkStores).map (.store .extra),
      InExtra iwRangeSize op := by
  rw [← List.map_append]
  refine forall_inExtra_stores fun range hrange ↦ ?_
  simp only [List.mem_append, List.mem_flatMap, List.mem_range] at hrange
  rcases hrange with hnwid | ⟨i, hi, hfreq⟩ | hlink
  · exact fields_inExtra.1 range (by simp [hnwid])
  · exact fields_inExtra.2 i (Nat.lt_of_lt_of_le hi hcount) range hfreq
  · exact fields_inExtra.1 range (by simp [hlink])

theorem bitrate_inExtra {i : ℕ} (hi : i < 128) :
    (bitrateStore i).offset + (bitrateStore i).length ≤ iwRangeSize := by
  unfold bitrateStore bitrateAt iwRangeSize
  dsimp only
  omega

theorem rateLog_inExtra (platform : Platform) :
    ∀ op ∈ rateLog platform, InExtra iwRangeSize op := by
  refine forall_inExtra_stores fun range hrange ↦ ?_
  rcases List.mem_cons.mp hrange with rfl | hrate
  · decide
  · obtain ⟨i, hi, rfl⟩ := List.mem_map.mp hrate
    have hlt := List.mem_range.mp hi
    unfold iwMaxBitrates at hlt
    exact bitrate_inExtra (by omega)

/-- The rates of 802.11n fit exactly when their number does. -/
theorem nrateLog_inExtra (h : nrateEnd platform ≤ 128) :
    ∀ op ∈ nrateLog platform, InExtra iwRangeSize op := by
  unfold nrateLog
  dsimp only
  simp only [List.forall_mem_append, List.forall_mem_cons, List.mem_flatMap, List.mem_range]
  refine ⟨⟨⟨by decide, by decide, List.forall_mem_nil _⟩, ?_⟩, by decide, List.forall_mem_nil _⟩
  rintro op ⟨k, hk, hop⟩
  revert op
  refine List.forall_mem_cons.mpr ⟨by decide, List.forall_mem_singleton.mpr ?_⟩
  exact bitrate_inExtra (by omega)

theorem not_sound_of_nrateEnd {sizes : BufferSizes Buffer} {log : List (Op Buffer)}
    (hcapacity : sizes.capacity .extra = iwRangeSize) (h : 128 < nrateEnd platform)
    (hlog : ∀ op ∈ nrateLog platform, op ∈ log) : ¬LogSound sizes log := by
  intro hsound
  have hfirst : min (ratesetCount platform) iwMaxBitrates ≤ 32 := Nat.min_le_right ..
  have hstore : Op.store .extra (bitrateStore 128) ∈ nrateLog platform := by
    unfold nrateLog
    simp only [List.mem_append, List.mem_flatMap, List.mem_range]
    refine .inl (.inr ⟨128 - min (ratesetCount platform) iwMaxBitrates, by omega, ?_⟩)
    rw [Nat.add_sub_cancel' (Nat.le_trans hfirst (by decide))]
    exact List.mem_cons_of_mem _ (List.mem_singleton_self _)
  have hinside := hsound.store (hlog _ hstore)
  rw [hcapacity] at hinside
  exact absurd hinside (by decide)

theorem tailLog_inExtra :
    ∀ op ∈ limitStores.map (Op.store Buffer.extra) ++
      capabilityWords.flatMap (fun word ↦ [.load .extra word, .store .extra word]) ++
      [.store .extra (rangeMember 5)], InExtra iwRangeSize op := by
  decide +kernel

/-- What `wl_iw_get_range` needs: no more than 128 rates where rates of 802.11n are added. -/
def RangeInBounds (platform : Platform) : Prop :=
  (platform.firmware .validChannels).error = 0 → (platform.firmware .currRateset).error = 0 →
    (platform.firmware .phytype).error = 0 → addsNrates platform → nrateEnd platform ≤ 128

theorem wlIwGetRange_contained_iff :
    Contained (1, iwRangeSize) dwrq.length.toNat true
        (wlIwGetRange platform iw dwrq (some bytes)).log
        (wlIwGetRange platform iw dwrq (some bytes)).dwrq.length.toNat ↔
      RangeInBounds platform := by
  unfold wlIwGetRange RangeInBounds
  rw [if_neg (show ¬(some bytes).isNone = true from Bool.false_ne_true)]
  dsimp only
  refine contained_guard_iff not_not (fun _ ↦ range_contained fun op hop ↦ ?_) fun _ ↦ ?_
  · exact headLog_inExtra 0 (Nat.zero_le _) op (List.mem_append_left _ hop)
  refine contained_guard_iff not_not (fun _ ↦ range_contained ?_) fun _ ↦ ?_
  · exact headLog_inExtra _ (Nat.min_le_right ..)
  have hhead : ∀ op ∈ (nwidStores.map (Op.store Buffer.extra) ++
      ((List.range (min (load32 (platform.firmware .validChannels).reply 0)
        iwMaxFrequencies)).flatMap freqStores ++ linkStores).map (.store .extra)) ++
      rateLog platform, InExtra iwRangeSize op :=
    List.forall_mem_append.mpr
      ⟨headLog_inExtra _ (Nat.min_le_right ..), rateLog_inExtra platform⟩
  refine contained_guard_iff not_not (fun _ ↦ range_contained hhead) fun _ ↦ ?_
  by_cases hfit : addsNrates platform → nrateEnd platform ≤ 128
  · refine iff_of_true ?_ hfit
    have hnrates : ∀ op ∈ if addsNrates platform then nrateLog platform else [],
        InExtra iwRangeSize op := by
      split_ifs with hadds
      · exact nrateLog_inExtra (hfit hadds)
      · exact List.forall_mem_nil _
    have hrates := List.forall_mem_append.mpr ⟨hhead, hnrates⟩
    refine (contained_guard_iff not_not (fun _ ↦ range_contained hrates) fun _ ↦
      iff_true_intro ?_).mpr fun _ ↦ trivial
    obtain ⟨hwords, hscan⟩ := List.forall_mem_append.mp tailLog_inExtra
    obtain ⟨hlimits, hwords⟩ := List.forall_mem_append.mp hwords
    have hlimits := List.forall_mem_append.mpr ⟨hrates, hlimits⟩
    have hwords := List.forall_mem_append.mpr ⟨hlimits, hwords⟩
    exact range_contained (List.forall_mem_append.mpr ⟨hwords, hscan⟩)
  · refine iff_of_false (fun h ↦ ?_) hfit
    obtain ⟨hadds, hmany⟩ := not_forall.mp hfit
    rw [if_pos hadds] at h
    refine not_sound_of_nrateEnd rfl (Nat.not_le.mp hmany) ?_ h.sound
    intro op hop
    by_cases hagain : (platform.firmware .phytypeAgain).error = 0
    · rw [if_neg (not_not_intro hagain)]
      simp only [List.mem_append, hop, or_true, true_or]
    · rw [if_pos hagain]
      exact List.mem_append_right _ hop

end Range

section Handlers

variable {platform : Platform} {iw : WlIw} {dwrq : IwPoint} {bytes : ℕ → UInt8}

/-! ## Spy -/

theorem wlIwSetSpy_contained (h : dwrq.length.toNat ≤ iwMaxSpy) :
    Contained (sockaddrSize, iwMaxSpy) dwrq.length.toNat true (wlIwSetSpy iw dwrq (some bytes)).log
      (wlIwSetSpy iw dwrq (some bytes)).dwrq.length.toNat := by
  unfold wlIwSetSpy
  rw [if_neg (show ¬(some bytes).isNone = true from Bool.false_ne_true)]
  refine (contained_some_iff (by decide)).mpr ⟨logSound_of_forall ?_, h⟩
  refine List.forall_mem_append.mpr
    ⟨fun op hop ↦ ?_, List.forall_mem_singleton.mpr (inside_of_le (Nat.le_refl _))⟩
  obtain ⟨i, hi, hentry⟩ := List.mem_flatMap.mp hop
  clear hop
  have hlt := List.mem_range.mp hi
  have hlength := Nat.lt_of_lt_of_le hlt (Nat.min_le_right ..)
  have hspy := Nat.lt_of_lt_of_le hlt (Nat.min_le_left ..)
  unfold iwMaxSpy at hspy
  revert op
  refine List.forall_mem_cons.mpr ⟨inside_of_le ?_, List.forall_mem_singleton.mpr (inside_of_le ?_)⟩
  · show 16 * i + 2 + 6 ≤ dwrq.length.toNat * 16
    omega
  · show 6 * i + 6 ≤ 8 * 6
    omega

theorem toNat_ofNat {n : ℕ} (h : n < 65536) : (UInt16.ofNat n).toNat = n :=
  (UInt16.toNat_ofNat' ..).trans (Nat.mod_eq_of_lt h)

theorem wlIwGetSpy_contained (length : ℕ) :
    Contained (sockaddrSize + iwQualitySize, iwMaxSpy) length true
      (wlIwGetSpy iw dwrq (some bytes)).log
      (wlIwGetSpy iw dwrq (some bytes)).dwrq.length.toNat := by
  have hspy := iw.spyNum_le
  unfold iwMaxSpy at hspy
  unfold wlIwGetSpy
  rw [if_neg (show ¬(some bytes).isNone = true from Bool.false_ne_true)]
  dsimp only
  rw [toNat_ofNat (by omega)]
  refine (contained_some_iff (by decide)).mpr ⟨logSound_of_forall fun op hop ↦ ?_, hspy⟩
  obtain ⟨i, hi, hentry⟩ := List.mem_flatMap.mp hop
  clear hop
  have hlt := List.mem_range.mp hi
  revert op
  refine List.forall_mem_cons.mpr ⟨inside_of_le ?_, List.forall_mem_cons.mpr ⟨inside_of_le ?_,
    List.forall_mem_cons.mpr ⟨inside_of_le ?_, List.forall_mem_singleton.mpr (inside_of_le ?_)⟩⟩⟩
  · show 16 * i + 2 + 6 ≤ 8 * 20
    omega
  · show 16 * i + 2 ≤ 8 * 20
    omega
  · show 16 * iw.spyNum + 4 * i + 4 ≤ 8 * 20
    omega
  · show 4 * i + 3 + 1 ≤ 8 * 4
    omega

/-! ## Lists of scan results -/

variable {sizes : BufferSizes Buffer} {length : ℕ} {log : List (Op Buffer)}

theorem listPrepared_sound_iff (hlist : sizes.capacity .list = length) :
    LogSound sizes (listPrepared length) ↔ 4 ≤ length := by
  constructor
  · intro h
    have hinside := h.store (List.mem_cons_of_mem _ (List.mem_singleton_self _))
    rw [hlist, Range.inside_iff_within (by decide)] at hinside
    exact (Nat.zero_add 4).symm ▸ hinside
  · intro h
    refine logSound_of_forall (List.forall_mem_cons.mpr
      ⟨inside_of_le ?_, List.forall_mem_singleton.mpr (inside_of_le ?_)⟩)
    · rw [hlist, Nat.zero_add]
    · rwa [hlist, Nat.zero_add]

/-- The list must have room for its three words. -/
theorem listFilled_sound_iff (hlist : sizes.capacity .list = length)
    (hlog : ∀ op ∈ log, op.Sound sizes) :
    LogSound sizes (listPrepared length ++ listFilled ++ log) ↔ 12 ≤ length := by
  constructor
  · intro h
    have hcount : Op.store .list ⟨8, 4⟩ ∈ listPrepared length ++ listFilled ++ log :=
      List.mem_append_left _ (List.mem_append_right _
        (List.mem_cons_of_mem _ (List.mem_cons_of_mem _ (List.mem_singleton_self _))))
    have hinside := h.store hcount
    rw [hlist, Range.inside_iff_within (by decide)] at hinside
    exact hinside
  · intro h
    refine logSoundAfter_append.mpr
      ⟨logSoundAfter_append.mpr ⟨(listPrepared_sound_iff hlist).mpr (by omega), ?_⟩,
        logSoundAfter_of_forall hlog⟩
    refine logSoundAfter_of_forall (List.forall_mem_cons.mpr ⟨inside_of_le ?_,
      List.forall_mem_cons.mpr ⟨inside_of_le ?_, List.forall_mem_singleton.mpr (inside_of_le ?_)⟩⟩)
    all_goals
      rw [hlist]
      dsimp only
      omega

/-- The size of the list that the handlers of scan results need. -/
def ListInBounds (platform : Platform) (length : ℕ) : Prop :=
  4 ≤ length ∧ ((platform.firmware .scanResults).error = 0 → 12 ≤ length)

theorem listRoom_iff : 12 ≤ length ↔ 4 ≤ length ∧ 12 ≤ length :=
  ⟨fun h ↦ ⟨Nat.le_trans (by decide) h, h⟩, And.right⟩

theorem apLoop_spec (memory : ℕ → UInt8) (count bi : ℕ) {length : ℕ} (h : length ≤ iwMaxAp) :
    (apLoop memory count bi length).1 ≤ iwMaxAp ∧
      ∀ op ∈ (apLoop memory count bi length).2, StoreInExtra (sockaddrSize * iwMaxAp) op := by
  induction count generalizing bi length with
  | zero => exact ⟨h, List.forall_mem_nil _⟩
  | succ count ih =>
    rw [apLoop]
    by_cases hroom : length < iwMaxAp
    swap
    · rw [if_neg hroom]
      exact ⟨h, List.forall_mem_nil _⟩
    rw [if_pos hroom]
    split_ifs
    · exact ih _ h
    · obtain ⟨hlast, hlog⟩ := ih (nextBss memory bi) (Nat.succ_le_of_lt hroom)
      refine ⟨hlast, List.forall_mem_append.mpr ⟨?_, hlog⟩⟩
      refine List.forall_mem_cons.mpr ⟨?_, List.forall_mem_singleton.mpr ?_⟩
      · show 16 * length + 2 + 6 ≤ 16 * 64
        unfold iwMaxAp at hroom
        omega
      · show 16 * length + 2 ≤ 16 * 64
        unfold iwMaxAp at hroom
        omega

theorem wlIwGetAplist_contained_iff (hlength : dwrq.length.toNat ≤ iwMaxAp) :
    Contained (sockaddrSize + iwQualitySize, iwMaxAp) dwrq.length.toNat true
        (wlIwGetAplist platform iw dwrq (some bytes)).log
        (wlIwGetAplist platform iw dwrq (some bytes)).dwrq.length.toNat ↔
      (platform.kmalloc = true → ListInBounds platform dwrq.length.toNat) := by
  unfold wlIwGetAplist ListInBounds
  rw [if_neg (show ¬(some bytes).isNone = true from Bool.false_ne_true)]
  refine contained_guard_iff (by simp) (fun _ ↦ contained_nil hlength) fun _ ↦ ?_
  dsimp only
  by_cases hresults : (platform.firmware .scanResults).error = 0
  swap
  · rw [if_pos hresults, contained_some_iff (by decide)]
    refine (and_congr (listPrepared_sound_iff rfl) (iff_of_true hlength trivial)).trans ?_
    exact and_congr_right' (iff_of_true trivial fun hnone ↦ absurd hnone hresults)
  rw [if_neg (not_not_intro hresults), forall_prop_of_true hresults]
  obtain ⟨hlast, hloop⟩ := apLoop_spec (platform.firmware .scanResults).reply
    (listCount (platform.firmware .scanResults).reply) Cfg80211.ScanResults.bssInfoAt
    (Nat.zero_le iwMaxAp)
  have hsound : ∀ op ∈ (apLoop (platform.firmware .scanResults).reply
      (listCount (platform.firmware .scanResults).reply) Cfg80211.ScanResults.bssInfoAt 0).2,
      op.Sound (bufferSizes true (sockaddrSize + iwQualitySize, iwMaxAp) dwrq.length.toNat) :=
    fun op hop ↦ (hloop op hop).sound (show 16 * 64 ≤ 64 * 20 by decide)
  generalize apLoop (platform.firmware .scanResults).reply
    (listCount (platform.firmware .scanResults).reply) Cfg80211.ScanResults.bssInfoAt 0 = loop
    at hlast hsound ⊢
  obtain ⟨last, log⟩ := loop
  dsimp only at hlast hsound ⊢
  rw [← listRoom_iff]
  by_cases hnone : last = 0
  · rw [if_pos hnone, contained_some_iff (by decide)]
    refine (and_iff_left (Nat.zero_le _)).trans (listFilled_sound_iff rfl hsound)
  · rw [if_neg hnone, contained_some_iff (by decide)]
    dsimp only
    rw [toNat_ofNat (Nat.lt_of_le_of_lt hlast (by decide)), List.append_assoc]
    refine (and_iff_left hlast).trans (listFilled_sound_iff rfl ?_)
    refine List.forall_mem_append.mpr ⟨hsound, List.forall_mem_singleton.mpr (inside_of_le ?_)⟩
    show 16 * last + 4 * last ≤ 64 * 20
    unfold iwMaxAp at hlast
    omega

/-- What `wl_iw_get_scan` adds to the stream. -/
def scanned (platform : Platform) : List Piece :=
  scanPieces platform (platform.firmware .scanResults).reply
    (min (listCount (platform.firmware .scanResults).reply) iwMaxAp)
    Cfg80211.ScanResults.bssInfoAt

/-- What `wl_iw_get_scan` needs once it has a buffer: room for the list, and no header of rates
that is stepped over beyond the buffer. -/
def ScanInBounds (platform : Platform) (length : ℕ) : Prop :=
  (platform.firmware .channel).error = 0 → load32 (platform.firmware .channel).reply 8 = 0 →
    platform.kmalloc = true → ListInBounds platform length ∧
      ((platform.firmware .scanResults).error = 0 →
        HeadersFit platform.streamFits length iwScanMaxData (scanned platform) 0)

theorem wlIwGetScan_contained_iff (hdoc : platform.Documented)
    (hlength : dwrq.length.toNat ≤ iwScanMaxData) :
    Contained (1, iwScanMaxData) dwrq.length.toNat true
        (wlIwGetScan platform iw dwrq (some bytes)).log
        (wlIwGetScan platform iw dwrq (some bytes)).dwrq.length.toNat ↔
      ScanInBounds platform dwrq.length.toNat := by
  have hlist : (bufferSizes true (1, iwScanMaxData) dwrq.length.toNat).capacity .list =
      dwrq.length.toNat := rfl
  unfold wlIwGetScan ScanInBounds ListInBounds
  rw [if_neg (show ¬(some bytes).isNone = true from Bool.false_ne_true)]
  dsimp only
  refine contained_guard_iff not_not (fun _ ↦ contained_nil hlength) fun _ ↦ ?_
  refine contained_guard_iff not_not (fun _ ↦ contained_nil hlength) fun _ ↦ ?_
  refine contained_guard_iff (by simp) (fun _ ↦ contained_nil hlength) fun _ ↦ ?_
  by_cases hresults : (platform.firmware .scanResults).error = 0
  swap
  · rw [if_pos hresults, contained_some_iff (by decide)]
    refine (and_congr (listPrepared_sound_iff hlist) (iff_of_true hlength trivial)).trans ?_
    simp only [hresults, false_implies, and_true]
  rw [if_neg (not_not_intro hresults), forall_prop_of_true hresults,
    forall_prop_of_true hresults, contained_some_iff (by decide)]
  obtain ⟨-, hend, hlog⟩ := addPieces_spec hdoc.streamEnds (scanned platform) dwrq.length.toNat 0
  have hheaders : ((scanned platform).map Piece.headerLen).sum ≤ 8 * iwMaxAp :=
    Nat.le_trans (sum_headerLen_scanPieces ..) (Nat.mul_le_mul_left _ (Nat.min_le_right ..))
  have hshort : (addPieces platform.streamFits dwrq.length.toNat (scanned platform) 0).1 <
      65536 := by
    unfold iwScanMaxData at hlength
    unfold iwMaxAp at hheaders
    omega
  have hsound : ∀ op ∈
      (addPieces platform.streamFits dwrq.length.toNat (scanned platform) 0).2,
      op.Sound (bufferSizes true (1, iwScanMaxData) dwrq.length.toNat) :=
    fun op hop ↦ (hlog op hop).sound (Nat.le_trans hlength (Nat.le_of_eq (Nat.mul_one _).symm))
  have hfit := addPieces_le_iff hdoc.streamEnds hlength (scanned platform) (Nat.zero_le _)
  refine and_congr ((listFilled_sound_iff hlist hsound).trans listRoom_iff) ?_
  show (UInt16.ofNat (addPieces platform.streamFits dwrq.length.toNat (scanned platform) 0).1).toNat
    ≤ iwScanMaxData ↔ _
  rw [toNat_ofNat hshort]
  exact hfit

/-! ## ESSID and nickname -/

theorem wlIwSetEssid_contained (hlength : dwrq.length.toNat ≤ iwEssidMaxSize + 1) :
    Contained (1, iwEssidMaxSize + 1) dwrq.length.toNat true
      (wlIwSetEssid platform iw dwrq (some bytes)).log
      (wlIwSetEssid platform iw dwrq (some bytes)).dwrq.length.toNat := by
  unfold wlIwSetEssid
  split_ifs
  · refine (contained_some_iff (by decide)).mpr ⟨logSound_of_forall ?_, hlength⟩
    refine List.forall_mem_singleton.mpr (inside_of_le ?_)
    show 0 + min 32 dwrq.length.toNat ≤ dwrq.length.toNat * 1
    omega
  · exact contained_nil hlength

theorem wlIwGetEssid_contained_iff (hlength : dwrq.length.toNat ≤ iwEssidMaxSize + 1) :
    Contained (1, iwEssidMaxSize + 1) dwrq.length.toNat true
        (wlIwGetEssid platform iw dwrq (some bytes)).log
        (wlIwGetEssid platform iw dwrq (some bytes)).dwrq.length.toNat ↔
      ((platform.firmware .ssid).error = 0 →
        load32 (platform.firmware .ssid).reply 0 ≤ iwEssidMaxSize + 1) := by
  unfold wlIwGetEssid
  rw [if_neg (show ¬(some bytes).isNone = true from Bool.false_ne_true)]
  dsimp only
  refine contained_guard_iff not_not (fun _ ↦ contained_nil hlength) fun _ ↦ ?_
  rw [contained_some_iff (by decide)]
  generalize load32 (platform.firmware .ssid).reply 0 = ssidLen
  constructor
  · intro h
    have hinside := h.1.store (List.mem_singleton_self _)
    by_cases hzero : ssidLen = 0
    · rw [hzero]
      exact Nat.zero_le _
    · rw [Range.inside_iff_within hzero] at hinside
      exact (Nat.zero_add ssidLen).symm ▸ hinside
  · intro h
    unfold iwEssidMaxSize at h
    refine ⟨logSound_of_forall (List.forall_mem_singleton.mpr (inside_of_le ?_)), ?_⟩
    · show 0 + ssidLen ≤ 33 * 1
      omega
    · rw [toNat_ofNat (by omega)]
      exact h

theorem wlIwSetNick_contained_iff (hlength : dwrq.length.toNat ≤ iwEssidMaxSize + 1) :
    Contained (1, iwEssidMaxSize + 1) dwrq.length.toNat true
        (wlIwSetNick iw dwrq (some bytes)).log
        (wlIwSetNick iw dwrq (some bytes)).dwrq.length.toNat ↔ dwrq.length.toNat ≠ 0 := by
  unfold wlIwSetNick
  rw [if_neg (show ¬(some bytes).isNone = true from Bool.false_ne_true)]
  by_cases hlong : iwEssidMaxSize < dwrq.length.toNat
  · rw [dif_pos hlong]
    exact iff_of_true (contained_nil hlength) (by omega)
  rw [dif_neg hlong, contained_some_iff (by decide)]
  dsimp only
  refine (and_iff_left hlength).trans ?_
  constructor
  · intro h hzero
    have hbefore : Op.store .beforeNickname ⟨0, 1⟩ ∈
        [.load .extra ⟨0, 0⟩, .store .nickname ⟨0, 0⟩, nicknameStore ((0 : ℕ) - 1)] := by decide
    rw [hzero] at h
    have hinside : (⟨0, 1⟩ : Range).Inside 0 := h.store hbefore
    exact absurd hinside (by decide)
  · intro hzero
    refine logSound_of_forall (List.forall_mem_cons.mpr ⟨inside_of_le ?_,
      List.forall_mem_cons.mpr ⟨inside_of_le ?_, List.forall_mem_singleton.mpr ?_⟩⟩)
    · show 0 + dwrq.length.toNat ≤ dwrq.length.toNat * 1
      omega
    · show 0 + dwrq.length.toNat ≤ iwEssidMaxSize
      omega
    · unfold nicknameStore
      rw [if_neg (by omega)]
      refine inside_of_le ?_
      show ((dwrq.length.toNat : ℤ) - 1).toNat + 1 ≤ iwEssidMaxSize
      omega

theorem wlIwGetNick_contained (length : ℕ) :
    Contained (1, iwEssidMaxSize + 1) length true (wlIwGetNick iw dwrq (some bytes)).log
      (wlIwGetNick iw dwrq (some bytes)).dwrq.length.toNat := by
  have hlen : iw.nicknameLen < iwEssidMaxSize :=
    iw.length_nickname ▸ List.idxOf_lt_length_iff.mpr iw.zero_mem_nickname
  unfold iwEssidMaxSize at hlen
  unfold wlIwGetNick
  rw [if_neg (show ¬(some bytes).isNone = true from Bool.false_ne_true)]
  refine (contained_some_iff (by decide)).mpr ⟨logSound_store_load.mpr (inside_of_le ?_), ?_⟩
  · show 0 + (iw.nicknameLen + 1) ≤ 33 * 1
    omega
  · show (UInt16.ofNat (iw.nicknameLen + 1)).toNat ≤ 33
    rw [toNat_ofNat (by omega)]
    omega

/-! ## Keys -/

theorem wlIwSetEncode_contained (hlength : dwrq.length.toNat ≤ iwEncodingTokenMax) :
    Contained (1, iwEncodingTokenMax) dwrq.length.toNat true
      (wlIwSetEncode platform iw dwrq (some bytes)).log
      (wlIwSetEncode platform iw dwrq (some bytes)).dwrq.length.toNat := by
  have hload : Contained (1, iwEncodingTokenMax) dwrq.length.toNat true
      [.load .extra ⟨0, dwrq.length.toNat⟩] dwrq.length.toNat := by
    refine (contained_some_iff (by decide)).mpr ⟨logSound_of_forall ?_, hlength⟩
    refine List.forall_mem_singleton.mpr (inside_of_le ?_)
    show 0 + dwrq.length.toNat ≤ dwrq.length.toNat * 1
    omega
  unfold wlIwSetEncode
  dsimp only
  split
  · exact contained_nil hlength
  · split_ifs
    all_goals first
      | exact contained_nil hlength
      | exact hload

/-- The key that is copied back is empty. -/
theorem wlIwGetEncode_contained (hlength : dwrq.length.toNat ≤ iwEncodingTokenMax) :
    Contained (1, iwEncodingTokenMax) dwrq.length.toNat true
      (wlIwGetEncode platform iw dwrq (some bytes)).log
      (wlIwGetEncode platform iw dwrq (some bytes)).dwrq.length.toNat := by
  unfold wlIwGetEncode
  dsimp only
  split
  · exact contained_nil hlength
  split
  · exact contained_nil hlength
  split
  · exact contained_nil hlength
  · rw [if_neg fun h ↦ h.1 rfl]
    exact contained_nil (Nat.zero_le _)

/-- The bytes that a key takes behind its fixed fields. -/
def KeyInBounds (iwe : IwEncodeExt) (length : ℕ) : Prop :=
  keyAt ≤ length ∧ (keyDataSize < iwe.keyLen.toNat ∨ keyAt + iwe.keyLen.toNat ≤ length)

/-- Everything but the key lies in the fixed fields. -/
theorem encodeExtLoads_fixed (iwe : IwEncodeExt) : ∀ range ∈ encodeExtLoads iwe,
    range.offset + range.length ≤ keyAt ∨
      range = ⟨keyAt, iwe.keyLen.toNat⟩ ∧ ¬keyDataSize < iwe.keyLen.toNat := by
  have hfixed : ∀ {ranges : List Range}, (∀ range ∈ ranges, range.offset + range.length ≤ keyAt) →
      ∀ range ∈ ranges, range.offset + range.length ≤ keyAt ∨
        range = ⟨keyAt, iwe.keyLen.toNat⟩ ∧ ¬keyDataSize < iwe.keyLen.toNat :=
    fun h range hrange ↦ .inl (h range hrange)
  have hoption : ∀ {c : Prop} [Decidable c] {range : Range},
      range.offset + range.length ≤ keyAt →
        ∀ other ∈ if c then [range] else [], other.offset + other.length ≤ keyAt := by
    intro c _ range hrange
    split_ifs
    · exact List.forall_mem_singleton.mpr hrange
    · exact List.forall_mem_nil _
  unfold encodeExtLoads
  refine List.forall_mem_append.mpr ⟨List.forall_mem_append.mpr
    ⟨hfixed (by decide), hfixed (hoption (by decide))⟩, ?_⟩
  by_cases hzero : iwe.keyLen = 0
  · rw [if_pos hzero]
    exact hfixed (by decide)
  by_cases hlong : keyDataSize < iwe.keyLen.toNat
  · rw [if_neg hzero, if_pos hlong]
    exact hfixed (by decide)
  rw [if_neg hzero, if_neg hlong]
  refine List.forall_mem_append.mpr ⟨List.forall_mem_append.mpr ⟨List.forall_mem_append.mpr
    ⟨?_, hfixed (hoption (by decide))⟩, hfixed (by decide)⟩, hfixed (hoption (by decide))⟩
  refine List.forall_mem_cons.mpr ⟨.inl (by decide), List.forall_mem_cons.mpr
    ⟨.inl (by decide), List.forall_mem_cons.mpr ⟨.inl (by decide), List.forall_mem_cons.mpr
      ⟨.inr ⟨rfl, hlong⟩, hfixed (by decide)⟩⟩⟩⟩

theorem encodeExtLoads_inside_iff (iwe : IwEncodeExt) (n : ℕ) :
    (∀ range ∈ encodeExtLoads iwe, range.Inside n) ↔ KeyInBounds iwe n := by
  constructor
  · intro h
    have hkeyLen : (⟨keyLenAt, 2⟩ : Range) ∈ encodeExtLoads iwe := by simp [encodeExtLoads]
    have hfields := (Range.inside_iff_within (by decide)).mp (h _ hkeyLen)
    refine ⟨hfields, ?_⟩
    by_cases hlong : keyDataSize < iwe.keyLen.toNat
    · exact .inl hlong
    by_cases hzero : iwe.keyLen = 0
    · rw [hzero]
      exact .inr hfields
    have hkey : (⟨keyAt, iwe.keyLen.toNat⟩ : Range) ∈ encodeExtLoads iwe := by
      simp [encodeExtLoads, hzero, hlong]
    have hne : iwe.keyLen.toNat ≠ 0 := fun h ↦ hzero (UInt16.toNat_inj.mp h)
    exact .inr ((Range.inside_iff_within hne).mp (h _ hkey))
  · rintro ⟨hfields, hkey⟩ range hrange
    rcases encodeExtLoads_fixed iwe range hrange with hfixed | ⟨rfl, hshort⟩
    · exact inside_of_le (Nat.le_trans hfixed hfields)
    · exact inside_of_le (hkey.resolve_left hshort)

/-- The loads of `wl_iw_set_encodeext` need the user to have given the fields and the key. -/
theorem wlIwSetEncodeext_contained_iff (hlength : dwrq.length.toNat ≤ iwEncodingTokenMax) :
    Contained (1, iwEncodingTokenMax) dwrq.length.toNat true
        (wlIwSetEncodeextBuffers platform iw dwrq (some bytes)).log
        (wlIwSetEncodeextBuffers platform iw dwrq (some bytes)).dwrq.length.toNat ↔
      KeyInBounds (encodeExtAt bytes) dwrq.length.toNat := by
  unfold wlIwSetEncodeextBuffers
  dsimp only
  rw [contained_some_iff (by decide), logSound_loads, and_iff_left hlength,
    encodeExtLoads_inside_iff]
  show KeyInBounds _ (dwrq.length.toNat * 1) ↔ _
  rw [Nat.mul_one]
  rfl

/-- It loads the key's length without a look at its buffer. -/
theorem wlIwSetEncodeext_null_not_contained :
    ¬Contained (1, iwEncodingTokenMax) dwrq.length.toNat false
      (wlIwSetEncodeextBuffers platform iw dwrq none).log
      (wlIwSetEncodeextBuffers platform iw dwrq none).dwrq.length.toNat := by
  unfold wlIwSetEncodeextBuffers
  dsimp only
  rw [contained_null_iff, logSound_loads]
  intro h
  exact absurd ((encodeExtLoads_inside_iff _ _).mp h).1 (show ¬keyAt ≤ 0 by decide)

/-! ## Handlers that are never given a buffer -/

theorem null_load_unsound {range : Range} {ranges : List Range} (hrange : range ∈ ranges)
    (hlength : range.length ≠ 0) :
    ¬Contained (1, 0) length false (ranges.map (.load .extra)) left := by
  rw [contained_null_iff, logSound_loads]
  intro h
  have hwithin : range.offset + range.length ≤ 0 :=
    (Range.inside_iff_within hlength).mp (h range hrange)
  omega

/-- The command is loaded at once. -/
theorem wlIwSetPmksa_not_contained : ¬Contained (1, 0) dwrq.length.toNat false
    (wlIwSetPmksa iw dwrq none).log (wlIwSetPmksa iw dwrq none).dwrq.length.toNat := by
  unfold wlIwSetPmksa
  exact null_load_unsound (List.mem_append_left _ (List.mem_append_left _ (List.mem_append_left _
    List.mem_cons_self))) (by decide)

/-- What `wl_iw_set_scan` needs: no scan for an SSID. -/
def NoDirectedScan (dwrq : IwPoint) : Prop :=
  dwrq.length.toNat = iwScanReqSize → dwrq.flags &&& iwScanThisEssid = 0

theorem wlIwSetScan_contained_iff :
    Contained (1, 0) dwrq.length.toNat false (wlIwSetScan iw dwrq none).log
        (wlIwSetScan iw dwrq none).dwrq.length.toNat ↔ NoDirectedScan dwrq := by
  unfold wlIwSetScan NoDirectedScan
  dsimp only
  by_cases hlength : dwrq.length.toNat = iwScanReqSize
  swap
  · rw [if_neg hlength]
    exact iff_of_true (contained_null_iff.mpr logSound_nil) fun h ↦ absurd h hlength
  rw [if_pos hlength, forall_prop_of_true hlength]
  by_cases hflag : dwrq.flags &&& iwScanThisEssid = 0
  · rw [if_neg (not_not_intro hflag)]
    exact iff_of_true (contained_null_iff.mpr logSound_nil) hflag
  · rw [if_pos hflag]
    exact iff_of_false (null_load_unsound List.mem_cons_self (by decide)) hflag

/-- What `wl_iw_set_wpaie` needs: no element, or one that the buffer for the variable has no room
for, or no memory for it. -/
def WpaieInBounds (platform : Platform) (length : ℕ) : Prop :=
  platform.kmalloc = true → length = 0 ∨ maxWliwIoctlLen < wpaieLen + 1 + length

theorem wlIwSetWpaie_contained_iff (hdoc : platform.Documented) :
    Contained (1, 0) dwrq.length.toNat false (wlIwSetWpaie platform iw dwrq).log
        (wlIwSetWpaie platform iw dwrq).dwrq.length.toNat ↔
      WpaieInBounds platform dwrq.length.toNat := by
  unfold wlIwSetWpaie WpaieInBounds
  dsimp only
  by_cases hkmalloc : platform.kmalloc = true
  swap
  · rw [if_neg hkmalloc]
    exact iff_of_true (contained_null_iff.mpr logSound_nil) fun h ↦ absurd h hkmalloc
  rw [if_pos hkmalloc, forall_prop_of_true hkmalloc]
  by_cases hroom : maxWliwIoctlLen < wpaieLen + 1 + dwrq.length.toNat
  · rw [hdoc.mkiovarOverflows _ _ _ hroom]
    exact iff_of_true (contained_null_iff.mpr logSound_nil) (.inr hroom)
  rw [hdoc.mkiovarFits _ _ _ (Nat.not_lt.mp hroom), or_iff_left hroom]
  by_cases hzero : dwrq.length.toNat = 0
  · rw [hzero, contained_null_iff, logSound_loads]
    refine iff_of_true (List.forall_mem_singleton.mpr ?_) rfl
    exact fun i hi ↦ absurd hi (Nat.not_lt_zero i)
  · exact iff_of_false (null_load_unsound (List.mem_singleton_self _) hzero) hzero

theorem wlIwGetWpaie_contained_iff :
    Contained (1, 0) dwrq.length.toNat false (wlIwGetWpaie platform iw dwrq).log
        (wlIwGetWpaie platform iw dwrq).dwrq.length.toNat ↔
      ¬(platform.kmalloc = true ∧ (platform.firmware .wpaie).error = 0) := by
  unfold wlIwGetWpaie
  dsimp only
  rw [contained_null_iff]
  split_ifs with hstores
  · refine iff_of_false (fun h ↦ ?_) (not_not_intro hstores)
    have hinside : (⟨0, 64⟩ : Range).Inside 0 := h.store (List.mem_singleton_self _)
    exact absurd hinside (by decide)
  · exact iff_of_true logSound_nil hstores

end Handlers

end BroadcomWl.Wext.Iw
