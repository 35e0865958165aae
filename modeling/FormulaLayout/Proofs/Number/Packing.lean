import Mathlib
import FormulaLayout.Proofs.Number.Exact

/-! Rounding ends in a canonical pair of a mantissa and an exponent, and packing such a pair into
bits loses nothing. Only a pair past the largest exponent becomes an infinity, and those pairs are
the ones from `2 ^ 1024` on. Nor is anything lost in taking bits apart: packed again, they are the
same. -/
namespace FormulaLayout.Number
open Float.Model Float.Model.UnpackedFloat

/-- Shorter mantissas than 53 bits stand only at the least exponent. -/
def Canonical (mantissa : ℕ) (exponent : ℤ) : Prop :=
  mantissa < 2 ^ 53 ∧ -1074 ≤ exponent ∧ (2 ^ 52 ≤ mantissa ∨ exponent = -1074)

def ofParts (sign : Sign) (mantissa : ℕ) (exponent : ℤ) : UnpackedFloat :=
  if h : mantissa = 0 then .zero sign
  else .finite sign mantissa exponent (Nat.pos_of_ne_zero h)

theorem unpackedValue?_ofParts (sign : Sign) (mantissa : ℕ) (exponent : ℤ) :
    unpackedValue? (ofParts sign mantissa exponent) =
      some (signed sign (mantissa * 2 ^ exponent)) := by
  unfold ofParts
  split
  · next zero => cases sign <;> simp [unpackedValue?, signed, zero]
  · rfl

theorem target_eq (mantissa : ℕ) (exponent : ℤ) :
    Format.binary64.targetExponent (totalExponent mantissa exponent) =
      max (mantissa.log2 + exponent - 52) (-1074) := by
  simp only [Format.targetExponent, totalExponent, Format.minExponent, Format.mantissaBits]
  omega

theorem log_eq {x : ℚ} {k : ℤ} (low : 2 ^ k ≤ x) (high : x < 2 ^ (k + 1)) :
    Int.log 2 |x| = k := by
  have positive : 0 < x := (two_zpow_pos k).trans_le low
  rw [abs_of_pos positive]
  have above := (Int.zpow_le_iff_le_log (b := 2) (by norm_num) positive).mp
    (by exact_mod_cast low)
  have below := (Int.lt_zpow_iff_log_lt (b := 2) (by norm_num) positive).mp
    (by exact_mod_cast high)
  omega

theorem log_of_floor {x : ℚ} {mantissa : ℕ} (floor : ⌊x⌋ = mantissa) (nonzero : mantissa ≠ 0)
    (exponent : ℤ) : Int.log 2 |x * 2 ^ exponent| = mantissa.log2 + exponent := by
  have scale := two_zpow_pos exponent
  have low : (2 : ℚ) ^ (mantissa.log2 : ℤ) ≤ x := by
    have : ((2 ^ mantissa.log2 : ℕ) : ℚ) ≤ mantissa := by
      exact_mod_cast Nat.log2_self_le nonzero
    rw [zpow_natCast]
    push_cast at this
    refine this.trans ?_
    have := Int.floor_le x
    rwa [floor, Int.cast_natCast] at this
  have high : x < (2 : ℚ) ^ ((mantissa.log2 : ℤ) + 1) := by
    have : ((mantissa + 1 : ℕ) : ℚ) ≤ (2 ^ (mantissa.log2 + 1) : ℕ) := by
      exact_mod_cast Nat.lt_log2_self
    have above := Int.lt_floor_add_one x
    rw [floor, Int.cast_natCast] at above
    calc
      x < mantissa + 1 := above
      _ ≤ ((2 ^ (mantissa.log2 + 1) : ℕ) : ℚ) := by exact_mod_cast this
      _ = 2 ^ ((mantissa.log2 : ℤ) + 1) := by push_cast; rw [← zpow_natCast]; norm_cast
  refine log_eq ?_ ?_
  · rw [two_zpow_add]
    exact mul_le_mul_of_nonneg_right low scale.le
  · rw [add_right_comm, two_zpow_add]
    exact mul_lt_mul_of_pos_right high scale

/-- The place rounding aims at, read off a mantissa that may have been cut, is the last place of
the exact value. -/
theorem target_eq_lastPlace {x : ℚ} {mantissa : ℕ} {exponent : ℤ} (positive : 0 < x)
    (floor : ⌊x⌋ = mantissa) (least : mantissa = 0 → exponent ≤ -1074) :
    Format.binary64.targetExponent (totalExponent mantissa exponent) =
      lastPlace (x * 2 ^ exponent) := by
  rw [target_eq]
  by_cases zero : mantissa = 0
  · have small : x < 1 := by
      have := Int.lt_floor_add_one x
      rwa [floor, zero, Nat.cast_zero, Int.cast_zero, zero_add] at this
    have scaled : x * 2 ^ exponent < 2 ^ (-1074 + 53 : ℤ) := calc
      x * 2 ^ exponent < 1 * 2 ^ exponent := mul_lt_mul_of_pos_right small (two_zpow_pos _)
      _ ≤ 2 ^ (-1074 + 53 : ℤ) := by
        rw [one_mul]
        exact zpow_le_zpow_right₀ (by norm_num) (by have := least zero; omega)
    have product : 0 < x * 2 ^ exponent := mul_pos positive (two_zpow_pos _)
    have upper := lastPlace_le_of_lt product.ne' (by rwa [abs_of_pos product]) le_rfl
    have lower : -1074 ≤ lastPlace (x * 2 ^ exponent) := le_max_right _ _
    have := least zero
    rw [zero, Nat.log2_zero]
    omega
  · rw [lastPlace, log_of_floor floor zero]

theorem standsFor_shiftToExponent {mantissa : ℕ} {exponent target : ℤ} {accuracy : Accuracy}
    {x : ℚ} (h : Leaves accuracy (x - mantissa)) (down : exponent ≤ target) :
    StandsFor (shiftToExponent mantissa exponent accuracy target).1
        (x * 2 ^ exponent / 2 ^ target) ∧
      (shiftToExponent mantissa exponent accuracy target).2 = target := by
  constructor
  · have shifted := (standsFor_ofMantissaAndAccuracy h).shiftRight (target - exponent).toNat
    have scale : (2 : ℚ) ^ target = 2 ^ exponent * 2 ^ (target - exponent).toNat := by
      rw [← zpow_natCast, ← two_zpow_add]
      congr 1
      omega
    rwa [scale, mul_comm x, mul_div_mul_left _ _ (two_zpow_pos exponent).ne']
  · change exponent + ((target - exponent).toNat : ℤ) = target
    omega

/-- Rounding up to `2 ^ 53` leaves one bit too many, which is a zero. -/
theorem shift_rounded {rounded : ℕ} {place : ℤ} (least : -1074 ≤ place)
    (bound : rounded ≤ 2 ^ 53) (full : 2 ^ 52 ≤ rounded ∨ place = -1074) :
    ∃ mantissa exponent, Canonical mantissa exponent ∧
      ((mantissa : ℚ) * 2 ^ exponent = rounded * 2 ^ place) ∧
      (shiftToTargetExponent .binary64 rounded place .exact).1.mantissa = mantissa ∧
      (shiftToTargetExponent .binary64 rounded place .exact).2 = exponent := by
  simp only [shiftToTargetExponent, target_eq]
  rcases bound.lt_or_eq with small | rfl
  · have log : rounded.log2 ≤ 52 := by
      rcases eq_or_ne rounded 0 with rfl | nonzero
      · simp
      · have := (Nat.log2_lt nonzero).mpr small
        omega
    have target : max ((rounded.log2 : ℤ) + place - 52) (-1074) ≤ place := by omega
    refine ⟨rounded, place, ⟨small, least, full⟩, rfl, ?_, ?_⟩
    · simp only [shiftToExponent, Int.toNat_eq_zero.mpr (sub_nonpos.mpr target)]
      rfl
    · simp [shiftToExponent, target]
  · have log : (2 ^ 53 : ℕ).log2 = 53 := Nat.log2_two_pow
    have target : max (((2 ^ 53 : ℕ).log2 : ℤ) + place - 52) (-1074) - place = 1 := by
      rw [log]
      omega
    refine ⟨2 ^ 52, place + 1, ⟨by norm_num, by omega, .inl le_rfl⟩, ?_, ?_, ?_⟩
    · rw [two_zpow_add]
      push_cast
      ring
    · rw [shiftToExponent, target]
      rfl
    · rw [shiftToExponent, target]
      rfl

theorem nearestWhole_scaled_bounds {x : ℚ} (positive : 0 < x) :
    0 ≤ nearestWhole (x / 2 ^ lastPlace x) ∧ nearestWhole (x / 2 ^ lastPlace x) ≤ 2 ^ 53 ∧
      (2 ^ 52 ≤ nearestWhole (x / 2 ^ lastPlace x) ∨ lastPlace x = -1074) := by
  have scale := two_zpow_pos (lastPlace x)
  refine ⟨le_nearestWhole ?_, nearestWhole_le ?_, ?_⟩
  · have := div_pos positive scale
    exact_mod_cast this.le
  · have := abs_lt_two_zpow_lastPlace x
    rw [abs_of_pos positive, add_comm, two_zpow_add] at this
    have := (div_le_iff₀ scale).mpr this.le
    exact_mod_cast this
  · by_cases least : lastPlace x = -1074
    · exact .inr least
    · have place : lastPlace x = Int.log 2 |x| - 52 := by
        unfold lastPlace at least ⊢
        omega
      refine .inl (le_nearestWhole ?_)
      have low := Int.zpow_log_le_self (b := 2) (by norm_num) positive
      rw [abs_of_pos positive] at place
      rw [le_div_iff₀ scale]
      push_cast
      calc
        (2 : ℚ) ^ 52 * 2 ^ lastPlace x = 2 ^ (52 + lastPlace x) := by
          rw [two_zpow_add]
          norm_num
        _ = 2 ^ Int.log 2 x := by rw [place]; congr 1; omega
        _ ≤ x := by exact_mod_cast low

/-- Rounding a cut mantissa gives the float nearest to the exact value. -/
theorem roundWithAccuracy_eq {x : ℚ} {mantissa : ℕ} {exponent : ℤ} {accuracy : Accuracy}
    (sign : Sign) (positive : 0 < x) (h : Leaves accuracy (x - mantissa))
    (down : exponent ≤ Format.binary64.targetExponent (totalExponent mantissa exponent))
    (least : mantissa = 0 → exponent ≤ -1074) :
    ∃ mantissa' exponent', Canonical mantissa' exponent' ∧
      (mantissa' : ℚ) * 2 ^ exponent' = nearest (x * 2 ^ exponent) ∧
      roundWithAccuracy .binary64 sign mantissa exponent accuracy =
        ofParts sign mantissa' exponent' := by
  have floor : ⌊x⌋ = mantissa := by
    have := (standsFor_ofMantissaAndAccuracy h).floor
    rw [this]
    cases accuracy with
    | exact => rfl
    | inexact order => cases order <;> rfl
  have place := target_eq_lastPlace positive floor least
  have product : 0 < x * 2 ^ exponent := mul_pos positive (two_zpow_pos _)
  obtain ⟨stands, shifted⟩ := standsFor_shiftToExponent h down
  rw [place] at stands shifted
  obtain ⟨lower, upper, full⟩ := nearestWhole_scaled_bounds product
  have rounded := stands.roundedMantissa
  obtain ⟨mantissa', exponent', canonical, value, first, second⟩ :=
    @shift_rounded (shiftToExponent mantissa exponent accuracy
        (lastPlace (x * 2 ^ exponent))).1.roundedMantissa (lastPlace (x * 2 ^ exponent))
      (le_max_right _ _) (by omega) (by omega)
  refine ⟨mantissa', exponent', canonical, ?_, ?_⟩
  · rw [value, nearest, ← rounded]
    norm_cast
  · simp only [roundWithAccuracy, shiftToTargetExponent, ofParts] at first second ⊢
    simp only [place, shifted, first, second]

theorem unpackSign_packComponents {spec : Format} {sign exponent mantissa} :
    unpackSign (packComponents spec sign exponent mantissa) = sign.toBitVec := by
  ext i hi
  obtain rfl : i = 0 := by omega
  simp [unpackSign, packComponents, BitVec.getLsbD_eq_getElem, BitVec.getLsbD_append,
    BitVec.getElem_append]

theorem ofBitVec_toBitVec (sign : Sign) : Sign.ofBitVec sign.toBitVec = sign := by
  cases sign <;> rfl

def ofFields (sign : Sign) (exponent : BitVec 11) (mantissa : BitVec 52) : UnpackedFloat :=
  if exponent = -1#11 then if mantissa = 0#52 then .infinity sign else .notANumber
  else if exponent = 0#11 then ofParts sign mantissa.toNat (-1074)
  else ofParts sign (2 ^ 52 + mantissa.toNat) (exponent.toNat - 1075)

theorem unpack_eq_ofFields (bits : BitVec 64) :
    UnpackedFloat.unpack .binary64 bits =
      ofFields (.ofBitVec (@unpackSign .binary64 bits))
        (@unpackExponent .binary64 bits) (@unpackMantissa .binary64 bits) := by
  unfold UnpackedFloat.unpack ofFields ofParts
  dsimp only
  by_cases special : @unpackExponent .binary64 bits = -1#11
  · rw [if_pos special, if_pos special]
  rw [if_neg special, if_neg special]
  by_cases small : @unpackExponent .binary64 bits = 0#11
  · rw [if_pos small, if_pos small]
    by_cases zero : @unpackMantissa .binary64 bits = 0#52
    · rw [dif_pos zero, dif_pos (by rw [zero]; rfl)]
    · have nonzero : (@unpackMantissa .binary64 bits).toNat ≠ 0 :=
        fun h => zero (BitVec.eq_of_toNat_eq h)
      rw [dif_neg zero, dif_neg nonzero]
      congr 1
      rw [small]
      rfl
  · rw [if_neg small, if_neg small, dif_neg (by omega)]
    congr 1
    have low := (@unpackMantissa .binary64 bits).isLt
    rw [BitVec.toNat_append, Nat.shiftLeft_eq, mul_comm, ← Nat.two_pow_add_eq_or_of_lt low]
    rfl

theorem unpack_packComponents (sign : Sign) (exponent : BitVec 11) (mantissa : BitVec 52) :
    UnpackedFloat.unpack .binary64 (packComponents .binary64 sign exponent mantissa) =
      ofFields sign exponent mantissa := by
  rw [unpack_eq_ofFields, unpackSign_packComponents, ofBitVec_toBitVec,
    unpackExponent_packComponents, unpackMantissa_packComponents]

theorem unpack_pack_notANumber : unpack (.ofModel (.pack .notANumber)) = .notANumber :=
  (unpack_packComponents .positive (-1#11) (1#52 <<< 51)).trans rfl

theorem unpack_pack_infinity (sign : Sign) :
    unpack (.ofModel (.pack (.infinity sign))) = .infinity sign :=
  (unpack_packComponents sign (-1#11) 0#52).trans rfl

theorem unpack_pack_zero (sign : Sign) :
    unpack (.ofModel (.pack (.zero sign))) = .zero sign :=
  (unpack_packComponents sign 0#11 0#52).trans rfl

/-- A canonical pair survives packing unless its exponent is too large to be written. -/
theorem unpack_pack_ofParts {mantissa : ℕ} {exponent : ℤ} (sign : Sign)
    (canonical : Canonical mantissa exponent) :
    unpack (.ofModel (.pack (ofParts sign mantissa exponent))) =
      if exponent ≤ 971 then ofParts sign mantissa exponent else .infinity sign := by
  obtain ⟨bound, least, full⟩ := canonical
  unfold ofParts
  by_cases zero : mantissa = 0
  · rw [dif_pos zero, unpack_pack_zero, if_pos (by omega)]
  rw [dif_neg zero]
  change UnpackedFloat.unpack .binary64 (UnpackedFloat.pack .binary64 _) = _
  have biased : (exponent + (Format.binary64.exponentBias : ℕ) + (52 : ℕ)).toNat =
      (exponent + 1075).toNat := by
    change (exponent + 1023 + 52).toNat = _
    omega
  simp only [UnpackedFloat.pack, biased]
  by_cases large : 971 < exponent
  · rw [if_pos (by change 2048 ≤ _; omega), if_neg (by omega)]
    exact unpack_pack_infinity sign
  rw [if_neg (by change ¬2048 ≤ _; omega), if_pos (show exponent ≤ 971 by omega)]
  by_cases short : mantissa < 2 ^ 52
  · have log : mantissa.log2 < 52 := (Nat.log2_lt zero).mpr short
    obtain rfl : exponent = -1074 := full.resolve_left (by omega)
    rw [if_neg (by change ¬_ = 53; omega), unpack_packComponents]
    have kept : (BitVec.ofNat 52 mantissa).toNat = mantissa := by
      rw [BitVec.toNat_ofNat, Nat.mod_eq_of_lt short]
    rw [ofFields, if_neg (by decide), if_pos rfl, kept, ofParts, dif_neg zero]
  · have log : mantissa.log2 = 52 := (Nat.log2_eq_iff zero).mpr ⟨by omega, bound⟩
    rw [if_pos (by change _ = 53; omega), unpack_packComponents]
    have kept : 2 ^ 52 + (BitVec.ofNat 52 mantissa).toNat = mantissa := by
      rw [BitVec.toNat_ofNat]
      omega
    have written : (BitVec.ofNat 11 (exponent + 1075).toNat).toNat = (exponent + 1075).toNat := by
      rw [BitVec.toNat_ofNat]
      omega
    have normal : BitVec.ofNat 11 (exponent + 1075).toNat ≠ -1#11 := by
      intro h
      have := written.symm.trans (congrArg BitVec.toNat h)
      change _ = 2047 at this
      omega
    have nonzero : BitVec.ofNat 11 (exponent + 1075).toNat ≠ 0#11 := by
      intro h
      have := written.symm.trans (congrArg BitVec.toNat h)
      change _ = 0 at this
      omega
    rw [ofFields, if_neg normal, if_neg nonzero, kept, written, ofParts, dif_neg zero]
    congr 1
    omega

theorem canonical_ofFields {sign sign' : Sign} {exponent : BitVec 11} {mantissa : BitVec 52}
    {mantissa' : ℕ} {exponent' : ℤ} {positive : 0 < mantissa'}
    (h : ofFields sign exponent mantissa = .finite sign' mantissa' exponent' positive) :
    Canonical mantissa' exponent' ∧ exponent' ≤ 971 := by
  have short := mantissa.isLt
  have written := exponent.isLt
  unfold ofFields ofParts at h
  split_ifs at h with special _ small _ _
  · cases h
    exact ⟨⟨by omega, le_rfl, .inr rfl⟩, by norm_num⟩
  · have nonzero : exponent.toNat ≠ 0 := fun h => small (BitVec.eq_of_toNat_eq h)
    have normal : exponent.toNat ≠ 2047 := fun h => special (BitVec.eq_of_toNat_eq h)
    cases h
    exact ⟨⟨by omega, by omega, .inl (by omega)⟩, by omega⟩

theorem canonical_of_unpack {x : Float} {sign : Sign} {mantissa : ℕ} {exponent : ℤ}
    {positive : 0 < mantissa} (h : unpack x = .finite sign mantissa exponent positive) :
    Canonical mantissa exponent ∧ exponent ≤ 971 :=
  canonical_ofFields ((unpack_eq_ofFields x.toModel.toBits.toBitVec).symm.trans h)

theorem packComponents_fields (bits : BitVec 64) :
    packComponents .binary64 (.ofBitVec (@unpackSign .binary64 bits))
      (@unpackExponent .binary64 bits) (@unpackMantissa .binary64 bits) = bits := by
  have sign (bit : BitVec 1) : (Sign.ofBitVec bit).toBitVec = bit := by
    obtain rfl | rfl := bit.eq_zero_or_eq_one <;> rfl
  have front : bits.extractLsb' (52 + 11) 1 ++ bits.extractLsb' 52 11 = bits.extractLsb' 52 12 :=
    BitVec.extractLsb'_append_extractLsb'_eq_extractLsb' rfl
  have whole : bits.extractLsb' (0 + 52) 12 ++ bits.extractLsb' 0 52 = bits.extractLsb' 0 64 :=
    BitVec.extractLsb'_append_extractLsb'_eq_extractLsb' rfl
  rw [packComponents, sign]
  calc
    (bits.extractLsb' 63 1 ++ bits.extractLsb' 52 11) ++ bits.extractLsb' 0 52 =
        bits.extractLsb' 52 12 ++ bits.extractLsb' 0 52 := congrArg (· ++ _) front
    _ = bits.extractLsb' 0 64 := whole
    _ = bits := BitVec.extractLsb'_eq_self

theorem pack_ofFields (sign : Sign) {exponent : BitVec 11} {mantissa : BitVec 52}
    (number : exponent = -1#11 → mantissa = 0#52) :
    UnpackedFloat.pack .binary64 (ofFields sign exponent mantissa) =
      packComponents .binary64 sign exponent mantissa := by
  have short := mantissa.isLt
  have bound := exponent.isLt
  have back {w : ℕ} (bits : BitVec w) : BitVec.ofNat w bits.toNat = bits := by simp
  unfold ofFields
  by_cases special : exponent = -1#11
  · rw [if_pos special, if_pos (number special), special, number special]
    rfl
  have written : exponent.toNat ≠ 2047 := fun h => special (BitVec.eq_of_toNat_eq h)
  rw [if_neg special]
  by_cases small : exponent = 0#11
  · rw [if_pos small, ofParts, small]
    by_cases zero : mantissa.toNat = 0
    · rw [dif_pos zero, show mantissa = 0#52 from BitVec.eq_of_toNat_eq zero]
      rfl
    · have log : mantissa.toNat.log2 < 52 := (Nat.log2_lt zero).mpr short
      rw [dif_neg zero, UnpackedFloat.pack, if_neg (by decide), if_neg (by change ¬_ = 53; omega)]
      exact congrArg _ (back mantissa)
  · have nonzero : exponent.toNat ≠ 0 := fun h => small (BitVec.eq_of_toNat_eq h)
    have log : (2 ^ 52 + mantissa.toNat).log2 = 52 :=
      (Nat.log2_eq_iff (by omega)).mpr ⟨by omega, by omega⟩
    have biased : ((exponent.toNat - 1075 : ℤ) + (Format.binary64.exponentBias : ℕ) +
        (52 : ℕ)).toNat = exponent.toNat := by
      change ((exponent.toNat - 1075 : ℤ) + 1023 + 52).toNat = _
      omega
    rw [if_neg small, ofParts, dif_neg (by omega)]
    simp only [UnpackedFloat.pack, biased]
    rw [if_neg (by change ¬2048 ≤ _; omega), if_pos (by change _ = 53; omega)]
    congr 1
    · exact back exponent
    · refine BitVec.eq_of_toNat_eq ?_
      change (2 ^ 52 + mantissa.toNat) % 2 ^ 52 = mantissa.toNat
      omega

theorem pack_unpack (x : Float) : .ofModel (.pack (unpack x)) = x := by
  obtain ⟨⟨⟨bits⟩, ⟨canonical⟩⟩⟩ := x
  have whole : UnpackedFloat.pack .binary64 (UnpackedFloat.unpack .binary64 bits) = bits := by
    rw [unpack_eq_ofFields]
    by_cases number : @unpackExponent .binary64 bits = -1#11 → @unpackMantissa .binary64 bits = 0#52
    · rw [pack_ofFields _ number, packComponents_fields]
    · rw [Classical.not_imp] at number
      rw [ofFields, if_pos number.1, if_neg number.2]
      exact (canonical number.1 number.2).symm
  refine congrArg Float.ofModel ?_
  simp only [Float.Model.pack, unpack, Float.Model.unpack, whole]

theorem unpack_injective : Function.Injective unpack :=
  Function.HasLeftInverse.injective ⟨fun parts => .ofModel (.pack parts), pack_unpack⟩

end FormulaLayout.Number
