import FormulaLayout.Number.Whole
import FormulaLayout.Proofs.Number.Packing

/-! The operations on finite floats give the float nearest to the exact result, or the infinity of
its sign where that float would be too large. Each operation reduces to one rounding of an exact
mantissa and exponent; the division alone cuts its mantissa before it rounds. -/
namespace FormulaLayout.Number
open Float.Model Float.Model.UnpackedFloat

def Rounds (q : ℚ) (x : Float) : Prop :=
  if |nearest q| < 2 ^ (1024 : ℤ) then value? x = some (nearest q)
  else unpack x = .infinity (if 0 ≤ q then .positive else .negative)

theorem Canonical.lt_iff {mantissa : ℕ} {exponent : ℤ} (h : Canonical mantissa exponent) :
    (mantissa : ℚ) * 2 ^ exponent < 2 ^ (1024 : ℤ) ↔ exponent ≤ 971 := by
  have scale := two_zpow_pos exponent
  have split : (2 : ℚ) ^ (1024 : ℤ) = 2 ^ (1024 - exponent) * 2 ^ exponent := by
    rw [← two_zpow_add, sub_add_cancel]
  rw [split, mul_lt_mul_iff_left₀ scale]
  constructor
  · intro small
    by_contra large
    have full : ((2 ^ 52 : ℕ) : ℚ) ≤ mantissa := by
      exact_mod_cast h.2.2.resolve_right (by omega)
    have : (2 : ℚ) ^ (1024 - exponent) ≤ 2 ^ (52 : ℤ) :=
      zpow_le_zpow_right₀ (by norm_num) (by omega)
    have : (mantissa : ℚ) < 2 ^ 52 := small.trans_le (by exact_mod_cast this)
    push_cast at full
    linarith
  · intro small
    have short : (mantissa : ℚ) < (2 ^ 53 : ℕ) := by exact_mod_cast h.1
    have : (2 : ℚ) ^ (53 : ℤ) ≤ 2 ^ (1024 - exponent) :=
      zpow_le_zpow_right₀ (by norm_num) (by omega)
    calc
      (mantissa : ℚ) < (2 ^ 53 : ℕ) := short
      _ = 2 ^ (53 : ℤ) := by norm_cast
      _ ≤ 2 ^ (1024 - exponent) := this

theorem Canonical.fits {mantissa : ℕ} {exponent : ℤ} (h : Canonical mantissa exponent) :
    Fits (mantissa * 2 ^ exponent) :=
  ⟨mantissa, exponent, by have := h.1; rw [abs_of_nonneg] <;> omega, h.2.1, by push_cast; rfl⟩

theorem rounds_of_parts {q : ℚ} {mantissa : ℕ} {exponent : ℤ} (sign : Sign) (positive : 0 < q)
    (canonical : Canonical mantissa exponent) (value : mantissa * 2 ^ exponent = nearest q) :
    Rounds (signed sign q) (.ofModel (.pack (ofParts sign mantissa exponent))) := by
  have size : |nearest (signed sign q)| = mantissa * 2 ^ exponent := by
    rw [nearest_signed, abs_signed, ← value]
    exact abs_of_nonneg (scaled_nonneg mantissa exponent)
  simp only [Rounds, size, canonical.lt_iff, value?, unpack_pack_ofParts sign canonical]
  split
  · rw [unpackedValue?_ofParts, nearest_signed, value]
  · cases sign with
    | negative => rw [if_neg (by simpa [signed] using positive)]
    | positive => rw [if_pos (show 0 ≤ signed .positive q from positive.le)]

theorem rounds_zero (sign : Sign) : Rounds 0 (.ofModel (.pack (.zero sign))) := by
  simp [Rounds, value?, unpack_pack_zero, unpackedValue?]

theorem decreaseExponent_eq (mantissa : ℕ) (exponent target : ℤ) :
    decreaseExponent mantissa exponent target =
      (mantissa * 2 ^ (exponent - target).toNat, min exponent target) := by
  simp only [decreaseExponent, Nat.shiftLeft_eq, Prod.mk.injEq, true_and]
  omega

theorem decreased_value (mantissa : ℕ) (exponent target : ℤ) :
    ((mantissa * 2 ^ (exponent - target).toNat : ℕ) : ℚ) * 2 ^ min exponent target =
      mantissa * 2 ^ exponent := by
  push_cast
  rw [mul_assoc, ← zpow_natCast, ← two_zpow_add]
  congr 2
  omega

theorem log2_mul_two_pow {n : ℕ} (positive : 0 < n) (count : ℕ) :
    (n * 2 ^ count).log2 = n.log2 + count := by
  induction count with
  | zero => simp
  | succ count ih =>
    have scaled : n * 2 ^ count ≠ 0 := (Nat.mul_pos positive (Nat.two_pow_pos _)).ne'
    rw [pow_succ, ← mul_assoc, mul_comm _ 2, Nat.log2_two_mul scaled, ih]
    rfl

theorem rounds_round (sign : Sign) {mantissa : ℕ} (positive : 0 < mantissa) (exponent : ℤ) :
    Rounds (signed sign (mantissa * 2 ^ exponent))
      (.ofModel (.pack (UnpackedFloat.round .binary64 sign mantissa exponent))) := by
  have scaled : 0 < mantissa * 2 ^ (exponent - Format.binary64.targetExponent
      (totalExponent mantissa exponent)).toNat := Nat.mul_pos positive (Nat.two_pow_pos _)
  rw [← decreased_value mantissa exponent
    (Format.binary64.targetExponent (totalExponent mantissa exponent))]
  simp only [UnpackedFloat.round, decreaseExponent_eq]
  generalize target : Format.binary64.targetExponent (totalExponent mantissa exponent) = place
    at scaled ⊢
  rw [target_eq] at target
  obtain ⟨mantissa', exponent', canonical, value, result⟩ :=
    @roundWithAccuracy_eq _ _ (min exponent place) .exact sign (Nat.cast_pos.mpr scaled)
      (sub_self _) (by rw [target_eq, log2_mul_two_pow positive]; omega) (by omega)
  rw [result]
  exact rounds_of_parts sign (mul_pos (Nat.cast_pos.mpr scaled) (two_zpow_pos _)) canonical value

theorem rounds_normalize (mantissa exponent : ℤ) (zeroSign : Sign) :
    Rounds (mantissa * 2 ^ exponent)
      (.ofModel (.pack (UnpackedFloat.normalize .binary64 mantissa exponent zeroSign))) := by
  unfold UnpackedFloat.normalize
  split
  · next below =>
    have negative : mantissa < 0 := compare_lt_iff_lt.mp below
    have rounds := rounds_round .negative (show 0 < (-mantissa).toNat by omega) exponent
    have same : ((-mantissa).toNat : ℚ) = -mantissa := by
      exact_mod_cast Int.toNat_of_nonneg (show 0 ≤ -mantissa by omega)
    rwa [same, signed, neg_mul, neg_neg] at rounds
  · next none =>
    have zero : mantissa = 0 := compare_eq_iff_eq.mp none
    rw [zero, Int.cast_zero, zero_mul]
    exact rounds_zero zeroSign
  · next above =>
    have positive : 0 < mantissa := compare_gt_iff_gt.mp above
    have rounds := rounds_round .positive (show 0 < mantissa.toNat by omega) exponent
    have same : (mantissa.toNat : ℚ) = mantissa := by
      exact_mod_cast Int.toNat_of_nonneg positive.le
    rwa [same, signed] at rounds

theorem rounds_ofWhole (n : ℤ) : Rounds n (ofWhole n) := by
  simpa [ofWhole, Float.Model.ofInt, UnpackedFloat.ofInt] using rounds_normalize n 0 .positive

theorem add_eq_packed (x y : Float) :
    x + y = .ofModel (.pack (UnpackedFloat.add .binary64 (unpack x) (unpack y))) := rfl

theorem float_add_comm (x y : Float) : x + y = y + x := by
  rw [add_eq_packed, add_eq_packed]
  congr 2
  cases unpack x <;> cases unpack y <;> try rfl
  -- equal signs are kept and opposite ones meet in the middle, whichever stands first
  case infinity.infinity sign sign' | zero.zero sign sign' =>
    cases sign <;> cases sign' <;> rfl
  case finite.finite sign mantissa exponent _ sign' mantissa' exponent' _ =>
    simp only [UnpackedFloat.add, min_comm exponent exponent', Int.add_comm]

theorem mul_eq_packed (x y : Float) :
    x * y = .ofModel (.pack (UnpackedFloat.mul .binary64 (unpack x) (unpack y))) := rfl

theorem div_eq_packed (x y : Float) :
    x / y = .ofModel (.pack (UnpackedFloat.div .binary64 (unpack x) (unpack y))) := rfl

theorem ofParts_of_pos (sign : Sign) {mantissa : ℕ} (exponent : ℤ) (positive : 0 < mantissa) :
    ofParts sign mantissa exponent = .finite sign mantissa exponent positive :=
  dif_neg positive.ne'

theorem unpack_pack_unpack (x : Float) : unpack (.ofModel (.pack (unpack x))) = unpack x := by
  rw [pack_unpack]

theorem rounds_of_unpack_eq {q : ℚ} {x y : Float} (same : unpack x = unpack y)
    (h : Rounds q x) : Rounds q y := by
  simpa only [Rounds, value?, same] using h

theorem unpack_of_value {x : Float} {a : ℚ} (h : value? x = some a) :
    (∃ sign, unpack x = .zero sign ∧ a = 0) ∨
      ∃ sign mantissa exponent positive, unpack x = .finite sign mantissa exponent positive ∧
        a = signed sign (mantissa * 2 ^ exponent) := by
  unfold value? at h
  cases unpacked : unpack x with
  | infinity sign | notANumber => simp [unpacked, unpackedValue?] at h
  | zero sign =>
    refine .inl ⟨sign, rfl, ?_⟩
    simpa [unpacked, unpackedValue?, eq_comm] using h
  | finite sign mantissa exponent positive =>
    refine .inr ⟨sign, mantissa, exponent, positive, rfl, ?_⟩
    simpa [unpacked, unpackedValue?, eq_comm] using h

theorem fits_of_value {x : Float} {a : ℚ} (h : value? x = some a) :
    Fits a ∧ |a| < 2 ^ (1024 : ℤ) := by
  obtain ⟨sign, -, rfl⟩ | ⟨sign, mantissa, exponent, positive, unpacked, rfl⟩ := unpack_of_value h
  · exact ⟨⟨0, 0, by norm_num, by norm_num, by norm_num⟩, by simp⟩
  · obtain ⟨canonical, small⟩ := canonical_of_unpack unpacked
    rw [abs_signed, abs_of_nonneg (scaled_nonneg mantissa exponent)]
    refine ⟨?_, canonical.lt_iff.mpr small⟩
    cases sign
    · exact canonical.fits.neg
    · exact canonical.fits

theorem rounds_self {x : Float} {a : ℚ} (h : value? x = some a) : Rounds a x := by
  obtain ⟨fits, bound⟩ := fits_of_value h
  rw [Rounds, nearest_of_fits fits, if_pos bound, h]

theorem decreased_signed (sign : Sign) (mantissa : ℕ) (exponent target : ℤ) :
    (sign.apply (mantissa * 2 ^ (exponent - target).toNat : ℕ) : ℚ) * 2 ^ min exponent target =
      signed sign (mantissa * 2 ^ exponent) := by
  rw [← decreased_value mantissa exponent target, ← signed_eq_apply]
  cases sign
  · exact neg_mul _ _
  · rfl

theorem rounds_add {x y : Float} {a b : ℚ} (left : value? x = some a) (right : value? y = some b) :
    Rounds (a + b) (x + y) := by
  rw [add_eq_packed]
  obtain ⟨sign, first, rfl⟩ | ⟨sign, mantissa, exponent, positive, first, rfl⟩ :=
      unpack_of_value left <;>
    obtain ⟨sign', second, rfl⟩ | ⟨sign', mantissa', exponent', positive', second, rfl⟩ :=
      unpack_of_value right
  · rw [first, second, add_zero]
    simp only [UnpackedFloat.add]
    split <;> exact rounds_zero _
  · rw [zero_add]
    refine rounds_of_unpack_eq ((unpack_pack_unpack y).symm.trans ?_) (rounds_self right)
    rw [first, second]
    rfl
  · rw [add_zero]
    refine rounds_of_unpack_eq ((unpack_pack_unpack x).symm.trans ?_) (rounds_self left)
    rw [first, second]
    rfl
  · have total := rounds_normalize
      (sign.apply (mantissa * 2 ^ (exponent - min exponent exponent').toNat : ℕ) +
        sign'.apply (mantissa' * 2 ^ (exponent' - min exponent exponent').toNat : ℕ))
      (min exponent exponent') .positive
    have least := decreased_signed sign mantissa exponent (min exponent exponent')
    have least' := decreased_signed sign' mantissa' exponent' (min exponent exponent')
    rw [min_eq_right (min_le_left _ _)] at least
    rw [min_eq_right (min_le_right _ _)] at least'
    rw [Int.cast_add, add_mul, least, least'] at total
    rw [first, second]
    simpa only [UnpackedFloat.add, decreaseExponent_eq] using total

theorem neg_eq_packed (x : Float) : -x = .ofModel (.pack (unpack x).neg) := rfl

theorem sub_eq_packed (x y : Float) :
    x - y = .ofModel (.pack (UnpackedFloat.sub .binary64 (unpack x) (unpack y))) := rfl

theorem unpack_neg (x : Float) : unpack (-x) = (unpack x).neg := by
  rw [neg_eq_packed]
  cases h : unpack x with
  | infinity sign => exact unpack_pack_infinity (-sign)
  | notANumber => exact unpack_pack_notANumber
  | zero sign => exact unpack_pack_zero (-sign)
  | finite sign mantissa exponent positive =>
    obtain ⟨canonical, small⟩ := canonical_of_unpack h
    rw [UnpackedFloat.neg, ← ofParts_of_pos (-sign) exponent positive,
      unpack_pack_ofParts (-sign) canonical, if_pos small]

theorem value?_neg {x : Float} {a : ℚ} (h : value? x = some a) : value? (-x) = some (-a) := by
  obtain ⟨sign, zero, rfl⟩ | ⟨sign, mantissa, exponent, positive, finite, rfl⟩ := unpack_of_value h
  · rw [value?, unpack_neg, zero, neg_zero]
    rfl
  · rw [value?, unpack_neg, finite, ← signed_neg]
    rfl

theorem float_sub_eq (x y : Float) : x - y = x + -y := by
  rw [sub_eq_packed, add_eq_packed, unpack_neg]
  congr 2
  cases unpack x <;> cases unpack y <;> try rfl
  case finite.finite sign mantissa exponent _ sign' mantissa' exponent' _ =>
    have flipped (n : ℤ) : (-sign').apply n = -sign'.apply n := by
      cases sign'
      · exact (Int.neg_neg n).symm
      · rfl
    simp only [UnpackedFloat.sub, UnpackedFloat.add, UnpackedFloat.neg, flipped, Int.sub_eq_add_neg]

theorem rounds_sub {x y : Float} {a b : ℚ} (left : value? x = some a) (right : value? y = some b) :
    Rounds (a - b) (x - y) := by
  rw [float_sub_eq, sub_eq_add_neg]
  exact rounds_add left (value?_neg right)

/-- Of two canonical mantissas one is full or both stand at the least exponent, so that their
product is never too short to be rounded. -/
theorem product_exponent_le_target {mantissa mantissa' : ℕ} {exponent exponent' : ℤ}
    (h : Canonical mantissa exponent) (h' : Canonical mantissa' exponent')
    (positive : 0 < mantissa) (positive' : 0 < mantissa') :
    exponent + exponent' ≤ Format.binary64.targetExponent
      (totalExponent (mantissa * mantissa') (exponent + exponent')) := by
  have product : mantissa * mantissa' ≠ 0 := (Nat.mul_pos positive positive').ne'
  rw [target_eq]
  by_cases full : 2 ^ 52 ≤ mantissa * mantissa'
  · have := (Nat.le_log2 product).mpr full
    omega
  · have short : mantissa < 2 ^ 52 := lt_of_not_ge fun large =>
      full (large.trans (Nat.le_mul_of_pos_right _ positive'))
    have short' : mantissa' < 2 ^ 52 := lt_of_not_ge fun large =>
      full (large.trans (Nat.le_mul_of_pos_left _ positive))
    have := h.2.2.resolve_left (by omega)
    have := h'.2.2.resolve_left (by omega)
    omega

theorem rounds_mul {x y : Float} {a b : ℚ} (left : value? x = some a) (right : value? y = some b) :
    Rounds (a * b) (x * y) := by
  rw [mul_eq_packed]
  obtain ⟨sign, first, rfl⟩ | ⟨sign, mantissa, exponent, positive, first, rfl⟩ :=
      unpack_of_value left <;>
    obtain ⟨sign', second, rfl⟩ | ⟨sign', mantissa', exponent', positive', second, rfl⟩ :=
      unpack_of_value right <;>
    rw [first, second]
  · rw [zero_mul]
    exact rounds_zero _
  · rw [zero_mul]
    exact rounds_zero _
  · rw [mul_zero]
    exact rounds_zero _
  · have size : 0 < mantissa * mantissa' := Nat.mul_pos positive positive'
    have exact : signed sign (mantissa * 2 ^ exponent) * signed sign' (mantissa' * 2 ^ exponent') =
        signed (sign * sign') ((mantissa * mantissa' : ℕ) * 2 ^ (exponent + exponent')) := by
      rw [signed_mul_signed, two_zpow_add]
      push_cast
      congr 1
      ring
    obtain ⟨mantissa'', exponent'', canonical, value, result⟩ :=
      @roundWithAccuracy_eq _ _ (exponent + exponent') .exact (sign * sign')
        (Nat.cast_pos.mpr size) (sub_self _)
        (product_exponent_le_target (canonical_of_unpack first).1 (canonical_of_unpack second).1
          positive positive') (by omega)
    rw [exact]
    simp only [UnpackedFloat.mul, result]
    exact rounds_of_parts _ (mul_pos (Nat.cast_pos.mpr size) (two_zpow_pos _)) canonical value

theorem leaves_accuracyOfFraction {num den : ℕ} (less : num < den) :
    Leaves (accuracyOfFraction num den) (num / den) := by
  have size : (0 : ℚ) < den := by exact_mod_cast Nat.zero_lt_of_lt less
  have less' : (num : ℚ) < den := by exact_mod_cast less
  unfold accuracyOfFraction
  split
  · next zero => simp [Leaves, zero]
  · next nonzero =>
    have positive : (0 : ℚ) < num := by exact_mod_cast Nat.pos_of_ne_zero nonzero
    cases order : compare (2 * num) den with
    | lt =>
      have half : (2 * num : ℚ) < den := by exact_mod_cast compare_lt_iff_lt.mp order
      exact ⟨div_pos positive size, by rw [div_lt_div_iff₀ size two_pos]; linarith⟩
    | eq =>
      have half : (2 * num : ℚ) = den := by exact_mod_cast compare_eq_iff_eq.mp order
      exact (div_eq_div_iff size.ne' two_ne_zero).mpr (by linarith)
    | gt =>
      have half : (den : ℚ) < 2 * num := by exact_mod_cast compare_gt_iff_gt.mp order
      exact ⟨by rw [div_lt_div_iff₀ two_pos size]; linarith, (div_lt_one size).mpr less'⟩

theorem leaves_quotient (num : ℕ) {den : ℕ} (positive : 0 < den) :
    Leaves (accuracyOfFraction (num % den) den) (num / den - (num / den : ℕ)) := by
  have size : (den : ℚ) ≠ 0 := by exact_mod_cast positive.ne'
  have parts : (num : ℚ) = den * (num / den : ℕ) + (num % den : ℕ) := by
    exact_mod_cast (Nat.div_add_mod num den).symm
  have rest : (num : ℚ) / den - (num / den : ℕ) = (num % den : ℕ) / den := by
    rw [div_sub' size, eq_sub_of_add_eq' parts.symm]
  rw [rest]
  exact leaves_accuracyOfFraction (Nat.mod_lt _ positive)

/-- The dividend is shifted until the quotient is full or stands at the least exponent. -/
theorem full_quotient {mantissa mantissa' shift : ℕ} (positive : 0 < mantissa)
    (positive' : 0 < mantissa') (enough : mantissa'.log2 + 53 ≤ mantissa.log2 + shift) :
    2 ^ 52 ≤ mantissa * 2 ^ shift / mantissa' := by
  rw [Nat.le_div_iff_mul_le positive']
  calc
    2 ^ 52 * mantissa' ≤ 2 ^ 52 * 2 ^ (mantissa'.log2 + 1) :=
      Nat.mul_le_mul_left _ Nat.lt_log2_self.le
    _ = 2 ^ (mantissa'.log2 + 53) := by rw [← pow_add]; congr 1; omega
    _ ≤ 2 ^ (mantissa.log2 + shift) := Nat.pow_le_pow_right (by norm_num) enough
    _ = 2 ^ mantissa.log2 * 2 ^ shift := pow_add ..
    _ ≤ mantissa * 2 ^ shift := Nat.mul_le_mul_right _ (Nat.log2_self_le positive.ne')

theorem rounds_div {x y : Float} {a b : ℚ} (left : value? x = some a) (right : value? y = some b)
    (nonzero : b ≠ 0) : Rounds (a / b) (x / y) := by
  rw [div_eq_packed]
  obtain ⟨sign', second, rfl⟩ | ⟨sign', mantissa', exponent', positive', second, rfl⟩ :=
    unpack_of_value right
  · exact absurd rfl nonzero
  obtain ⟨sign, first, rfl⟩ | ⟨sign, mantissa, exponent, positive, first, rfl⟩ :=
    unpack_of_value left
  · rw [first, second, zero_div]
    exact rounds_zero _
  rw [first, second, signed_div_signed]
  simp only [UnpackedFloat.div, divCore, Nat.shiftLeft_eq]
  generalize place : min (exponent - exponent') (Format.binary64.targetExponent
    (totalExponent mantissa exponent - totalExponent mantissa' exponent')) = target
  generalize shifted : (exponent - exponent' - target).toNat = shift
  have size : (0 : ℚ) < mantissa := by exact_mod_cast positive
  have size' : (0 : ℚ) < mantissa' := by exact_mod_cast positive'
  have full : -1074 < target → 2 ^ 52 ≤ mantissa * 2 ^ shift / mantissa' := by
    intro above
    simp only [Format.targetExponent, totalExponent, Format.minExponent, Format.mantissaBits]
      at place
    exact full_quotient positive positive' (by omega)
  have exact : (mantissa * 2 ^ exponent : ℚ) / (mantissa' * 2 ^ exponent') =
      (mantissa * 2 ^ shift : ℕ) / mantissa' * 2 ^ target := by
    have split : (2 : ℚ) ^ exponent = 2 ^ exponent' * (2 ^ shift * 2 ^ target) := by
      rw [← zpow_natCast, ← two_zpow_add, ← two_zpow_add]
      congr 1
      omega
    have := two_zpow_pos exponent'
    rw [split]
    push_cast
    field_simp
  have quotient_pos : (0 : ℚ) < (mantissa * 2 ^ shift : ℕ) / mantissa' := by
    push_cast
    positivity
  obtain ⟨mantissa'', exponent'', canonical, value, result⟩ :=
    @roundWithAccuracy_eq ((mantissa * 2 ^ shift : ℕ) / mantissa') _ target _ (sign / sign')
      quotient_pos (leaves_quotient _ positive')
      (by
        rw [target_eq]
        by_cases above : -1074 < target
        · have := (Nat.le_log2 (by have := full above; omega)).mpr (full above)
          omega
        · omega)
      (by
        intro zero
        by_contra above
        have := full (by omega)
        omega)
  rw [result, exact]
  exact rounds_of_parts _ (mul_pos quotient_pos (two_zpow_pos _)) canonical value

theorem abs_nearest (x : ℚ) : |nearest x| = nearest |x| := by
  rcases le_total 0 x with nonneg | nonpos
  · rw [abs_of_nonneg nonneg, abs_of_nonneg (nearest_nonneg nonneg)]
  · have opposite := nearest_nonneg (neg_nonneg.mpr nonpos)
    rw [abs_of_nonpos nonpos, nearest_neg] at *
    exact abs_of_nonpos (neg_nonneg.mp opposite)

theorem Rounds.isSome_iff {q : ℚ} {x : Float} (h : Rounds q x) :
    (value? x).isSome = true ↔ |nearest q| < 2 ^ (1024 : ℤ) := by
  unfold Rounds at h
  split at h
  · next small => exact iff_of_true (by rw [h]; rfl) small
  · next large => exact iff_of_false (by simp [value?, h, unpackedValue?]) large

-- the exponent stands behind a name, or else the power would be evaluated by every tactic
theorem exists_wholeLimit_eq : ∃ k : ℕ, k = 970 ∧ wholeLimit = (2 ^ 54 - 1) * 2 ^ k :=
  ⟨970, rfl, by decide +kernel⟩

theorem cast_wholeLimit : (wholeLimit : ℚ) = ((2 ^ 53 : ℤ) - 1 / 2) * 2 ^ (971 : ℤ) := by
  obtain ⟨k, exponent, limit⟩ := exists_wholeLimit_eq
  rw [limit, show (971 : ℤ) = (k : ℤ) + 1 by omega, zpow_add₀ two_ne_zero, zpow_natCast]
  push_cast
  ring

theorem holdsWhole_of_bounds {n : ℤ} (low : -2 ^ 250 ≤ n) (high : n ≤ 2 ^ 250) : HoldsWhole n := by
  obtain ⟨k, exponent, limit⟩ := exists_wholeLimit_eq
  have below : 2 ^ 250 < wholeLimit :=
    calc 2 ^ 250 < 2 ^ k := Nat.pow_lt_pow_right one_lt_two (by omega)
      _ ≤ (2 ^ 54 - 1) * 2 ^ k := Nat.le_mul_of_pos_left _ (by decide)
      _ = wholeLimit := limit.symm
  unfold HoldsWhole
  omega

theorem holdsWhole_iff (n : ℤ) : HoldsWhole n ↔ (value? (ofWhole n)).isSome = true := by
  have power : ((2 ^ 53 : ℤ) : ℚ) * 2 ^ (971 : ℤ) = 2 ^ (1024 : ℤ) := by
    rw [Int.cast_pow, Int.cast_ofNat, ← zpow_natCast, ← two_zpow_add]
    rfl
  have least := le_nearest_iff (n := 2 ^ 53) (k := 971) (by decide) (by norm_num) le_rfl
    (by norm_num) |(n : ℚ)|
  rw [← cast_wholeLimit, power] at least
  rw [(rounds_ofWhole n).isSome_iff, abs_nearest, ← not_le, least, not_le, HoldsWhole,
    ← Int.cast_abs, Int.abs_eq_natAbs, Int.cast_natCast, Nat.cast_lt]

end FormulaLayout.Number
