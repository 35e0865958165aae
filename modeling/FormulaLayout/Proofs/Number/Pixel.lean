import FormulaLayout.Number.Decimal
import FormulaLayout.Proofs.Number.Amount
import FormulaLayout.Proofs.Number.HalfUp
import FormulaLayout.Proofs.Number.Order

/-! From floats to pixels. Both conversions go by the value of a finite float, one by its whole part
and one by the floor of the value raised by one half and rounded, and hold the result within the
pixel space. They agree on all that is no finite float: an infinity is held at its end, and what is
not a number is zero. So either one is monotone, because comparing floats is comparing values. -/
namespace FormulaLayout.Number
open Float.Model Float.Model.UnpackedFloat

def wholePart (q : ℚ) : ℤ := if 0 ≤ q then ⌊q⌋ else ⌈q⌉

theorem wholePart_of_nonneg {q : ℚ} (h : 0 ≤ q) : wholePart q = ⌊q⌋ := if_pos h

theorem wholePart_neg (q : ℚ) : wholePart (-q) = -wholePart q := by
  unfold wholePart
  rcases lt_trichotomy q 0 with negative | rfl | positive
  · rw [if_pos (neg_nonneg.mpr negative.le), if_neg (not_le.mpr negative), Int.floor_neg]
  · simp
  · rw [if_neg (by linarith), if_pos positive.le, Int.ceil_neg]

theorem wholePart_intCast (n : ℤ) : wholePart n = n := by
  simp [wholePart]

theorem wholePart_mono : Monotone wholePart := by
  intro q q' h
  unfold wholePart
  split_ifs with above above' above'
  · exact Int.floor_le_floor h
  · exact absurd (above.trans h) above'
  · calc
      ⌈q⌉ ≤ 0 := Int.ceil_nonpos.mpr (not_le.mp above).le
      _ ≤ ⌊q'⌋ := Int.floor_nonneg.mpr above'
  · exact Int.ceil_le_ceil h

theorem towardZero_eq_wholePart (sign : Sign) (mantissa : ℕ) (exponent : ℤ) :
    towardZero sign mantissa exponent = wholePart (signed sign (mantissa * 2 ^ exponent)) := by
  have positive : towardZero .positive mantissa exponent = wholePart (mantissa * 2 ^ exponent) := by
    rw [← downward_positive, downward_eq_floor,
      wholePart_of_nonneg (scaled_nonneg mantissa exponent)]
    rfl
  cases sign with
  | negative => rw [signed, wholePart_neg, ← positive]; rfl
  | positive => exact positive

/-- A conversion that goes by the value of a finite float and is held within the pixel space. -/
structure GoesBy (whole : ℚ → ℤ) (convert : Float → ℤ) : Prop where
  bounds : ∀ x, pixelMin ≤ convert x ∧ convert x ≤ pixelMax
  undefined : ∀ x, unpack x = .notANumber → convert x = 0
  low : ∀ x, unpack x = .infinity .negative → convert x = pixelMin
  high : ∀ x, unpack x = .infinity .positive → convert x = pixelMax
  finite : ∀ x q, value? x = some q → convert x = clampPixel (whole q)

namespace GoesBy
variable {whole : ℚ → ℤ} {convert : Float → ℤ} (goes : GoesBy whole convert)
include goes

theorem monotone (mono : Monotone whole) {x y : Float} (h : x ≤ y) : convert x ≤ convert y := by
  obtain low | high | ⟨a, b, left, right, less⟩ := exists_values_of_le h
  · rw [goes.low x low]
    exact (goes.bounds y).1
  · rw [goes.high y high]
    exact (goes.bounds x).2
  · rw [goes.finite x a left, goes.finite y b right]
    exact clampPixel_mono (mono less)

theorem of_whole {n : ℤ} (keeps : whole n = n) (low : pixelMin ≤ n) (high : n ≤ pixelMax)
    {x : Float} (value : value? x = some (n : ℚ)) : convert x = n := by
  rw [goes.finite x n value, keeps, clampPixel_of_bounds low high]

end GoesBy

theorem truncatePixel_goesBy : GoesBy wholePart truncatePixel where
  bounds := truncatePixel_bounds
  undefined x h := by rw [truncatePixel_eq, h]
  low x h := by rw [truncatePixel_eq, h]
  high x h := by rw [truncatePixel_eq, h]
  finite x q value := by
    rw [truncatePixel_eq]
    obtain ⟨sign, zero, rfl⟩ | ⟨sign, mantissa, exponent, positive, finite, rfl⟩ :=
      unpack_of_value value
    · rw [zero]
      rfl
    · rw [finite, ← towardZero_eq_wholePart]

theorem unpack_of_isNaN {x : Float} (h : x.isNaN = true) : unpack x = .notANumber := by
  have undefined : (unpack x).isNaN = true := h
  cases unpacked : unpack x with
  | notANumber => rfl
  | infinity | zero | finite => rw [unpacked] at undefined; cases undefined

theorem unpack_half : unpack 0.5 = .finite .positive (2 ^ 52) (-53) (by decide) := rfl

theorem unpack_add_half {x : Float} (infinite : value? x = none) : unpack (x + 0.5) = unpack x := by
  rw [add_eq_packed, unpack_half]
  cases unpacked : unpack x with
  | notANumber => exact unpack_pack_notANumber
  | infinity sign => exact unpack_pack_infinity sign
  | zero sign | finite => simp [value?, unpacked, unpackedValue?] at infinite

def raisedFloor (q : ℚ) : ℤ := ⌊nearest (q + 1 / 2)⌋

theorem raisedFloor_mono : Monotone raisedFloor := fun q q' h =>
  Int.floor_le_floor (nearest_mono (by gcongr))

theorem raisedFloor_of_isFloat {q : ℚ} (exact : IsFloat (q + 1 / 2)) :
    raisedFloor q = halfUp q := by
  obtain ⟨x, value⟩ := exact
  rw [raisedFloor, nearest_of_fits (fits_of_value value).1, halfUp]

theorem clampPixel_floor_of_large {q : ℚ} (large : 2 ^ (1024 : ℤ) ≤ |nearest q|) :
    clampPixel ⌊nearest q⌋ = if 0 ≤ q then pixelMax else pixelMin := by
  have past : (2 : ℚ) ^ (31 : ℤ) ≤ |nearest q| := by
    calc
      (2 : ℚ) ^ (31 : ℤ) ≤ 2 ^ (1024 : ℤ) := zpow_le_zpow_right₀ one_le_two (by norm_num)
      _ ≤ |nearest q| := large
  split_ifs with above
  · rw [abs_of_nonneg (nearest_nonneg above)] at past
    have floor : (2 ^ 31 : ℤ) ≤ ⌊nearest q⌋ := Int.le_floor.mpr (by exact_mod_cast past)
    simp only [clampPixel, pixelMax, pixelMin]
    omega
  · have negative : 0 ≤ nearest (-q) := nearest_nonneg (by linarith)
    rw [nearest_neg, neg_nonneg] at negative
    rw [abs_of_nonpos negative] at past
    have floor : ⌊nearest q⌋ < -2 ^ 31 + 1 := by
      refine Int.floor_lt.mpr ?_
      push_cast
      norm_num at past
      linarith
    simp only [clampPixel, pixelMax, pixelMin]
    omega

theorem roundPixel_goesBy : GoesBy raisedFloor roundPixel where
  bounds := roundPixel_bounds
  undefined x h := by
    rw [roundPixel_eq, unpack_add_half (by rw [value?, h, unpackedValue?]), h]
  low x h := by
    rw [roundPixel_eq, unpack_add_half (by rw [value?, h, unpackedValue?]), h]
  high x h := by
    rw [roundPixel_eq, unpack_add_half (by rw [value?, h, unpackedValue?]), h]
  finite x q value := by
    have raised := rounds_add value value?_half
    rw [Rounds] at raised
    split_ifs at raised with small above
    · exact roundPixel_of_value raised
    · rw [raisedFloor, clampPixel_floor_of_large (not_lt.mp small), if_pos above, roundPixel_eq,
        raised]
    · rw [raisedFloor, clampPixel_floor_of_large (not_lt.mp small), if_neg above, roundPixel_eq,
        raised]

theorem isFloat_raised {n : ℤ} (low : pixelMin ≤ n) (high : n ≤ pixelMax) :
    IsFloat ((n : ℚ) + 1 / 2) := by
  refine isFloat_of_units (n := 2 * n + 1) (k := 1) ?_ (by norm_num) ?_
  · push_cast
    ring
  · simp only [pixelMin, pixelMax] at low high
    exact abs_le.mpr ⟨by omega, by omega⟩

theorem raisedFloor_intCast {n : ℤ} (low : pixelMin ≤ n) (high : n ≤ pixelMax) :
    raisedFloor n = n := by
  have half : ⌊(1 / 2 : ℚ)⌋ = 0 := by norm_num
  rw [raisedFloor_of_isFloat (isFloat_raised low high), halfUp, Int.floor_intCast_add, half,
    add_zero]

/-- Both conversions stay within the pixel space, take what is not a number for zero, are monotone,
and leave pixels as they are. One cuts the value toward zero, the other rounds it half up, wherever
the value raised by one half is that of a float. -/
theorem conversions_follow_values (x : Float) :
    ((pixelMin ≤ truncatePixel x ∧ truncatePixel x ≤ pixelMax) ∧
      pixelMin ≤ roundPixel x ∧ roundPixel x ≤ pixelMax) ∧
    (x.isNaN = true → truncatePixel x = 0 ∧ roundPixel x = 0) ∧
    (∀ y, x ≤ y → truncatePixel x ≤ truncatePixel y ∧ roundPixel x ≤ roundPixel y) ∧
    (∀ n : ℤ, pixelMin ≤ n → n ≤ pixelMax → value? x = some (n : ℚ) →
      truncatePixel x = n ∧ roundPixel x = n) ∧
    ∀ q, value? x = some q → truncatePixel x = clampPixel (wholePart q) ∧
      (IsFloat (q + 1 / 2) → roundPixel x = clampPixel (halfUp q)) := by
  have cuts := truncatePixel_goesBy
  have rounds := roundPixel_goesBy
  refine ⟨⟨cuts.bounds x, rounds.bounds x⟩, ?_, ?_, ?_, ?_⟩
  · intro undefined
    have unpacked : unpack x = .notANumber := unpack_of_isNaN undefined
    exact ⟨cuts.undefined x unpacked, rounds.undefined x unpacked⟩
  · intro y h
    exact ⟨cuts.monotone wholePart_mono h, rounds.monotone raisedFloor_mono h⟩
  · intro n low high value
    exact ⟨cuts.of_whole (wholePart_intCast n) low high value,
      rounds.of_whole (raisedFloor_intCast low high) low high value⟩
  · intro q value
    exact ⟨cuts.finite x q value, roundPixel_eq_halfUp value⟩

theorem fraction_and_last_pixel_are_converted :
    (undefinedValue.isNaN = true ∧ truncatePixel undefinedValue = 0 ∧
      roundPixel undefinedValue = 0) ∧
    ((-2.75 : Float) ≤ 2147483647 ∧ truncatePixel (-2.75) ≤ truncatePixel 2147483647 ∧
      roundPixel (-2.75) ≤ roundPixel 2147483647) ∧
    (value? 2147483647 = some ((pixelMax : ℤ) : ℚ) ∧ truncatePixel 2147483647 = pixelMax ∧
      roundPixel 2147483647 = pixelMax) ∧
    value? (-2.75) = some (-11 / 4) ∧ IsFloat (-11 / 4 + 1 / 2) ∧
      truncatePixel (-2.75) = -2 ∧ roundPixel (-2.75) = -3 := by
  have undefined : undefinedValue.isNaN = true := by decide +kernel
  have less : (-2.75 : Float) ≤ 2147483647 := by decide +kernel
  have last : value? 2147483647 = some ((pixelMax : ℤ) : ℚ) := by decide +kernel
  have value : value? (-2.75) = some (-11 / 4) := by decide +kernel
  have exact : IsFloat (-11 / 4 + 1 / 2) := ⟨-2.25, by norm_num; decide +kernel⟩
  obtain ⟨-, zero, -⟩ := conversions_follow_values undefinedValue
  obtain ⟨-, -, mono, -, values⟩ := conversions_follow_values (-2.75)
  obtain ⟨-, -, -, pixels, -⟩ := conversions_follow_values 2147483647
  obtain ⟨cut, rounded⟩ := values _ value
  refine ⟨⟨undefined, zero undefined⟩, ⟨less, mono _ less⟩,
    ⟨last, pixels pixelMax (by decide) le_rfl last⟩, value, exact, ?_, ?_⟩
  · rw [cut]
    norm_num [wholePart, clampPixel, pixelMin, pixelMax]
  · rw [rounded exact]
    norm_num [halfUp, clampPixel, pixelMin, pixelMax]

/-- The half is added as a float, and just below one half the sum is one. -/
example : roundPixel 0.49999999999999994 = 1 := by decide +kernel

end FormulaLayout.Number
