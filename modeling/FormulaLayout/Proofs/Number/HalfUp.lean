import FormulaLayout.Geometry.Pixel
import FormulaLayout.Proofs.Number.Arithmetic

/-! Results that need no rounding, and pixels rounded half up. Where the exact result of an
operation is the value of some float, the operation gives it. The half that is added before a pixel
is cut down may be rounded away, but not where the value and one half is the value of some float,
too. There the pixel is the exact value rounded half up. -/
namespace FormulaLayout.Number
open Float.Model Float.Model.UnpackedFloat

def IsFloat (q : ℚ) : Prop := ∃ x, value? x = some q

theorem Rounds.value?_eq {q : ℚ} {x : Float} (rounds : Rounds q x) (exact : IsFloat q) :
    value? x = some q := by
  obtain ⟨y, value⟩ := exact
  obtain ⟨fits, bound⟩ := fits_of_value value
  rwa [Rounds, nearest_of_fits fits, if_pos bound] at rounds

theorem holdsWhole_of_isFloat {n : ℤ} (exact : IsFloat n) : HoldsWhole n := by
  rw [holdsWhole_iff, (rounds_ofWhole n).value?_eq exact]
  rfl

theorem Fits.isFloat {q : ℚ} (fits : Fits q) (bound : |q| < 2 ^ (1024 : ℤ)) : IsFloat q := by
  have same := nearest_of_fits fits
  obtain ⟨n, k, -, -, rfl⟩ := fits
  have rounds := rounds_normalize n k .positive
  rw [Rounds, same, if_pos bound] at rounds
  exact ⟨_, rounds⟩

theorem isFloat_of_units {q : ℚ} {n : ℤ} {k : ℕ} (units : q = n / 2 ^ k) (small : k ≤ 1074)
    (bound : |n| ≤ 2 ^ 53) : IsFloat q := by
  have fits : Fits q :=
    ⟨n, -k, bound, by omega, by rw [units, zpow_neg, zpow_natCast, div_eq_mul_inv]⟩
  refine fits.isFloat ?_
  have size : |q| ≤ |(n : ℚ)| := by
    rw [units, abs_div]
    refine div_le_self (abs_nonneg _) ?_
    rw [abs_of_pos (by positivity)]
    exact one_le_pow₀ (by norm_num)
  have bound' : |(n : ℚ)| ≤ 2 ^ (53 : ℤ) := by exact_mod_cast bound
  calc
    |q| ≤ 2 ^ (53 : ℤ) := size.trans bound'
    _ < 2 ^ (1024 : ℤ) := zpow_lt_zpow_right₀ (by norm_num) (by norm_num)

theorem roundPixel_eq (x : Float) : roundPixel x =
    match unpack (x + 0.5) with
    | .notANumber => 0
    | .infinity .negative => pixelMin
    | .infinity .positive => pixelMax
    | .zero _ => 0
    | .finite sign mantissa exponent _ => clampPixel (downward sign mantissa exponent) := rfl

theorem roundPixel_of_value {x : Float} {q : ℚ} (raised : value? (x + 0.5) = some q) :
    roundPixel x = clampPixel ⌊q⌋ := by
  rw [roundPixel_eq]
  obtain ⟨sign, zero, rfl⟩ | ⟨sign, mantissa, exponent, positive, finite, rfl⟩ :=
    unpack_of_value raised
  · have none : clampPixel 0 = 0 := by decide
    rw [zero, Int.floor_zero, none]
  · rw [finite, ← downward_eq_floor]

/-- The whole number that is nearest, and of two the greater. -/
def halfUp (q : ℚ) : ℤ := ⌊q + 1 / 2⌋

theorem halfUp_bounds (q : ℚ) : q - 1 / 2 < halfUp q ∧ halfUp q ≤ q + 1 / 2 := by
  have above := Int.lt_floor_add_one (q + 1 / 2)
  have below := Int.floor_le (q + 1 / 2)
  rw [halfUp]
  constructor <;> linarith

theorem halfUp_intCast_add (n : ℤ) (q : ℚ) : halfUp (n + q) = n + halfUp q := by
  rw [halfUp, add_assoc, Int.floor_intCast_add, halfUp]

/-- Of the two parts of a whole number either one is rounded up and the other down, or both are
halves and go up. -/
theorem halfUp_sub_add (n : ℤ) (q : ℚ) :
    halfUp (n - q) + halfUp q = n + if Int.fract q = 1 / 2 then 1 else 0 := by
  obtain ⟨low, high⟩ := halfUp_bounds q
  obtain ⟨low', high'⟩ := halfUp_bounds (n - q)
  have floor := Int.floor_add_fract q
  split_ifs with half
  · have own : halfUp q = ⌊q⌋ + 1 := by
      rw [halfUp, Int.floor_eq_iff]
      push_cast
      constructor <;> linarith
    have other : halfUp (n - q) = n - ⌊q⌋ := by
      rw [halfUp, Int.floor_eq_iff]
      push_cast
      constructor <;> linarith
    omega
  · have uneven : (halfUp q : ℚ) ≠ q + 1 / 2 := by
      intro same
      apply half
      rw [Int.fract_eq_iff]
      refine ⟨by norm_num, by norm_num, halfUp q - 1, ?_⟩
      push_cast
      linarith
    have below : (halfUp q : ℚ) < q + 1 / 2 := lt_of_le_of_ne high uneven
    have less : (halfUp (n - q) + halfUp q : ℤ) < (n + 1 : ℚ) := by
      push_cast
      linarith
    have more : (n - 1 : ℚ) < (halfUp (n - q) + halfUp q : ℤ) := by
      push_cast
      linarith
    have less' : halfUp (n - q) + halfUp q < n + 1 := by exact_mod_cast less
    have more' : n - 1 < halfUp (n - q) + halfUp q := by exact_mod_cast more
    omega

theorem abs_gaps_le_one (n : ℤ) (q : ℚ) : |2 * halfUp ((n - q) / 2) + halfUp q - n| ≤ 1 := by
  obtain ⟨low, high⟩ := halfUp_bounds q
  obtain ⟨low', high'⟩ := halfUp_bounds ((n - q) / 2)
  have less : ((2 * halfUp ((n - q) / 2) + halfUp q - n : ℤ) : ℚ) < (2 : ℤ) := by
    push_cast
    linarith
  have more : ((-2 : ℤ) : ℚ) < (2 * halfUp ((n - q) / 2) + halfUp q - n : ℤ) := by
    push_cast
    linarith
  rw [abs_le]
  constructor
  · have := Int.cast_lt.mp more
    omega
  · have := Int.cast_lt.mp less
    omega

theorem value?_half : value? 0.5 = some (1 / 2) := by decide +kernel

theorem value?_two : value? 2 = some 2 := by decide +kernel

theorem roundPixel_eq_halfUp {x : Float} {q : ℚ} (value : value? x = some q)
    (exact : IsFloat (q + 1 / 2)) : roundPixel x = clampPixel (halfUp q) :=
  roundPixel_of_value ((rounds_add value value?_half).value?_eq exact)

end FormulaLayout.Number
