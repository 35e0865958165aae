import FormulaLayout.Geometry.Pixel
import FormulaLayout.Proofs.Number.Order

/-! Amounts: floats from zero up, infinity included. On them the operations are the exact ones
followed by one monotone rounding. What is not a number counts as nothing, which is how it is cut
to pixels, and this makes zero times infinity zero, as it is for amounts. -/
namespace FormulaLayout.Number
open Float.Model Float.Model.UnpackedFloat

abbrev Amount := WithTop ℚ≥0

namespace Amount

def nearestAmount (q : ℚ≥0) : ℚ≥0 := ⟨nearest q, nearest_nonneg q.2⟩

@[simp] theorem coe_nearestAmount (q : ℚ≥0) : (nearestAmount q : ℚ) = nearest q := rfl

def rounded : Amount → Amount
  | ⊤ => ⊤
  | (q : ℚ≥0) => if nearest q < 2 ^ (1024 : ℤ) then (nearestAmount q : Amount) else ⊤

theorem rounded_top : rounded ⊤ = ⊤ := rfl

theorem rounded_coe (q : ℚ≥0) :
    rounded q = if nearest q < 2 ^ (1024 : ℤ) then (nearestAmount q : Amount) else ⊤ := rfl

theorem coe_of_rounded_eq {q p : ℚ≥0} (h : rounded q = (p : Amount)) : (p : ℚ) = nearest q := by
  rw [rounded_coe] at h
  split at h
  · rw [← WithTop.coe_injective h, coe_nearestAmount]
  · cases h

theorem rounded_zero : rounded 0 = 0 := by
  have zero : nearestAmount 0 = 0 := NNRat.coe_injective (by simp)
  change rounded ((0 : ℚ≥0) : Amount) = 0
  rw [rounded_coe, zero, if_pos (by simp)]
  rfl

theorem rounded_mono : Monotone rounded := by
  intro a b h
  induction b using WithTop.recTopCoe with
  | top => exact le_top
  | coe b =>
    induction a using WithTop.recTopCoe with
    | top => exact absurd h (by simp)
    | coe a =>
      have less : nearest a ≤ nearest b := nearest_mono (by exact_mod_cast h)
      rw [rounded_coe, rounded_coe]
      by_cases small : nearest b < 2 ^ (1024 : ℤ)
      · rw [if_pos small, if_pos (less.trans_lt small), WithTop.coe_le_coe]
        exact_mod_cast less
      · rw [if_neg small]
        exact le_top

theorem rounded_rounded (a : Amount) : rounded (rounded a) = rounded a := by
  induction a using WithTop.recTopCoe with
  | top => rfl
  | coe q =>
    rw [rounded_coe]
    split
    · next small =>
      have kept : nearest (nearest q) = nearest q := nearest_of_fits (fits_nearest q)
      have same : nearestAmount (nearestAmount q) = nearestAmount q := NNRat.coe_injective kept
      rw [rounded_coe, same, coe_nearestAmount, kept, if_pos small]
    · rfl

/-- Division of amounts. Nothing divided by nothing is nothing. -/
def quotient : Amount → Amount → Amount
  | _, ⊤ => 0
  | ⊤, (_ : ℚ≥0) => ⊤
  | (a : ℚ≥0), (b : ℚ≥0) => if b = 0 ∧ a ≠ 0 then ⊤ else ((a / b : ℚ≥0) : Amount)

theorem quotient_top (a : Amount) : quotient a ⊤ = 0 := by
  cases a using WithTop.recTopCoe <;> rfl

theorem coe_quotient_coe {b : ℚ≥0} (nonzero : b ≠ 0) (a : ℚ≥0) :
    quotient a b = ((a / b : ℚ≥0) : Amount) :=
  if_neg fun h => nonzero h.1

theorem zero_quotient (b : Amount) : quotient 0 b = 0 := by
  induction b using WithTop.recTopCoe with
  | top => rfl
  | coe b =>
    change quotient ((0 : ℚ≥0) : Amount) b = 0
    simp [quotient]

theorem quotient_mono (b : Amount) : Monotone (quotient · b) := by
  intro a a' h
  induction b using WithTop.recTopCoe with
  | top => simp only [quotient_top, le_refl]
  | coe b =>
    induction a' using WithTop.recTopCoe with
    | top => exact le_top
    | coe a' =>
      induction a using WithTop.recTopCoe with
      | top => exact absurd h (by simp)
      | coe a =>
        have less : a ≤ a' := WithTop.coe_le_coe.mp h
        by_cases zero : b = 0
        · subst zero
          rcases eq_or_ne a' 0 with rfl | positive
          · rw [nonpos_iff_eq_zero.mp less]
          · simp [quotient, positive]
        · change quotient a b ≤ quotient a' b
          rw [coe_quotient_coe zero, coe_quotient_coe zero, WithTop.coe_le_coe]
          gcongr

theorem quotient_le_one {a b : Amount} (h : a ≤ b) : quotient a b ≤ 1 := by
  induction b using WithTop.recTopCoe with
  | top =>
    rw [quotient_top]
    exact zero_le_one
  | coe b =>
    induction a using WithTop.recTopCoe with
    | top => exact absurd h (by simp)
    | coe a =>
      have less : a ≤ b := WithTop.coe_le_coe.mp h
      by_cases zero : b = 0
      · obtain rfl : a = 0 := nonpos_iff_eq_zero.mp (less.trans_eq zero)
        exact (zero_quotient _).trans_le zero_le_one
      · rw [coe_quotient_coe zero]
        exact WithTop.coe_le_coe.mpr (div_le_one_of_le₀ less b.2)

def pixels : Amount → ℤ
  | ⊤ => pixelMax
  | (q : ℚ≥0) => min ⌊q⌋₊ pixelMax

theorem pixels_coe (q : ℚ≥0) : pixels q = min ⌊(q : ℚ)⌋ pixelMax := by
  rw [← NNRat.coe_floor]
  rfl

theorem pixels_mono : Monotone pixels := by
  intro a b h
  induction b using WithTop.recTopCoe with
  | top =>
    induction a using WithTop.recTopCoe with
    | top => exact le_rfl
    | coe a => exact min_le_right _ _
  | coe b =>
    induction a using WithTop.recTopCoe with
    | top => exact absurd h (by simp)
    | coe a =>
      have : ⌊a⌋₊ ≤ ⌊b⌋₊ := Nat.floor_mono (WithTop.coe_le_coe.mp h)
      change min (⌊a⌋₊ : ℤ) pixelMax ≤ min (⌊b⌋₊ : ℤ) pixelMax
      omega

end Amount
open Amount

/-- The float is this amount. Zero may have either sign. -/
def IsAmount (x : Float) : Amount → Prop
  | ⊤ => unpack x = .infinity .positive
  | (q : ℚ≥0) => value? x = some (q : ℚ)

def CountsAs (x : Float) (a : Amount) : Prop :=
  IsAmount x a ∨ unpack x = .notANumber ∧ a = 0

theorem isAmount_of_rounds {q : ℚ≥0} {x : Float} (h : Rounds q x) : IsAmount x (rounded q) := by
  have size : |nearest (q : ℚ)| = nearest q := abs_of_nonneg (nearest_nonneg (NNRat.coe_nonneg q))
  rw [Rounds, size] at h
  rw [rounded_coe]
  split at h
  · next small =>
    rw [if_pos small]
    exact h
  · next large =>
    rw [if_neg large]
    rwa [if_pos (NNRat.coe_nonneg q)] at h

theorem IsAmount.cases {x : Float} {a : Amount} (h : IsAmount x a) :
    (unpack x = .infinity .positive ∧ a = ⊤) ∨
      (∃ sign, unpack x = .zero sign ∧ a = 0) ∨
      ∃ q : ℚ≥0, a = q ∧ q ≠ 0 ∧ value? x = some (q : ℚ) ∧
        ∃ mantissa exponent positive,
          unpack x = .finite .positive mantissa exponent positive ∧
            (q : ℚ) = mantissa * 2 ^ exponent := by
  induction a using WithTop.recTopCoe with
  | top => exact .inl ⟨h, rfl⟩
  | coe q =>
    have value : value? x = some (q : ℚ) := h
    obtain ⟨sign, zero, none⟩ | ⟨sign, mantissa, exponent, positive, finite, same⟩ :=
      unpack_of_value value
    · have none' : q = 0 := by exact_mod_cast none
      exact .inr (.inl ⟨sign, zero, by rw [none']; rfl⟩)
    · have size : (0 : ℚ) < mantissa * 2 ^ exponent :=
        mul_pos (by exact_mod_cast positive) (two_zpow_pos _)
      cases sign with
      | negative =>
        have : (q : ℚ) = -(mantissa * 2 ^ exponent) := same
        linarith [NNRat.coe_nonneg q]
      | positive =>
        have same : (q : ℚ) = mantissa * 2 ^ exponent := same
        refine .inr (.inr ⟨q, rfl, ?_, value, mantissa, exponent, positive, finite, same⟩)
        rintro rfl
        rw [← same] at size
        exact absurd size (by simp)

theorem isAmount_zero {x : Float} {sign : Sign} (h : unpack x = .zero sign) : IsAmount x 0 := by
  change value? x = some ((0 : ℚ≥0) : ℚ)
  simp [value?, h, unpackedValue?]

theorem exists_isAmount_of_nonneg {x : Float} (h : 0 ≤ x) : ∃ a, IsAmount x a := by
  have none : value? 0 = some 0 := rfl
  obtain low | high | ⟨a, b, zero, value, less⟩ := exists_values_of_le h
  · cases low
  · exact ⟨⊤, high⟩
  · obtain rfl : 0 = a := Option.some.inj (none.symm.trans zero)
    lift b to ℚ≥0 using less with q
    exact ⟨(q : Amount), value⟩

theorem CountsAs.rounded_eq {x : Float} {a : Amount} (h : CountsAs x a) : rounded a = a := by
  obtain amount | ⟨-, rfl⟩ := h
  · obtain ⟨-, rfl⟩ | ⟨sign, -, rfl⟩ | ⟨q, rfl, -, value, -⟩ := amount.cases
    · rfl
    · exact rounded_zero
    · obtain ⟨fits, bound⟩ := fits_of_value value
      rw [abs_of_nonneg (NNRat.coe_nonneg q)] at bound
      have same : nearestAmount q = q := NNRat.coe_injective (nearest_of_fits fits)
      rw [rounded_coe, nearest_of_fits fits, if_pos bound, same]
  · exact rounded_zero

theorem countsAs_packed_notANumber : CountsAs (.ofModel (.pack .notANumber)) 0 :=
  .inr ⟨unpack_pack_notANumber, rfl⟩

theorem countsAs_packed_zero (sign : Sign) : CountsAs (.ofModel (.pack (.zero sign))) 0 :=
  .inl (isAmount_zero (unpack_pack_zero sign))

theorem isAmount_packed_infinity : IsAmount (.ofModel (.pack (.infinity .positive))) ⊤ :=
  unpack_pack_infinity .positive

theorem isAmount_add {x y : Float} {a b : Amount} (left : IsAmount x a) (right : IsAmount y b) :
    IsAmount (x + y) (rounded (a + b)) := by
  induction a using WithTop.recTopCoe with
  | top =>
    have first : unpack x = .infinity .positive := left
    rw [top_add, rounded_top, add_eq_packed, first]
    obtain ⟨second, -⟩ | ⟨sign, second, -⟩ | ⟨_, -, -, -, _, _, _, second, -⟩ := right.cases <;>
      rw [second] <;> exact isAmount_packed_infinity
  | coe a =>
    induction b using WithTop.recTopCoe with
    | top =>
      have second : unpack y = .infinity .positive := right
      rw [add_top, rounded_top, add_eq_packed, second]
      obtain ⟨first, -⟩ | ⟨sign, first, -⟩ | ⟨_, -, -, -, _, _, _, first, -⟩ := left.cases <;>
        rw [first] <;> exact isAmount_packed_infinity
    | coe b =>
      have first : value? x = some (a : ℚ) := left
      have second : value? y = some (b : ℚ) := right
      rw [← WithTop.coe_add]
      exact isAmount_of_rounds (by exact_mod_cast rounds_add first second)

theorem isAmount_mul {x y : Float} {a b : ℚ≥0} (left : IsAmount x a) (right : IsAmount y b) :
    IsAmount (x * y) (rounded ((a * b : ℚ≥0) : Amount)) := by
  have first : value? x = some (a : ℚ) := left
  have second : value? y = some (b : ℚ) := right
  exact isAmount_of_rounds (by exact_mod_cast rounds_mul first second)

theorem countsAs_mul {x y : Float} {a b : Amount} (left : CountsAs x a) (right : CountsAs y b) :
    CountsAs (x * y) (rounded (a * b)) := by
  rw [mul_eq_packed]
  obtain left | ⟨first, rfl⟩ := left
  swap
  · rw [first, zero_mul, rounded_zero]
    exact countsAs_packed_notANumber
  obtain right | ⟨second, rfl⟩ := right
  swap
  · rw [second, mul_zero, rounded_zero]
    cases unpack x <;> exact countsAs_packed_notANumber
  obtain ⟨first, rfl⟩ | ⟨sign, first, rfl⟩ | ⟨q, rfl, some, -, _, _, _, first, -⟩ :=
      left.cases <;>
    obtain ⟨second, rfl⟩ | ⟨sign', second, rfl⟩ | ⟨q', rfl, some', -, _, _, _, second, -⟩ :=
      right.cases
  · rw [first, second, WithTop.top_mul_top, rounded_top]
    exact .inl isAmount_packed_infinity
  · rw [first, second, mul_zero, rounded_zero]
    exact countsAs_packed_notANumber
  · rw [first, second, WithTop.top_mul (by exact_mod_cast some'), rounded_top]
    exact .inl isAmount_packed_infinity
  · rw [first, second, zero_mul, rounded_zero]
    exact countsAs_packed_notANumber
  · rw [first, second, zero_mul, rounded_zero]
    exact countsAs_packed_zero _
  · rw [first, second, zero_mul, rounded_zero]
    exact countsAs_packed_zero _
  · rw [first, second, WithTop.mul_top (by exact_mod_cast some), rounded_top]
    exact .inl isAmount_packed_infinity
  · rw [first, second, mul_zero, rounded_zero]
    exact countsAs_packed_zero _
  · rw [← mul_eq_packed, ← WithTop.coe_mul]
    exact .inl (isAmount_mul left right)

theorem countsAs_zero_iff (x : Float) :
    CountsAs x 0 ↔ unpack x = .notANumber ∨ ∃ sign, unpack x = .zero sign := by
  constructor
  · rintro (amount | ⟨undefined, -⟩)
    · obtain ⟨-, none⟩ | ⟨sign, zero, -⟩ | ⟨q, none, some, -⟩ := amount.cases
      · cases none
      · exact .inr ⟨sign, zero⟩
      · exact absurd (WithTop.coe_eq_zero.mp none.symm) some
    · exact .inl undefined
  · rintro (undefined | ⟨sign, zero⟩)
    · exact .inr ⟨undefined, rfl⟩
    · exact .inl (isAmount_zero zero)

/-- Nothing stays nothing, also next to what is no amount. -/
theorem CountsAs.mul_right {x : Float} (h : CountsAs x 0) (y : Float) : CountsAs (x * y) 0 := by
  rw [mul_eq_packed]
  obtain undefined | ⟨sign, zero⟩ := (countsAs_zero_iff x).mp h
  · rw [undefined]
    exact countsAs_packed_notANumber
  · rw [zero]
    cases unpack y
    case infinity | notANumber => exact countsAs_packed_notANumber
    case zero | finite => exact countsAs_packed_zero _

theorem CountsAs.mul_left {y : Float} (h : CountsAs y 0) (x : Float) : CountsAs (x * y) 0 := by
  rw [mul_eq_packed]
  obtain undefined | ⟨sign, zero⟩ := (countsAs_zero_iff y).mp h
  · rw [undefined]
    cases unpack x <;> exact countsAs_packed_notANumber
  · rw [zero]
    cases unpack x
    case infinity | notANumber => exact countsAs_packed_notANumber
    case zero | finite => exact countsAs_packed_zero _

theorem CountsAs.div_right {x : Float} (h : CountsAs x 0) (y : Float) : CountsAs (x / y) 0 := by
  rw [div_eq_packed]
  obtain undefined | ⟨sign, zero⟩ := (countsAs_zero_iff x).mp h
  · rw [undefined]
    exact countsAs_packed_notANumber
  · rw [zero]
    cases unpack y
    case zero | notANumber => exact countsAs_packed_notANumber
    case infinity | finite => exact countsAs_packed_zero _

theorem countsAs_div {x y : Float} {a b : Amount} (left : CountsAs x a) (right : IsAmount y b)
    (proper : b = 0 → a = 0 ∨ unpack y = .zero .positive) :
    CountsAs (x / y) (rounded (quotient a b)) := by
  rw [div_eq_packed]
  obtain left | ⟨first, rfl⟩ := left
  swap
  · rw [first, zero_quotient, rounded_zero]
    exact countsAs_packed_notANumber
  obtain ⟨first, rfl⟩ | ⟨sign, first, rfl⟩ | ⟨q, rfl, some, value, _, _, _, first, -⟩ :=
      left.cases <;>
    obtain ⟨second, rfl⟩ | ⟨sign', second, rfl⟩ | ⟨q', rfl, some', value', _, _, _, second, -⟩ :=
      right.cases
  · rw [first, second, quotient_top, rounded_zero]
    exact countsAs_packed_notANumber
  · rw [first, (proper rfl).resolve_left (by simp)]
    exact .inl isAmount_packed_infinity
  · rw [first, second]
    exact .inl isAmount_packed_infinity
  · rw [first, second, quotient_top, rounded_zero]
    exact countsAs_packed_zero _
  · rw [first, second, zero_quotient, rounded_zero]
    exact countsAs_packed_notANumber
  · rw [first, second, zero_quotient, rounded_zero]
    exact countsAs_packed_zero _
  · rw [first, second, quotient_top, rounded_zero]
    exact countsAs_packed_zero _
  · have all : quotient (q : Amount) 0 = ⊤ := if_pos ⟨rfl, some⟩
    rw [first, (proper rfl).resolve_left (by exact_mod_cast some), all, rounded_top]
    exact .inl isAmount_packed_infinity
  · rw [← div_eq_packed, coe_quotient_coe some']
    have divisor : (q' : ℚ) ≠ 0 := by exact_mod_cast some'
    exact .inl (isAmount_of_rounds (by exact_mod_cast rounds_div value value' divisor))

theorem isAmount_ofWhole {n : ℤ} (h : 0 ≤ n) : IsAmount (ofWhole n) (rounded (n.toNat : ℚ≥0)) := by
  refine isAmount_of_rounds ?_
  have same : ((n.toNat : ℚ≥0) : ℚ) = n := by
    rw [NNRat.coe_natCast]
    exact_mod_cast Int.toNat_of_nonneg h
  rw [same]
  exact rounds_ofWhole n

theorem isAmount_one : IsAmount 1 1 := by
  have unpacked : unpack (1 : Float) = .finite .positive (2 ^ 52) (-52) (by decide) := rfl
  change value? 1 = some ((1 : ℚ≥0) : ℚ)
  rw [value?, unpacked]
  norm_num [unpackedValue?, signed]

theorem rounded_natCast {n : ℕ} (small : n ≤ 2 ^ 53) : rounded (n : ℚ≥0) = (n : ℚ≥0) := by
  have fits : Fits ((n : ℚ≥0) : ℚ) := by
    rw [NNRat.coe_natCast, ← Int.cast_natCast]
    exact fits_intCast (by rw [abs_of_nonneg] <;> omega)
  have same : nearestAmount n = n := NNRat.coe_injective (nearest_of_fits fits)
  have bound : ((n : ℚ≥0) : ℚ) < 2 ^ (1024 : ℤ) := by
    calc
      ((n : ℚ≥0) : ℚ) ≤ 2 ^ (53 : ℤ) := by exact_mod_cast small
      _ < 2 ^ (1024 : ℤ) := zpow_lt_zpow_right₀ (by norm_num) (by norm_num)
  rw [rounded_coe, nearest_of_fits fits, if_pos bound, same]

theorem towardZero_positive {mantissa : ℕ} {exponent : ℤ} {q : ℚ≥0}
    (h : (q : ℚ) = mantissa * 2 ^ exponent) :
    towardZero .positive mantissa exponent = (⌊q⌋₊ : ℤ) := by
  rw [← downward_positive, downward_eq_floor, signed, ← h, ← NNRat.floor_coe]
  exact (Int.natCast_floor_eq_floor q.2).symm

theorem truncatePixel_eq (x : Float) : truncatePixel x =
    match unpack x with
    | .notANumber => 0
    | .infinity .negative => pixelMin
    | .infinity .positive => pixelMax
    | .zero _ => 0
    | .finite sign mantissa exponent _ => clampPixel (towardZero sign mantissa exponent) := rfl

theorem truncatePixel_of_countsAs {x : Float} {a : Amount} (h : CountsAs x a) :
    truncatePixel x = pixels a := by
  have none : pixels 0 = 0 := by decide
  rw [truncatePixel_eq]
  obtain amount | ⟨undefined, rfl⟩ := h
  · obtain ⟨infinite, rfl⟩ | ⟨sign, zero, rfl⟩ | ⟨q, rfl, -, -, m, e, positive, finite, same⟩ :=
      amount.cases
    · rw [infinite]
      rfl
    · rw [zero, none]
    · rw [finite]
      change clampPixel (towardZero .positive m e) = min (⌊q⌋₊ : ℤ) pixelMax
      rw [towardZero_positive same, clampPixel, pixelMin, pixelMax]
      omega
  · rw [undefined, none]

end FormulaLayout.Number
