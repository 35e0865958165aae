import FormulaLayout.Number.Binary
import FormulaLayout.Proofs.Number.Nearest
import Mathlib.Tactic.NormNum

/-! The exact value of a float, and what the rounding step of the arithmetic does to values. A
mantissa that was cut short remembers, in two bits, how far below the half or above it the rest
was. That is enough to cut it further and, in the end, to round it as if nothing had been cut. -/
namespace FormulaLayout.Number
open Float.Model Float.Model.UnpackedFloat

def signed : Sign → ℚ → ℚ
  | .negative, x => -x
  | .positive, x => x

theorem nearest_signed (sign : Sign) (x : ℚ) : nearest (signed sign x) = signed sign (nearest x) := by
  cases sign
  · exact nearest_neg x
  · rfl

theorem abs_signed (sign : Sign) (x : ℚ) : |signed sign x| = |x| := by
  cases sign
  · exact abs_neg x
  · rfl

theorem signed_neg (sign : Sign) (x : ℚ) : signed (-sign) x = -signed sign x := by
  cases sign
  · exact (neg_neg x).symm
  · rfl

theorem signed_mul_signed (sign sign' : Sign) (x y : ℚ) :
    signed sign x * signed sign' y = signed (sign * sign') (x * y) := by
  cases sign <;> cases sign'
  · exact neg_mul_neg x y
  · exact neg_mul x y
  · exact mul_neg x y
  · rfl

theorem signed_div_signed (sign sign' : Sign) (x y : ℚ) :
    signed sign x / signed sign' y = signed (sign / sign') (x / y) := by
  cases sign <;> cases sign'
  · exact neg_div_neg_eq x y
  · exact neg_div y x
  · exact div_neg x
  · rfl

theorem signed_eq_apply (sign : Sign) (n : ℤ) : signed sign n = (sign.apply n : ℤ) := by
  cases sign
  · exact (Int.cast_neg n).symm
  · rfl

theorem scaled_nonneg (mantissa : ℕ) (exponent : ℤ) : (0 : ℚ) ≤ mantissa * 2 ^ exponent :=
  mul_nonneg (Nat.cast_nonneg mantissa) (two_zpow_pos exponent).le

theorem downward_eq_floor (sign : Sign) (mantissa : ℕ) (exponent : ℤ) :
    downward sign mantissa exponent = ⌊signed sign (mantissa * 2 ^ exponent)⌋ := by
  have ratio : (mantissa : ℚ) * 2 ^ exponent =
      ((numerator mantissa exponent : ℕ) : ℤ) / (denominator exponent : ℕ) := by
    rw [numerator, denominator, Nat.pow_eq, Nat.pow_eq]
    push_cast
    rw [eq_div_iff (by positivity), mul_assoc, ← zpow_natCast, ← zpow_natCast, ← two_zpow_add]
    congr 2
    omega
  have whole : signed sign (mantissa * 2 ^ exponent) =
      ((sign.apply (numerator mantissa exponent : ℕ) : ℤ) : ℚ) / (denominator exponent : ℕ) := by
    rw [ratio, ← signed_eq_apply]
    cases sign
    · exact (neg_div _ _).symm
    · rfl
  rw [whole, Rat.floor_intCast_div_natCast]
  rfl

def unpackedValue? : UnpackedFloat → Option ℚ
  | .zero _ => some 0
  | .finite sign mantissa exponent _ => some (signed sign (mantissa * 2 ^ exponent))
  | .infinity _ | .notANumber => none

def value? (x : Float) : Option ℚ := unpackedValue? (unpack x)

def Leaves : Accuracy → ℚ → Prop
  | .exact, rest => rest = 0
  | .inexact .lt, rest => 0 < rest ∧ rest < 1 / 2
  | .inexact .eq, rest => rest = 1 / 2
  | .inexact .gt, rest => 1 / 2 < rest ∧ rest < 1

theorem Leaves.bounds {accuracy : Accuracy} {rest : ℚ} (h : Leaves accuracy rest) :
    0 ≤ rest ∧ rest < 1 := by
  unfold Leaves at h
  split at h <;> constructor <;> linarith

def StandsFor (em : ExtendedMantissa) (x : ℚ) : Prop := Leaves em.accuracy (x - em.mantissa)

theorem standsFor_ofMantissaAndAccuracy {mantissa : ℕ} {accuracy : Accuracy} {x : ℚ}
    (h : Leaves accuracy (x - mantissa)) :
    StandsFor (.ofMantissaAndAccuracy mantissa accuracy) x := by
  match accuracy, h with
  | .exact, h => exact h
  | .inexact .lt, h => exact h
  | .inexact .eq, h => exact h
  | .inexact .gt, h => exact h

theorem StandsFor.shiftRightOne {em : ExtendedMantissa} {x : ℚ} (h : StandsFor em x) :
    StandsFor em.shiftRightOne (x / 2) := by
  obtain ⟨mantissa, roundBit, stickyBit⟩ := em
  obtain ⟨half, even | odd⟩ : ∃ half, mantissa = 2 * half ∨ mantissa = 2 * half + 1 :=
    ⟨mantissa / 2, by omega⟩
  · have kept : (2 * half) / 2 = half := by omega
    have bit : ((2 * half) % 2 != 0) = false := by simp
    subst even
    cases roundBit <;> cases stickyBit <;>
      simp only [StandsFor, ExtendedMantissa.shiftRightOne, ExtendedMantissa.accuracy, Leaves,
        kept, bit, Bool.or_false, Bool.or_true] at h ⊢ <;>
      push_cast at h ⊢ <;> first | linarith | (constructor <;> linarith)
  · have kept : (2 * half + 1) / 2 = half := by omega
    have bit : ((2 * half + 1) % 2 != 0) = true := by
      have : (2 * half + 1) % 2 = 1 := by omega
      simp [this]
    subst odd
    cases roundBit <;> cases stickyBit <;>
      simp only [StandsFor, ExtendedMantissa.shiftRightOne, ExtendedMantissa.accuracy, Leaves,
        kept, bit, Bool.or_false, Bool.or_true] at h ⊢ <;>
      push_cast at h ⊢ <;> first | linarith | (constructor <;> linarith)

theorem StandsFor.shiftRight {em : ExtendedMantissa} {x : ℚ} (h : StandsFor em x) (count : ℕ) :
    StandsFor (em >>> count) (x / 2 ^ count) := by
  change StandsFor (count.repeat ExtendedMantissa.shiftRightOne em) _
  induction count with
  | zero => simpa [Nat.repeat] using h
  | succ count ih =>
    rw [Nat.repeat, pow_succ, ← div_div]
    exact ih.shiftRightOne

theorem StandsFor.floor {em : ExtendedMantissa} {x : ℚ} (h : StandsFor em x) :
    ⌊x⌋ = em.mantissa := by
  have bounds := Leaves.bounds h
  rw [Int.floor_eq_iff]
  push_cast
  constructor <;> linarith

theorem StandsFor.roundedMantissa {em : ExtendedMantissa} {x : ℚ} (h : StandsFor em x) :
    (em.roundedMantissa : ℤ) = nearestWhole x := by
  have floor := h.floor
  unfold nearestWhole
  rw [floor]
  obtain ⟨mantissa, roundBit, stickyBit⟩ := em
  cases roundBit <;> cases stickyBit <;>
    simp only [StandsFor, ExtendedMantissa.accuracy, Leaves,
      ExtendedMantissa.roundedMantissa, Accuracy.roundToNearestEven] at h ⊢ <;>
    push_cast at h ⊢ <;> split_ifs <;> linarith

end FormulaLayout.Number
