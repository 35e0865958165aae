import FormulaLayout.Proofs.Number.Amount

/-! Zeros of either sign. Floats that compare as equal are the same but for the sign of a zero, and
sums of such floats are again the same but for that sign. A sum is the negative zero only if both of
its summands are. -/
namespace FormulaLayout.Number
open Float.Model Float.Model.UnpackedFloat

def SameNumber (x y : Float) : Prop := (x == y) = true ∨ x.isNaN = true ∧ y.isNaN = true

instance (x y : Float) : Decidable (SameNumber x y) :=
  inferInstanceAs (Decidable ((x == y) = true ∨ x.isNaN = true ∧ y.isNaN = true))

def IsZero (x : Float) : Prop := ∃ sign, unpack x = .zero sign

theorem isZero_congr {x y : Float} (same : unpack x = unpack y) : IsZero x ↔ IsZero y := by
  rw [IsZero, IsZero, same]

theorem sameNumber_iff (x y : Float) :
    SameNumber x y ↔ unpack x = unpack y ∨ IsZero x ∧ IsZero y := by
  change (UnpackedFloat.compare (unpack x) (unpack y) == some .eq) = true ∨
    (unpack x).isNaN = true ∧ (unpack y).isNaN = true ↔ _
  unfold IsZero
  rcases unpack x with ⟨_ | _⟩ | _ | ⟨_ | _⟩ | ⟨_ | _, _, _, _⟩ <;>
    rcases unpack y with ⟨_ | _⟩ | _ | ⟨_ | _⟩ | ⟨_ | _, _, _, _⟩ <;>
    simp [UnpackedFloat.compare, UnpackedFloat.isNaN, Ordering.then_eq_eq, and_comm]
  case infinity.negative.infinity.negative | infinity.positive.infinity.positive => rfl

theorem SameNumber.refl (x : Float) : SameNumber x x := (sameNumber_iff x x).mpr (.inl rfl)

theorem SameNumber.symm {x y : Float} (h : SameNumber x y) : SameNumber y x := by
  obtain same | ⟨zero, zero'⟩ := (sameNumber_iff x y).mp h
  · exact (sameNumber_iff y x).mpr (.inl same.symm)
  · exact (sameNumber_iff y x).mpr (.inr ⟨zero', zero⟩)

theorem SameNumber.trans {x y z : Float} (h : SameNumber x y) (h' : SameNumber y z) :
    SameNumber x z := by
  rw [sameNumber_iff] at h h' ⊢
  obtain same | ⟨zero, zero'⟩ := h
  · rwa [same, isZero_congr same]
  · obtain same' | ⟨-, zero''⟩ := h'
    · exact .inr ⟨zero, (isZero_congr same').mp zero'⟩
    · exact .inr ⟨zero, zero''⟩

/-- But for zeros, equal floats are the same to the bit. -/
theorem SameNumber.eq_of_not_isZero {x y : Float} (h : SameNumber x y) (some : ¬IsZero y) :
    x = y := by
  obtain same | ⟨-, zero⟩ := (sameNumber_iff x y).mp h
  · exact unpack_injective same
  · exact absurd zero some

theorem isZero_packed (sign : Sign) : IsZero (.ofModel (.pack (.zero sign))) :=
  ⟨sign, unpack_pack_zero sign⟩

theorem IsZero.add {x y : Float} (left : IsZero x) (right : IsZero y) : IsZero (x + y) := by
  obtain ⟨sign, first⟩ := left
  obtain ⟨sign', second⟩ := right
  rw [add_eq_packed, first, second]
  cases sign <;> cases sign' <;> exact isZero_packed _

theorem SameNumber.add_zero {x y y' : Float} (zero : IsZero y) (zero' : IsZero y') :
    SameNumber (x + y) (x + y') := by
  obtain ⟨sign, second⟩ := zero
  obtain ⟨sign', second'⟩ := zero'
  rw [sameNumber_iff, add_eq_packed, add_eq_packed, second, second']
  cases first : unpack x with
  | zero sign'' =>
    refine .inr ⟨?_, ?_⟩
    · cases sign'' <;> cases sign <;> exact isZero_packed _
    · cases sign'' <;> cases sign' <;> exact isZero_packed _
  | _ => exact .inl rfl

theorem add_eq_of_unpack {x x' y y' : Float} (left : unpack x = unpack x')
    (right : unpack y = unpack y') : x + y = x' + y' := by
  rw [add_eq_packed, add_eq_packed, left, right]

theorem SameNumber.add {x x' y y' : Float} (left : SameNumber x x') (right : SameNumber y y') :
    SameNumber (x + y) (x' + y') := by
  obtain first | ⟨first, first'⟩ := (sameNumber_iff x x').mp left
  · obtain second | ⟨second, second'⟩ := (sameNumber_iff y y').mp right
    · rw [add_eq_of_unpack first second]
      exact .refl _
    · rw [← add_eq_of_unpack first rfl]
      exact .add_zero second second'
  · obtain second | ⟨second, second'⟩ := (sameNumber_iff y y').mp right
    · rw [← add_eq_of_unpack (x := x') rfl second, float_add_comm x, float_add_comm x']
      exact .add_zero first first'
    · exact (sameNumber_iff ..).mpr (.inr ⟨first.add second, first'.add second'⟩)

/-- What is no smaller than the least float does not round to zero. -/
theorem not_isZero_of_rounds {q : ℚ} {x : Float} (least : 2 ^ (-1074 : ℤ) ≤ |q|)
    (h : Rounds q x) : ¬IsZero x := by
  rintro ⟨sign, zero⟩
  have value : value? x = some 0 := by simp [value?, zero, unpackedValue?]
  have nothing : nearest q = 0 := by
    unfold Rounds at h
    split at h
    · exact Option.some.inj (h.symm.trans value)
    · rw [zero] at h
      cases h
  have size : (2 : ℚ) ^ (-1074 : ℤ) ≤ nearest |q| := by
    rw [← nearest_of_fits (fits_two_zpow le_rfl)]
    exact nearest_mono least
  have none : nearest |q| = 0 := by
    obtain same | opposite := abs_choice q
    · rw [same, nothing]
    · rw [opposite, nearest_neg, nothing, neg_zero]
  rw [none] at size
  exact absurd size (not_le.mpr (two_zpow_pos _))

theorem unpack_normalize_ne {mantissa exponent : ℤ} (least : -1074 ≤ exponent) :
    unpack (.ofModel (.pack (UnpackedFloat.normalize .binary64 mantissa exponent .positive))) ≠
      .zero .negative := by
  intro negative
  by_cases none : mantissa = 0
  · rw [none] at negative
    cases (unpack_pack_zero .positive).symm.trans negative
  · refine not_isZero_of_rounds ?_ (rounds_normalize mantissa exponent .positive) ⟨_, negative⟩
    have one : (1 : ℚ) ≤ |(mantissa : ℚ)| := by exact_mod_cast Int.one_le_abs none
    rw [abs_mul, abs_of_pos (two_zpow_pos exponent)]
    calc
      (2 : ℚ) ^ (-1074 : ℤ) ≤ 2 ^ exponent := zpow_le_zpow_right₀ one_le_two least
      _ ≤ |(mantissa : ℚ)| * 2 ^ exponent := le_mul_of_one_le_left (two_zpow_pos _).le one

theorem negative_of_add {x y : Float} (h : unpack (x + y) = .zero .negative) :
    unpack x = .zero .negative ∧ unpack y = .zero .negative := by
  rw [add_eq_packed] at h
  cases first : unpack x <;> cases second : unpack y <;> rw [first, second] at h
  case finite.finite =>
    have least := (canonical_of_unpack first).1.2.1
    have least' := (canonical_of_unpack second).1.2.1
    exact absurd h (unpack_normalize_ne (le_min least least'))
  case zero.zero sign sign' =>
    cases sign <;> cases sign'
    case negative.negative => exact ⟨rfl, rfl⟩
    all_goals cases (unpack_pack_zero .positive).symm.trans h
  -- the other operand comes out as it is, and it is no zero
  case zero.finite =>
    have kept := unpack_pack_unpack y
    rw [second] at kept
    cases kept.symm.trans h
  case finite.zero =>
    have kept := unpack_pack_unpack x
    rw [first] at kept
    cases kept.symm.trans h
  case infinity.infinity sign sign' =>
    cases sign <;> cases sign'
    case negative.negative | positive.positive => cases (unpack_pack_infinity _).symm.trans h
    all_goals cases unpack_pack_notANumber.symm.trans h
  case infinity.zero | infinity.finite | zero.infinity | finite.infinity =>
    cases (unpack_pack_infinity _).symm.trans h
  all_goals cases unpack_pack_notANumber.symm.trans h

end FormulaLayout.Number
