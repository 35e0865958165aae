import FormulaLayout.Proofs.Number.Arithmetic

/-! The order of floats. They are compared by sign, then exponent, then mantissa, and for finite
floats that is the order of their values, because mantissas are kept full. Beside the finite ones
stand the infinities, each at its end, and what is not a number is not compared at all. -/
namespace FormulaLayout.Number
open Float.Model Float.Model.UnpackedFloat

theorem Canonical.value_le {mantissa mantissa' : ℕ} {exponent exponent' : ℤ}
    (h : Canonical mantissa exponent) (h' : Canonical mantissa' exponent')
    (order : ((compare exponent exponent').then (compare mantissa mantissa')).isLE = true) :
    (mantissa : ℚ) * 2 ^ exponent ≤ mantissa' * 2 ^ exponent' := by
  rcases Ordering.isLE_then_iff_or.mp order with finer | ⟨level, less⟩
  · -- the mantissa at the larger exponent is full, and twice that outweighs any other
    have finer : exponent < exponent' := compare_lt_iff_lt.mp finer
    have full : 2 ^ 52 ≤ mantissa' := h'.2.2.resolve_right (by have := h.2.1; omega)
    calc
      (mantissa : ℚ) * 2 ^ exponent ≤ 2 ^ (53 : ℤ) * 2 ^ exponent := by
        gcongr
        exact_mod_cast h.1.le
      _ = 2 ^ (52 : ℤ) * 2 ^ (exponent + 1) := by
        rw [← two_zpow_add, ← two_zpow_add]
        congr 1
        omega
      _ ≤ mantissa' * 2 ^ exponent' := by
        gcongr
        · exact_mod_cast full
        · exact one_le_two
        · omega
  · obtain rfl : exponent = exponent' := compare_eq_iff_eq.mp level
    gcongr
    exact compare_le_iff_le.mp (Ordering.isLE_iff_ne_gt.mp less)

theorem value_le {x y : Float} {a b : ℚ} (left : value? x = some a) (right : value? y = some b)
    (h : x ≤ y) : a ≤ b := by
  have compared : UnpackedFloat.le (unpack x) (unpack y) = true := of_decide_eq_true h
  obtain ⟨sign, first, rfl⟩ | ⟨sign, mantissa, exponent, positive, first, rfl⟩ :=
      unpack_of_value left <;>
    obtain ⟨sign', second, rfl⟩ | ⟨sign', mantissa', exponent', positive', second, rfl⟩ :=
      unpack_of_value right
  · exact le_rfl
  · rw [first, second] at compared
    cases sign' with
    | negative => cases compared
    | positive => exact scaled_nonneg mantissa' exponent'
  · rw [first, second] at compared
    cases sign with
    | negative => exact neg_nonpos_of_nonneg (scaled_nonneg mantissa exponent)
    | positive => cases compared
  · rw [first, second] at compared
    obtain ⟨canonical, -⟩ := canonical_of_unpack first
    obtain ⟨canonical', -⟩ := canonical_of_unpack second
    cases sign with
    | negative =>
      cases sign' with
      | negative =>
        -- of two negative floats the larger one has the smaller magnitude
        have order : (((compare exponent exponent').then
            (compare mantissa mantissa')).swap).isLE = true := compared
        rw [Ordering.swap_then, ← Std.OrientedCmp.eq_swap, ← Std.OrientedCmp.eq_swap] at order
        exact neg_le_neg (canonical'.value_le canonical order)
      | positive =>
        exact (neg_nonpos_of_nonneg (scaled_nonneg mantissa exponent)).trans (scaled_nonneg ..)
    | positive =>
      cases sign' with
      | negative => cases compared
      | positive => exact canonical.value_le canonical' compared

theorem exists_values_of_le {x y : Float} (h : x ≤ y) :
    unpack x = .infinity .negative ∨ unpack y = .infinity .positive ∨
      ∃ a b, value? x = some a ∧ value? y = some b ∧ a ≤ b := by
  have compared : UnpackedFloat.le (unpack x) (unpack y) = true := of_decide_eq_true h
  by_cases low : unpack x = .infinity .negative
  · exact .inl low
  by_cases high : unpack y = .infinity .positive
  · exact .inr (.inl high)
  have finite : ∃ a b, value? x = some a ∧ value? y = some b := by
    unfold value?
    generalize unpack x = first, unpack y = second at compared low high
    rcases first with ⟨_ | _⟩ | _ | _ | _ <;> rcases second with ⟨_ | _⟩ | _ | _ | _ <;>
      simp_all [UnpackedFloat.le, UnpackedFloat.compare, unpackedValue?]
    cases compared
  obtain ⟨a, b, left, right⟩ := finite
  exact .inr (.inr ⟨a, b, left, right, value_le left right h⟩)

end FormulaLayout.Number
