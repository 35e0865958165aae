import FormulaLayout.Grid.Resolve
import FormulaLayout.Proofs.Number.Amount

/-! Edges as amounts. Where weights are amounts, so are their running sums, and an edge is the
extent times one sum over the last one, rounded after each step, and stretched by what the gaps
before it are of all gaps. Every step is monotone, also where it is not a number or runs into
infinity, and so the edges are in order. Only the far edge of the last index may be stretched past
what is there. -/
namespace FormulaLayout.Grid
open Number Number.Amount
variable {α : Type}

def runningAmount (amounts : ℕ → Amount) : ℕ → Amount
  | 0 => 0
  | count + 1 => rounded (runningAmount amounts count + amounts count)

theorem rounded_runningAmount (amounts : ℕ → Amount) (count : ℕ) :
    rounded (runningAmount amounts count) = runningAmount amounts count := by
  cases count with
  | zero => exact rounded_zero
  | succ count => exact rounded_rounded _

theorem runningAmount_mono (amounts : ℕ → Amount) : Monotone (runningAmount amounts) := by
  refine monotone_nat_of_le_succ fun count => ?_
  rw [← rounded_runningAmount amounts count]
  exact rounded_mono le_self_add

/-- The first weight is not added to zero, but that would not change it. -/
theorem isAmount_prefixSum {weights : ℕ → Float} {amounts : ℕ → Amount} {count : ℕ}
    (h : ∀ k < count, IsAmount (weights k) (amounts k)) :
    IsAmount (prefixSum weights count) (runningAmount amounts count) := by
  induction count with
  | zero => exact isAmount_zero (show unpack (0 : Float) = .zero .positive from rfl)
  | succ count ih =>
    cases count with
    | zero =>
      have first : IsAmount (weights 0) (amounts 0) := h 0 Nat.zero_lt_one
      have kept : rounded (amounts 0) = amounts 0 := CountsAs.rounded_eq (.inl first)
      rw [prefixSum_one, runningAmount, runningAmount, zero_add, kept]
      exact first
    | succ count =>
      rw [prefixSum_succ_succ]
      exact isAmount_add (ih fun k less => h k (by omega)) (h (count + 1) (by omega))

theorem exists_amounts {weights : ℕ → Float} {count : ℕ} {P : Amount → Prop}
    (each : ∀ k < count, ∃ a, IsAmount (weights k) a ∧ P a) :
    ∃ amounts : ℕ → Amount, ∀ k < count, IsAmount (weights k) (amounts k) ∧ P (amounts k) := by
  have total : ∀ k : ℕ, ∃ a, k < count → IsAmount (weights k) a ∧ P a := by
    intro k
    by_cases below : k < count
    · obtain ⟨a, known⟩ := each k below
      exact ⟨a, fun _ => known⟩
    · exact ⟨0, fun below' => absurd below' below⟩
  choose amounts known using total
  exact ⟨amounts, known⟩

/-- What the indices below this one have of the extent, before it is cut to pixels. -/
def share (amounts : ℕ → Amount) (extent : ℤ) (count index : ℕ) : Amount :=
  rounded (quotient (rounded (rounded (extent.toNat : ℚ≥0) * runningAmount amounts index))
    (runningAmount amounts count))

theorem share_mono (amounts : ℕ → Amount) (extent : ℤ) (count : ℕ) :
    Monotone (share amounts extent count) := by
  intro i j ordered
  refine rounded_mono (quotient_mono _ (rounded_mono ?_))
  exact mul_le_mul_right (runningAmount_mono amounts ordered) _

theorem countsAs_share {grid : Grid α} {axis : Axis} {amounts : ℕ → Amount} {extent : ℤ}
    (weights : ∀ k < grid.bounds.get axis, IsAmount (grid.weight axis k) (amounts k))
    (sized : 0 ≤ extent) {index : ℕ} (below : index ≤ grid.bounds.get axis) :
    CountsAs
      (ofWhole extent * grid.weightSum axis index / grid.weightSum axis (grid.bounds.get axis))
      (share amounts extent (grid.bounds.get axis) index) := by
  have sum : IsAmount (grid.weightSum axis index) (runningAmount amounts index) :=
    isAmount_prefixSum fun k less => weights k (less.trans_le below)
  have total : IsAmount (grid.weightSum axis (grid.bounds.get axis))
    (runningAmount amounts (grid.bounds.get axis)) := isAmount_prefixSum weights
  have product := countsAs_mul (.inl (isAmount_ofWhole sized)) (.inl sum)
  refine countsAs_div product total fun none => ?_
  have first := runningAmount_mono amounts below
  rw [none, nonpos_iff_eq_zero] at first
  rw [first, mul_zero]
  exact .inl rounded_zero

def stretch (part whole : ℤ) : Amount :=
  if part = whole then 1
  else rounded (quotient (rounded (part.toNat : ℚ≥0)) (rounded (whole.toNat : ℚ≥0)))

theorem stretch_self (whole : ℤ) : stretch whole whole = 1 := if_pos rfl

theorem rounded_toNat_le {part whole : ℤ} (h : part ≤ whole) :
    rounded (part.toNat : ℚ≥0) ≤ rounded (whole.toNat : ℚ≥0) :=
  rounded_mono (by exact_mod_cast Int.toNat_le_toNat h)

theorem stretch_le_one {part whole : ℤ} (h : part ≤ whole) : stretch part whole ≤ 1 := by
  have one : rounded 1 = 1 := by exact_mod_cast rounded_natCast (n := 1) (by norm_num)
  unfold stretch
  split
  · exact le_rfl
  · exact (rounded_mono (quotient_le_one (rounded_toNat_le h))).trans_eq one

theorem stretch_le_stretch {part part' whole : ℤ} (ordered : part ≤ part') (most : part' ≤ whole) :
    stretch part whole ≤ stretch part' whole := by
  obtain rfl | less : part' = whole ∨ part' < whole := most.eq_or_lt
  · rw [stretch_self]
    exact stretch_le_one ordered
  · rw [stretch, if_neg (ordered.trans_lt less).ne, stretch, if_neg less.ne]
    exact rounded_mono (quotient_mono _ (rounded_toNat_le ordered))

theorem eq_zero_of_rounded_toNat {n : ℤ} (least : 0 ≤ n)
    (none : rounded (n.toNat : ℚ≥0) = 0) : n = 0 := by
  by_contra some
  have one : rounded 1 = 1 := by exact_mod_cast rounded_natCast (n := 1) (by norm_num)
  have positive : (1 : Amount) ≤ ((n.toNat : ℚ≥0) : Amount) := by
    exact_mod_cast (by omega : 1 ≤ n.toNat)
  have grows := rounded_mono positive
  rw [one, none] at grows
  exact absurd grows (by simp)

theorem countsAs_wholeIdentityDiv {part whole : ℤ} (least : 0 ≤ part) (least' : 0 ≤ whole) :
    CountsAs (wholeIdentityDiv part whole) (stretch part whole) := by
  unfold wholeIdentityDiv stretch
  split
  · exact .inl isAmount_one
  · refine countsAs_div (.inl (isAmount_ofWhole least)) (isAmount_ofWhole least') fun none => .inr ?_
    obtain rfl := eq_zero_of_rounded_toNat least' none
    rfl

theorem edge_of_amounts_spaced {grid : Grid α} {axis : Axis} {amounts : ℕ → Amount}
    {extent margin : ℤ}
    (weights : ∀ k < grid.bounds.get axis, IsAmount (grid.weight axis k) (amounts k))
    (sized : 0 ≤ extent) (spaced : 0 ≤ margin) {index : ℕ} (below : index ≤ grid.bounds.get axis)
    (whole : 0 ≤ margin * ((grid.bounds.get axis : ℤ) - 1)) :
    grid.edge axis extent margin index =
      pixels (rounded (share amounts extent (grid.bounds.get axis) index *
        stretch (margin * index) (margin * ((grid.bounds.get axis : ℤ) - 1)))) := by
  have least : 0 ≤ margin * index := mul_nonneg spaced (Int.natCast_nonneg index)
  exact truncatePixel_of_countsAs
    (countsAs_mul (countsAs_share weights sized below) (countsAs_wholeIdentityDiv least whole))

theorem edge_le_edge_spaced {grid : Grid α} {axis : Axis} {amounts : ℕ → Amount}
    {extent margin : ℤ}
    (weights : ∀ k < grid.bounds.get axis, IsAmount (grid.weight axis k) (amounts k))
    (sized : 0 ≤ extent) (spaced : 0 ≤ margin) {i j : ℕ} (ordered : i ≤ j)
    (below : j < grid.bounds.get axis) :
    grid.edge axis extent margin i ≤ grid.edge axis extent margin j := by
  have parts : margin * i ≤ margin * j :=
    mul_le_mul_of_nonneg_left (Int.ofNat_le.mpr ordered) spaced
  have most : margin * j ≤ margin * ((grid.bounds.get axis : ℤ) - 1) :=
    mul_le_mul_of_nonneg_left (by omega) spaced
  have whole : 0 ≤ margin * ((grid.bounds.get axis : ℤ) - 1) := mul_nonneg spaced (by omega)
  rw [edge_of_amounts_spaced weights sized spaced (ordered.trans below.le) whole,
    edge_of_amounts_spaced weights sized spaced below.le whole]
  refine pixels_mono (rounded_mono ?_)
  exact mul_le_mul' (share_mono amounts extent _ ordered) (stretch_le_stretch parts most)

theorem edge_of_amounts {grid : Grid α} {axis : Axis} {amounts : ℕ → Amount} {extent : ℤ}
    (weights : ∀ k < grid.bounds.get axis, IsAmount (grid.weight axis k) (amounts k))
    (sized : 0 ≤ extent) {index : ℕ} (below : index ≤ grid.bounds.get axis) :
    grid.edge axis extent 0 index =
      pixels (rounded (quotient
        (rounded (rounded (extent.toNat : ℚ≥0) * runningAmount amounts index))
        (runningAmount amounts (grid.bounds.get axis)))) := by
  have edge := edge_of_amounts_spaced weights sized le_rfl below (by rw [zero_mul])
  rw [zero_mul, zero_mul, stretch_self, mul_one, share, rounded_rounded] at edge
  exact edge

theorem edge_le_edge {grid : Grid α} {axis : Axis} {amounts : ℕ → Amount} {extent : ℤ}
    (weights : ∀ k < grid.bounds.get axis, IsAmount (grid.weight axis k) (amounts k))
    (sized : 0 ≤ extent) {i j : ℕ} (ordered : i ≤ j) (below : j ≤ grid.bounds.get axis) :
    grid.edge axis extent 0 i ≤ grid.edge axis extent 0 j := by
  rw [edge_of_amounts weights sized (ordered.trans below), edge_of_amounts weights sized below]
  exact pixels_mono (share_mono amounts extent _ ordered)

end FormulaLayout.Grid
