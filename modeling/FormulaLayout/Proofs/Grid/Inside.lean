import FormulaLayout.Proofs.Grid.Disjoint
import FormulaLayout.Proofs.Grid.Partition

/-! Cells within their parent. Without gaps, and with a frame that does not reach outward, a cell
lies within the parent as soon as the extent times the total weight is finite: what its product
with the total is rounded up by never makes up a pixel after the division. -/
namespace FormulaLayout

structure PixelRect.Inside (inner outer : PixelRect) : Prop where
  left : outer.x ≤ inner.x
  right : inner.right ≤ outer.right
  top : outer.y ≤ inner.y
  bottom : inner.bottom ≤ outer.bottom

def PixelRect.Sized (rect : PixelRect) : Prop :=
  ∀ axis, 0 ≤ rect.extent.get axis ∧ rect.extent.get axis ≤ pixelMax

theorem PixelRect.Inside.refl (rect : PixelRect) : rect.Inside rect :=
  ⟨le_rfl, le_rfl, le_rfl, le_rfl⟩

theorem PixelRect.Inside.trans {a b c : PixelRect} (inner : a.Inside b) (outer : b.Inside c) :
    a.Inside c :=
  ⟨outer.left.trans inner.left, inner.right.trans outer.right, outer.top.trans inner.top,
    inner.bottom.trans outer.bottom⟩

theorem PixelRect.inside_of_axes {inner outer : PixelRect}
    (each : ∀ axis, outer.origin.get axis ≤ inner.origin.get axis ∧
      inner.origin.get axis + inner.extent.get axis ≤
        outer.origin.get axis + outer.extent.get axis) : inner.Inside outer :=
  ⟨(each .x).1, (each .x).2, (each .y).1, (each .y).2⟩

instance {P : Axis → Prop} [DecidablePred P] : Decidable (∀ axis, P axis) :=
  decidable_of_iff (P .x ∧ P .y) Axis.forall_iff.symm

instance (rect : PixelRect) : Decidable rect.Sized :=
  inferInstanceAs (Decidable (∀ axis, 0 ≤ rect.extent.get axis ∧ rect.extent.get axis ≤ pixelMax))

namespace Grid
open Number Number.Amount
variable {α : Type} {grid : Grid α} {parent : PixelRect} {axis : Axis}

theorem far_edge_le {amounts : ℕ → Amount} {extent : ℤ}
    (weights : ∀ k < grid.bounds.get axis, IsAmount (grid.weight axis k) (amounts k))
    (sized : 0 ≤ extent) (small : extent ≤ pixelMax)
    (finite : (value? (ofWhole extent * grid.weightSum axis (grid.bounds.get axis))).isSome) :
    grid.edge axis extent 0 (grid.bounds.get axis) ≤ extent := by
  have total : IsAmount (grid.weightSum axis (grid.bounds.get axis))
    (runningAmount amounts (grid.bounds.get axis)) := isAmount_prefixSum weights
  have converted := isAmount_ofWhole sized
  rw [edge_of_amounts weights sized le_rfl]
  lift extent to ℕ using sized
  have exact : rounded ((extent : ℚ≥0) : Amount) = (extent : ℚ≥0) := by
    refine rounded_natCast ?_
    simp only [pixelMax] at small
    omega
  rw [Int.toNat_natCast, exact] at converted ⊢
  generalize runningAmount amounts (grid.bounds.get axis) = amount at total ⊢
  have none : pixels 0 ≤ extent := Int.natCast_nonneg extent
  induction amount using WithTop.recTopCoe with
  | top =>
    rw [quotient_top, rounded_zero]
    exact none
  | coe t =>
    obtain rfl | some := eq_or_ne t 0
    · -- all weights are zero, and so are all edges
      rw [WithTop.coe_zero, mul_zero, rounded_zero, zero_quotient, rounded_zero]
      exact none
    · have value : value? (grid.weightSum axis (grid.bounds.get axis)) = Option.some (t : ℚ) := total
      have product := isAmount_mul converted total
      rw [← WithTop.coe_mul]
      generalize rounding : rounded (((extent : ℚ≥0) * t : ℚ≥0) : Amount) = rest at product ⊢
      induction rest using WithTop.recTopCoe with
      | top =>
        have infinite : unpack (ofWhole extent * grid.weightSum axis (grid.bounds.get axis)) =
            .infinity .positive := product
        simp [value?, infinite, unpackedValue?] at finite
      | coe p =>
        have floor := pixels_quotient small some (fits_of_value value).1 rounding
        exact floor.1.trans_le floor.2

structure Tame (grid : Grid α) (parent : PixelRect) : Prop where
  weighted : grid.Weighted
  margin : ∀ axis margin, measure (grid.margin.get axis)
    (.forContainer (ofWhole parent.width) (ofWhole parent.height)) = .ok margin → margin ≤ 0
  frame : ∀ axis frame, measure (grid.frame.get axis)
    (.forContainer (ofWhole parent.width) (ofWhole parent.height)) = .ok frame → 0 ≤ frame
  finite : ∀ axis strip, grid.strip parent axis = .ok strip →
    (value? (ofWhole strip.extent * grid.weightSum axis (grid.bounds.get axis))).isSome

instance {ε β : Type} (outcome : Except ε β) (P : β → Prop) [DecidablePred P] :
    Decidable (∀ value, outcome = .ok value → P value) :=
  match outcome with
  | .error _ => isTrue fun _ done => nomatch done
  | .ok value => decidable_of_iff (P value) (by simp)

instance (grid : Grid α) : Decidable grid.Weighted :=
  inferInstanceAs (Decidable (∀ axis, ∀ index < grid.bounds.get axis, 0 ≤ grid.weight axis index))

theorem tame_iff (grid : Grid α) (parent : PixelRect) :
    grid.Tame parent ↔ grid.Weighted ∧ ∀ axis,
      (∀ margin, measure (grid.margin.get axis)
        (.forContainer (ofWhole parent.width) (ofWhole parent.height)) = .ok margin →
          margin ≤ 0) ∧
      (∀ frame, measure (grid.frame.get axis)
        (.forContainer (ofWhole parent.width) (ofWhole parent.height)) = .ok frame → 0 ≤ frame) ∧
      ∀ strip, grid.strip parent axis = .ok strip →
        (value? (ofWhole strip.extent * grid.weightSum axis (grid.bounds.get axis))).isSome :=
  ⟨fun h => ⟨h.weighted, fun axis => ⟨h.margin axis, h.frame axis, h.finite axis⟩⟩,
    fun h => ⟨h.1, fun axis => (h.2 axis).1, fun axis => (h.2 axis).2.1, fun axis => (h.2 axis).2.2⟩⟩

instance (grid : Grid α) (parent : PixelRect) : Decidable (grid.Tame parent) :=
  decidable_of_iff _ (tame_iff grid parent).symm

theorem content_inside (origin : ℤ) {extent frame : ℤ} (framed : 0 ≤ frame) (sized : 0 ≤ extent) :
    origin ≤ (content origin extent frame).1 ∧
      (content origin extent frame).1 + (content origin extent frame).2 ≤ origin + extent ∧
      (content origin extent frame).2 ≤ extent := by
  unfold content
  dsimp only
  split
  · dsimp only
    omega
  · dsimp only
    omega

theorem Tame.strip_inside (tame : grid.Tame parent) (sized : 0 ≤ parent.extent.get axis)
    {strip : Strip} (known : grid.strip parent axis = .ok strip) :
    parent.origin.get axis ≤ strip.origin ∧
      strip.origin + strip.extent ≤ parent.origin.get axis + parent.extent.get axis ∧
      strip.extent ≤ parent.extent.get axis ∧ strip.gap = 0 := by
  obtain ⟨frame, margin, framed, spaced, inside, gap⟩ := exists_of_strip known
  have bounds := content_inside (parent.origin.get axis) (tame.frame axis frame framed) sized
  rw [inside] at bounds
  have narrow := tame.margin axis margin spaced
  refine ⟨bounds.1, bounds.2.1, bounds.2.2, ?_⟩
  rw [gap, effectiveMargin]
  split
  · rfl
  · omega

theorem Tame.converts (tame : grid.Tame parent) (sized : parent.Sized) (cell : Cell) :
    grid.Converts parent cell := by
  have holds {n : Int} (low : 0 ≤ n) (high : n ≤ pixelMax) : HoldsWhole n :=
    holdsWhole_of_bounds (by omega) (high.trans (by decide))
  refine ⟨fun axis => holds (sized axis).1 (sized axis).2, fun axis strip known => ?_⟩
  obtain ⟨-, -, narrow, gap⟩ := tame.strip_inside (sized axis).1 known
  rw [gap]
  have extent := holds (extent_nonneg known) (narrow.trans (sized axis).2)
  exact spannable_of_no_gap extent grid axis (cell.index axis)

theorem Tame.spanIn_inside (tame : grid.Tame parent) (sized : parent.Sized) {strip : Strip}
    (known : grid.strip parent axis = .ok strip) {index : ℕ}
    (below : index < grid.bounds.get axis) :
    0 ≤ (grid.spanIn axis strip index).2 ∧ strip.origin ≤ (grid.spanIn axis strip index).1 ∧
      (grid.spanIn axis strip index).1 + (grid.spanIn axis strip index).2 ≤
        strip.origin + strip.extent := by
  obtain ⟨amounts, weights⟩ := tame.weighted.amounts axis
  have positive := extent_nonneg known
  obtain ⟨-, -, narrow, gap⟩ := tame.strip_inside (sized axis).1 known
  have near := edge_le_edge weights positive (Nat.zero_le index) below.le
  have here := edge_le_edge weights positive (Nat.le_add_right index 1) below
  have far := edge_le_edge weights positive (Nat.succ_le_of_lt below) le_rfl
  rw [Nat.succ_eq_add_one] at far
  have last := far_edge_le weights positive (narrow.trans (sized axis).2)
    (tame.finite axis strip known)
  rw [edge_zero] at near
  simp only [spanIn, span, gap]
  omega

theorem Tame.resolve_inside (tame : grid.Tame parent) (sized : parent.Sized)
    (within : grid.Within) {cell : Cell} (occupied : grid.contains cell = true)
    {rect : PixelRect} (done : grid.resolve cell parent = .ok rect) :
    rect.Inside parent ∧ rect.Sized := by
  have each : ∀ axis, 0 ≤ rect.extent.get axis ∧
      parent.origin.get axis ≤ rect.origin.get axis ∧
      rect.origin.get axis + rect.extent.get axis ≤
        parent.origin.get axis + parent.extent.get axis := by
    intro axis
    obtain ⟨strip, known, span⟩ := span_of_resolve occupied done axis
    have cut := tame.spanIn_inside sized known (within cell occupied axis)
    have outer := tame.strip_inside (sized axis).1 known
    rw [span] at cut
    dsimp only at cut
    omega
  refine ⟨PixelRect.inside_of_axes fun axis => (each axis).2, fun axis => ?_⟩
  have here := each axis
  have whole := sized axis
  omega

end Grid
end FormulaLayout
