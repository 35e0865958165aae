import FormulaLayout.Proofs.Grid.Edges
import FormulaLayout.Proofs.Grid.Gaps

/-! Cells do not overlap. A cell ends a gap before the edge behind it, and with weights from zero up
the edges of later indices are no earlier than that one. This holds for weights that are infinite,
for totals that are zero and for gaps wider than the cells, whose lengths are then below zero. -/
namespace FormulaLayout

/-- The pixel lies within the rectangle. One of no size, or less, has no pixels. -/
def PixelRect.Covers (rect : PixelRect) (x y : Int) : Prop :=
  rect.x ≤ x ∧ x < rect.right ∧ rect.y ≤ y ∧ y < rect.bottom

theorem PixelRect.not_both_cover {rect rect' : PixelRect} {axis : Axis}
    (apart : rect.origin.get axis + rect.extent.get axis ≤ rect'.origin.get axis) (x y : Int) :
    ¬(rect.Covers x y ∧ rect'.Covers x y) := by
  simp only [Covers, right, bottom]
  cases axis <;> simp only [origin, extent, PerAxis.get] at apart <;> omega

theorem Cell.exists_index_ne {cell cell' : Cell} (different : cell ≠ cell') :
    ∃ axis, cell.index axis ≠ cell'.index axis := by
  by_contra! same
  refine different ?_
  obtain ⟨col, row⟩ := cell
  rw [show col = cell'.col from same .x, show row = cell'.row from same .y]

namespace Grid
open Number
variable {α : Type}

/-- No weight that is in use is below zero or not a number. -/
def Weighted (grid : Grid α) : Prop :=
  ∀ axis, ∀ index < grid.bounds.get axis, (0 : Float) ≤ grid.weight axis index

theorem Weighted.amounts {grid : Grid α} (weighted : grid.Weighted) (axis : Axis) :
    ∃ amounts : ℕ → Amount,
      ∀ k < grid.bounds.get axis, IsAmount (grid.weight axis k) (amounts k) := by
  obtain ⟨amounts, known⟩ := exists_amounts (P := fun _ => True) fun index below =>
    (exists_isAmount_of_nonneg (weighted axis index below)).imp fun a known => ⟨known, trivial⟩
  exact ⟨amounts, fun k below => (known k below).1⟩

theorem spanIn_le {grid : Grid α} (weighted : grid.Weighted) {parent : PixelRect} {axis : Axis}
    {strip : Strip} (known : grid.strip parent axis = .ok strip) {i j : ℕ} (less : i < j)
    (below : j < grid.bounds.get axis) :
    (grid.spanIn axis strip i).1 + (grid.spanIn axis strip i).2 ≤
      (grid.spanIn axis strip j).1 := by
  obtain ⟨amounts, weights⟩ := weighted.amounts axis
  have gap := gap_nonneg known
  have ordered := edge_le_edge_spaced weights (extent_nonneg known) gap less below
  simp only [spanIn, Grid.span]
  change grid.edge axis strip.extent strip.gap (i + 1) ≤ _ at ordered
  omega

theorem end_le_start {operations : List (Operation α)} (weighted : (run operations).Weighted)
    {parent rect rect' : PixelRect} {cell cell' : Cell}
    (occupied : (run operations).contains cell = true)
    (occupied' : (run operations).contains cell' = true)
    (done : (run operations).resolve cell parent = .ok rect)
    (done' : (run operations).resolve cell' parent = .ok rect') {axis : Axis}
    (less : cell.index axis < cell'.index axis) :
    rect.origin.get axis + rect.extent.get axis ≤ rect'.origin.get axis := by
  obtain ⟨strip, known, span⟩ := span_of_resolve occupied done axis
  obtain ⟨strip', known', span'⟩ := span_of_resolve occupied' done' axis
  rw [known] at known'
  cases known'
  have ordered := spanIn_le weighted known less (within_run operations cell' occupied' axis)
  rwa [span, span'] at ordered

/-- Of two occupied cells the one with the lower index on an axis ends before the other one starts
there, and so no pixel is in both. -/
theorem cells_do_not_overlap {operations : List (Operation α)}
    (weighted : (run operations).Weighted) {parent rect rect' : PixelRect} {cell cell' : Cell}
    (different : cell ≠ cell') (occupied : (run operations).contains cell = true)
    (occupied' : (run operations).contains cell' = true)
    (done : (run operations).resolve cell parent = .ok rect)
    (done' : (run operations).resolve cell' parent = .ok rect') :
    (∀ axis, cell.index axis < cell'.index axis →
      rect.origin.get axis + rect.extent.get axis ≤ rect'.origin.get axis) ∧
      (∀ axis, cell'.index axis < cell.index axis →
        rect'.origin.get axis + rect'.extent.get axis ≤ rect.origin.get axis) ∧
      ∀ x y, ¬(rect.Covers x y ∧ rect'.Covers x y) := by
  have forward : ∀ axis, cell.index axis < cell'.index axis →
      rect.origin.get axis + rect.extent.get axis ≤ rect'.origin.get axis :=
    fun _ less => end_le_start weighted occupied occupied' done done' less
  have backward : ∀ axis, cell'.index axis < cell.index axis →
      rect'.origin.get axis + rect'.extent.get axis ≤ rect.origin.get axis :=
    fun _ more => end_le_start weighted occupied' occupied done' done more
  refine ⟨forward, backward, fun x y both => ?_⟩
  obtain ⟨axis, distinct⟩ := Cell.exists_index_ne different
  rcases Nat.lt_or_gt_of_ne distinct with less | more
  · exact PixelRect.not_both_cover (forward axis less) x y both
  · exact PixelRect.not_both_cover (backward axis more) x y both.symm

def wideGaps : List (Operation Unit) :=
  [.place ⟨0, 0⟩ (), .place ⟨2, 1⟩ (), .setWeight .x 0 0.5, .setWeight .x 1 (-0),
    .setMargin (some "width") (some "1"), .setFrame none (some "2")]

theorem wideGaps_do_not_overlap :
    (run wideGaps).Weighted ∧
      (run wideGaps).resolve ⟨0, 0⟩ ⟨5, 5, 100, 11⟩ = .ok ⟨5, 7, -84, 2⟩ ∧
      (run wideGaps).resolve ⟨2, 1⟩ ⟨5, 5, 100, 11⟩ = .ok ⟨38, 10, 17, 10⟩ ∧
      (5 : Int) + -84 ≤ 38 ∧ (7 : Int) + 2 ≤ 10 ∧
      ∀ x y, ¬((⟨5, 7, -84, 2⟩ : PixelRect).Covers x y ∧
        (⟨38, 10, 17, 10⟩ : PixelRect).Covers x y) := by
  have weighted : (run wideGaps).Weighted := by
    intro axis
    cases axis <;> decide +kernel
  have first : (run wideGaps).resolve ⟨0, 0⟩ ⟨5, 5, 100, 11⟩ = .ok ⟨5, 7, -84, 2⟩ := by
    decide +kernel
  have last : (run wideGaps).resolve ⟨2, 1⟩ ⟨5, 5, 100, 11⟩ = .ok ⟨38, 10, 17, 10⟩ := by
    decide +kernel
  obtain ⟨forward, -, apart⟩ :=
    cells_do_not_overlap weighted (by decide) (by decide) (by decide) first last
  exact ⟨weighted, first, last, forward .x (by decide), forward .y (by decide), apart⟩

end Grid
end FormulaLayout
