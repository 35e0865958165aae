import FormulaLayout.Proofs.Grid.Inside
import FormulaLayout.Proofs.Placement.Chain

/-! The space of pixels, and what leaves it. Whatever is cut or rounded to pixels lies in it. The
numbers of a rectangle are sums and differences of such values and are not held back, so they reach
a little further. A free rectangle leaves the space by the length of a continuation only, when its
edges are too far apart. A cell leaves it when its frame, its edge or its gap carries it out, which
does not happen while the weights are amounts and the content lies in the space. -/
namespace FormulaLayout
open Number

def IsPixel (n : Int) : Prop := pixelMin ≤ n ∧ n ≤ pixelMax

instance (n : Int) : Decidable (IsPixel n) := inferInstanceAs (Decidable (_ ∧ _))

namespace PixelRect

def Between (low high : Int) (rect : PixelRect) : Prop :=
  ∀ axis, (low ≤ rect.origin.get axis ∧ rect.origin.get axis ≤ high) ∧
    low ≤ rect.extent.get axis ∧ rect.extent.get axis ≤ high

def InPixelSpace (rect : PixelRect) : Prop := rect.Between pixelMin pixelMax

instance (low high : Int) (rect : PixelRect) : Decidable (rect.Between low high) :=
  inferInstanceAs (Decidable (∀ _ : Axis, _ ∧ _))

instance (rect : PixelRect) : Decidable rect.InPixelSpace :=
  inferInstanceAs (Decidable (rect.Between _ _))

/-- Of no size below zero, and with both corners in the pixel space. -/
structure IsCanvas (canvas : PixelRect) : Prop where
  sized : ∀ axis, 0 ≤ canvas.extent.get axis
  near : ∀ axis, IsPixel (canvas.origin.get axis)
  far : ∀ axis, IsPixel (canvas.far axis)

theorem isCanvas_iff (canvas : PixelRect) : canvas.IsCanvas ↔
    ∀ axis, 0 ≤ canvas.extent.get axis ∧ IsPixel (canvas.origin.get axis) ∧
      IsPixel (canvas.far axis) :=
  ⟨fun h axis => ⟨h.sized axis, h.near axis, h.far axis⟩,
    fun h => ⟨fun axis => (h axis).1, fun axis => (h axis).2.1, fun axis => (h axis).2.2⟩⟩

instance (canvas : PixelRect) : Decidable canvas.IsCanvas :=
  decidable_of_iff _ (isCanvas_iff canvas).symm

end PixelRect

namespace FreePlacement.Resolution
variable {placement : FreePlacement} {canvas rect : PixelRect} {extents : PerAxis Float}
  (resolution : placement.Resolution canvas extents rect)
include resolution

theorem isPixel_origin (axis : Axis) : IsPixel (rect.origin.get axis) := by
  obtain ⟨value, -, -, rounded⟩ := start_eq_ok_iff.mp (resolution.starts axis)
  rw [← rounded]
  exact roundPixel_bounds _

theorem isPixel_far {axis : Axis} (marked : (placement.size.get axis).continuation = true) :
    IsPixel (rect.far axis) := by
  rw [PixelRect.far, resolution.lengths axis, Dimension.add_length_of_continuation marked]
  exact roundPixel_bounds _

theorem isPixel_extent {axis : Axis} (plain : (placement.size.get axis).continuation = false) :
    IsPixel (rect.extent.get axis) := by
  rw [resolution.lengths axis, Dimension.length, plain]
  exact roundPixel_bounds _

theorem between : rect.Between (pixelMin - pixelMax) (pixelMax - pixelMin) := by
  intro axis
  have near := resolution.isPixel_origin axis
  cases continuation : (placement.size.get axis).continuation with
  | false =>
    have length := resolution.isPixel_extent continuation
    simp only [IsPixel, pixelMin, pixelMax] at near length ⊢
    omega
  | true =>
    have far := resolution.isPixel_far continuation
    simp only [IsPixel, PixelRect.far, pixelMin, pixelMax] at near far ⊢
    omega

theorem inPixelSpace_iff : rect.InPixelSpace ↔
    ∀ axis, (placement.size.get axis).continuation = true → IsPixel (rect.extent.get axis) := by
  refine ⟨fun inside axis _ => (inside axis).2, fun lengths axis => ?_⟩
  refine ⟨resolution.isPixel_origin axis, ?_⟩
  cases continuation : (placement.size.get axis).continuation with
  | false => exact resolution.isPixel_extent continuation
  | true => exact lengths axis continuation

theorem inPixelSpace_of_nonneg
    (nonneg : ∀ axis, (placement.size.get axis).continuation = true →
      0 ≤ rect.origin.get axis ∧ 0 ≤ rect.far axis) : rect.InPixelSpace := by
  refine resolution.inPixelSpace_iff.mpr fun axis continuation => ?_
  have edges := nonneg axis continuation
  have near := resolution.isPixel_origin axis
  have far := resolution.isPixel_far continuation
  simp only [IsPixel, PixelRect.far, pixelMin, pixelMax] at *
  omega

end FreePlacement.Resolution

namespace Grid
open Number Number.Amount
variable {α : Type} {grid : Grid α} {canvas rect : PixelRect} {axis : Axis} {strip : Strip}

theorem isPixel_edge (grid : Grid α) (axis : Axis) (extent margin : Int) (index : Nat) :
    IsPixel (grid.edge axis extent margin index) :=
  truncatePixel_bounds _

/-- The frame of an empty strip is half the canvas, or was not taken off. -/
theorem strip_bounds (isCanvas : canvas.IsCanvas) (known : grid.strip canvas axis = .ok strip) :
    2 * pixelMin ≤ strip.origin ∧ strip.origin ≤ pixelMax ∧ IsPixel strip.gap ∧
      (strip.extent = 0 → IsPixel strip.origin ∧ strip.gap = 0) := by
  obtain ⟨frame, margin, framed, spaced, inside, gap⟩ := exists_of_strip known
  have frames := measure_bounds framed
  have margins := measure_bounds spaced
  have sized := isCanvas.sized axis
  have near := isCanvas.near axis
  have far := isCanvas.far axis
  rw [effectiveMargin] at gap
  simp only [content] at inside
  simp only [IsPixel, PixelRect.far, pixelMin, pixelMax] at *
  split at inside <;> simp only [Prod.mk.injEq] at inside <;> split at gap <;> omega

theorem edge_of_nothing (grid : Grid α) (axis : Axis) (margin : Int) (index : Nat) :
    grid.edge axis 0 margin index = 0 := by
  have none : CountsAs (ofWhole 0) 0 := by
    have converted := isAmount_ofWhole (n := 0) le_rfl
    rw [Int.toNat_zero, Nat.cast_zero, WithTop.coe_zero, rounded_zero] at converted
    exact .inl converted
  have share := (none.mul_right (grid.weightSum axis index)).div_right
    (grid.weightSum axis (grid.bounds.get axis))
  exact truncatePixel_of_countsAs (share.mul_right _)

theorem inPixelSpace_iff {cell : Cell} (isCanvas : canvas.IsCanvas)
    (occupied : grid.contains cell = true) (done : grid.resolve cell canvas = .ok rect) :
    rect.InPixelSpace ↔ ∀ axis strip, grid.strip canvas axis = .ok strip → 0 < strip.extent →
      IsPixel (grid.spanIn axis strip (cell.index axis)).1 ∧
        IsPixel (grid.spanIn axis strip (cell.index axis)).2 := by
  have spans := span_of_resolve occupied done
  constructor
  · intro inside axis strip known _
    obtain ⟨strip', known', span⟩ := spans axis
    obtain rfl : strip = strip' := Except.ok.inj (known.symm.trans known')
    rw [span]
    exact inside axis
  · intro sums axis
    obtain ⟨strip, known, span⟩ := spans axis
    obtain empty | some : strip.extent = 0 ∨ 0 < strip.extent := by
      have := extent_nonneg known
      omega
    · obtain ⟨origin, gap⟩ := (strip_bounds isCanvas known).2.2.2 empty
      simp only [spanIn, Grid.span, empty, edge_of_nothing, gap, Prod.mk.injEq] at span
      simp only [IsPixel, pixelMin, pixelMax] at origin ⊢
      omega
    · have pixels := sums axis strip known some
      rw [span] at pixels
      exact pixels

theorem between {cell : Cell} (isCanvas : canvas.IsCanvas)
    (occupied : grid.contains cell = true) (done : grid.resolve cell canvas = .ok rect) :
    rect.Between (3 * pixelMin) (2 * pixelMax + 1) := by
  intro axis
  obtain ⟨strip, known, span⟩ := span_of_resolve occupied done axis
  obtain ⟨low, high, gap, -⟩ := strip_bounds isCanvas known
  have here := grid.isPixel_edge axis strip.extent strip.gap (cell.index axis)
  have next := grid.isPixel_edge axis strip.extent strip.gap (cell.index axis + 1)
  have gapped := gap_nonneg known
  simp only [spanIn, Grid.span, Prod.mk.injEq] at span
  simp only [IsPixel, pixelMin, pixelMax] at *
  omega

theorem edge_le_gapless {amounts : ℕ → Amount} {extent margin : ℤ}
    (weights : ∀ k < grid.bounds.get axis, IsAmount (grid.weight axis k) (amounts k))
    (sized : 0 ≤ extent) (spaced : 0 ≤ margin) {index : ℕ} (below : index < grid.bounds.get axis) :
    grid.edge axis extent margin index ≤ grid.edge axis extent 0 index := by
  have whole : 0 ≤ margin * ((grid.bounds.get axis : ℤ) - 1) := mul_nonneg spaced (by omega)
  have most : margin * index ≤ margin * ((grid.bounds.get axis : ℤ) - 1) :=
    mul_le_mul_of_nonneg_left (by omega) spaced
  rw [edge_of_amounts_spaced weights sized spaced below.le whole,
    edge_of_amounts weights sized below.le]
  have shrunk := rounded_mono (mul_le_of_le_one_right' (a := share amounts extent
    (grid.bounds.get axis) index) (stretch_le_one most))
  rw [share, rounded_rounded] at shrunk
  exact pixels_mono shrunk

structure Fitting (grid : Grid α) (canvas : PixelRect) : Prop where
  weighted : grid.Weighted
  content : ∀ axis strip, grid.strip canvas axis = .ok strip → pixelMin ≤ strip.origin ∧
    strip.origin + strip.extent ≤ pixelMax ∧ strip.extent + strip.gap ≤ pixelMax
  finite : ∀ axis strip, grid.strip canvas axis = .ok strip →
    (value? (ofWhole strip.extent * grid.weightSum axis (grid.bounds.get axis))).isSome

theorem Fitting.edges (fitting : grid.Fitting canvas) (known : grid.strip canvas axis = .ok strip)
    {index : ℕ} (below : index < grid.bounds.get axis) :
    0 ≤ grid.edge axis strip.extent strip.gap index ∧
      grid.edge axis strip.extent strip.gap index ≤ strip.extent ∧
      0 ≤ grid.edge axis strip.extent strip.gap (index + 1) := by
  obtain ⟨amounts, weights⟩ := fitting.weighted.amounts axis
  have sized := extent_nonneg known
  have spaced := gap_nonneg known
  have small := (fitting.content axis strip known).2.2
  have whole : 0 ≤ strip.gap * ((grid.bounds.get axis : ℤ) - 1) := mul_nonneg spaced (by omega)
  have first := edge_le_edge_spaced weights sized spaced (Nat.zero_le index) below
  rw [edge_zero] at first
  refine ⟨first, ?_, ?_⟩
  · calc
      grid.edge axis strip.extent strip.gap index ≤ grid.edge axis strip.extent 0 index :=
        edge_le_gapless weights sized spaced below
      _ ≤ grid.edge axis strip.extent 0 (grid.bounds.get axis) :=
        edge_le_edge weights sized below.le le_rfl
      _ ≤ strip.extent :=
        far_edge_le weights sized (by omega) (fitting.finite axis strip known)
  · rw [edge_of_amounts_spaced weights sized spaced below whole]
    exact pixels_mono bot_le

theorem Fitting.inPixelSpace (fitting : grid.Fitting canvas) (within : grid.Within) {cell : Cell}
    (occupied : grid.contains cell = true) (done : grid.resolve cell canvas = .ok rect) :
    rect.InPixelSpace := by
  intro axis
  obtain ⟨strip, known, span⟩ := span_of_resolve occupied done axis
  obtain ⟨low, high, small⟩ := fitting.content axis strip known
  obtain ⟨start, stop, next⟩ := fitting.edges known (within cell occupied axis)
  have gap := gap_nonneg known
  have pixel := grid.isPixel_edge axis strip.extent strip.gap (cell.index axis + 1)
  simp only [spanIn, Grid.span, Prod.mk.injEq] at span
  simp only [IsPixel, pixelMin, pixelMax] at *
  omega

end Grid

theorem PixelRect.Between.mono {rect : PixelRect} {low low' high high' : Int}
    (between : rect.Between low high) (lower : low' ≤ low) (upper : high ≤ high') :
    rect.Between low' high' := by
  intro axis
  have here := between axis
  omega

/-- No number of a rectangle is further out than three times the pixel space, and which rectangles
lie within it: the free ones whose continuations are no longer than a pixel can say, in particular
those with no edge below zero, and the cells whose sums do not carry them out, in particular those
of grids that fit. -/
theorem in_pixel_space_iff {α : Type} {canvas : PixelRect} (isCanvas : canvas.IsCanvas) :
    (∀ (placement : FreePlacement) (rect : PixelRect), placement.resolve canvas = .ok rect →
      rect.Between (3 * pixelMin) (2 * pixelMax + 1) ∧
      (rect.InPixelSpace ↔ ∀ axis, (placement.size.get axis).continuation = true →
        IsPixel (rect.extent.get axis)) ∧
      ((∀ axis, (placement.size.get axis).continuation = true →
        0 ≤ rect.origin.get axis ∧ 0 ≤ rect.far axis) → rect.InPixelSpace)) ∧
    ∀ (operations : List (Grid.Operation α)) (cell : Cell) (rect : PixelRect),
      (Grid.run operations).resolve cell canvas = .ok rect →
      rect.Between (3 * pixelMin) (2 * pixelMax + 1) ∧
      (rect.InPixelSpace ↔ ((Grid.run operations).contains cell = true →
        ∀ axis strip, (Grid.run operations).strip canvas axis = .ok strip → 0 < strip.extent →
          IsPixel ((Grid.run operations).spanIn axis strip (cell.index axis)).1 ∧
            IsPixel ((Grid.run operations).spanIn axis strip (cell.index axis)).2)) ∧
      ((Grid.run operations).Fitting canvas → rect.InPixelSpace) := by
  constructor
  · intro placement rect done
    obtain ⟨extents, resolution⟩ := FreePlacement.resolve_eq_ok_iff.mp done
    exact ⟨resolution.between.mono (by decide) (by decide), resolution.inPixelSpace_iff,
      resolution.inPixelSpace_of_nonneg⟩
  · intro operations cell rect done
    by_cases occupied : (Grid.run operations).contains cell = true
    · have exact' := Grid.inPixelSpace_iff isCanvas occupied done
      refine ⟨Grid.between isCanvas occupied done, exact'.trans ?_, fun fitting => ?_⟩
      · exact ⟨fun sums _ => sums, fun sums => sums occupied⟩
      · exact fitting.inPixelSpace (Grid.within_run operations) occupied done
    · -- a cell that is not occupied is cut from nothing
      rw [Grid.resolve_of_not_contains (Bool.not_eq_true _ ▸ occupied)] at done
      cases done
      have zero : PixelRect.zero.InPixelSpace := by decide
      exact ⟨by decide, iff_of_true zero fun held => absurd held occupied, fun _ => zero⟩

def spacedColumns : List (Grid.Operation Unit) :=
  [.place ⟨0, 0⟩ (), .place ⟨1, 0⟩ (), .setWeight .x 1 2, .setMargin (some "8") none,
    .setFrame (some "width/20") (some "3")]

theorem spacedColumns_fit :
    (⟨-40, 6, 300, 200⟩ : PixelRect).IsCanvas ∧
      FreePlacement.Places ⟨some "centerx", some "9", some "?width", some "1/0"⟩
        ⟨-40, 6, 300, 200⟩ ⟨110, 15, 150, 2147483647⟩ ∧
      (⟨110, 15, 150, 2147483647⟩ : PixelRect).InPixelSpace ∧
      (Grid.run spacedColumns).resolve ⟨1, 0⟩ ⟨-40, 6, 300, 200⟩ = .ok ⟨65, 9, 442, 194⟩ ∧
      (Grid.run spacedColumns).Fitting ⟨-40, 6, 300, 200⟩ ∧
      (⟨65, 9, 442, 194⟩ : PixelRect).InPixelSpace := by
  have isCanvas : (⟨-40, 6, 300, 200⟩ : PixelRect).IsCanvas := by decide
  have placed : FreePlacement.Places ⟨some "centerx", some "9", some "?width", some "1/0"⟩
      ⟨-40, 6, 300, 200⟩ ⟨110, 15, 150, 2147483647⟩ := by decide +kernel
  have cut : (Grid.run spacedColumns).resolve ⟨1, 0⟩ ⟨-40, 6, 300, 200⟩ =
      .ok ⟨65, 9, 442, 194⟩ := by decide +kernel
  have fitting : (Grid.run spacedColumns).Fitting ⟨-40, 6, 300, 200⟩ :=
    ⟨by decide +kernel, by decide +kernel, by decide +kernel⟩
  obtain ⟨free, gridded⟩ := @in_pixel_space_iff Unit _ isCanvas
  have inside : (⟨110, 15, 150, 2147483647⟩ : PixelRect).InPixelSpace := by
    obtain ⟨placement, -, done⟩ := placed
    exact (free placement _ done).2.2 fun axis _ => by cases axis <;> decide
  exact ⟨isCanvas, placed, inside, cut, fitting, (gridded spacedColumns _ _ cut).2.2 fitting⟩

def overhangingFrame : List (Grid.Operation Unit) := [.place ⟨0, 0⟩ (), .setFrame (some "-1") none]

/-- A frame one pixel past the least one carries its cell out of the pixel space, and so does a width
that is measured from the least pixel of all to the end of the canvas. -/
theorem pixel_space_is_left :
    ¬(∀ (placement : FreePlacement) (canvas rect : PixelRect), canvas.IsCanvas →
        placement.resolve canvas = .ok rect → rect.InPixelSpace) ∧
      ¬∀ (operations : List (Grid.Operation Unit)) (cell : Cell) (canvas rect : PixelRect),
        canvas.IsCanvas → (Grid.run operations).resolve cell canvas = .ok rect →
          rect.InPixelSpace := by
  constructor
  · intro all
    have placed : FreePlacement.Places ⟨some "-3000000000", some "0", some "?width", some "1"⟩
        ⟨0, 0, 100, 100⟩ ⟨-2147483648, 0, 2147483748, 1⟩ := by decide +kernel
    obtain ⟨placement, -, done⟩ := placed
    exact absurd (all placement _ _ (by decide) done) (by decide)
  · intro all
    have done : (Grid.run overhangingFrame).resolve ⟨0, 0⟩ ⟨-2147483648, 0, 10, 10⟩ =
        .ok ⟨-2147483649, 0, 12, 10⟩ := by decide +kernel
    exact absurd (all overhangingFrame _ _ _ (by decide) done) (by decide)

end FormulaLayout
