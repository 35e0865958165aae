import FormulaLayout.Proofs.Hierarchy.Walk
import FormulaLayout.Proofs.Hierarchy.Written
import FormulaLayout.Proofs.Placement.PixelSpace

/-! Where a pass gets through. What it does not catch is a whole number too large for a float, and
there is none unless the canvas or a grid is of a size beyond all measure. Rectangles below the root
are sums of a few pixels and of the origin that they start from, so an origin grows by little from
one panel to the next, and there are no more panels on the way down than components. -/
namespace FormulaLayout

namespace PixelRect

/-- No further from zero than the first number, and of no size above the second. -/
def Reaches (origin extent : Int) (rect : PixelRect) : Prop :=
  ∀ axis, |rect.origin.get axis| ≤ origin ∧ |rect.extent.get axis| ≤ extent

theorem reaches_of_between {rect : PixelRect}
    (between : rect.Between (pixelMin - pixelMax) (pixelMax - pixelMin)) {origin extent : Int}
    (nonneg : 0 ≤ origin) (large : 2 ^ 34 ≤ extent) : rect.Reaches (origin + 2 ^ 34) extent := by
  intro axis
  have bounds := between axis
  simp only [pixelMin, pixelMax] at bounds
  rw [abs_le, abs_le]
  omega

end PixelRect

theorem Grid.reaches_of_resolve {α : Type} {grid : Grid α} {cell : Cell} {outer rect : PixelRect}
    {origin extent : Int} (reaches : outer.Reaches origin extent) (large : 2 ^ 34 ≤ extent)
    (occupied : grid.contains cell = true) (done : grid.resolve cell outer = .ok rect) :
    rect.Reaches (origin + 2 ^ 34) extent := by
  intro axis
  obtain ⟨strip, known, span⟩ := span_of_resolve occupied done axis
  obtain ⟨frame, margin, framed, -, inside, -⟩ := exists_of_strip known
  have start := (abs_le.mp (reaches axis).1)
  have frames := measure_bounds framed
  have here := grid.isPixel_edge axis strip.extent strip.gap (cell.index axis)
  have next := grid.isPixel_edge axis strip.extent strip.gap (cell.index axis + 1)
  have gap := gap_nonneg known
  have small := gap_le known
  simp only [spanIn, Grid.span, Prod.mk.injEq] at span
  simp only [content] at inside
  simp only [IsPixel, pixelMin, pixelMax] at *
  rw [abs_le, abs_le]
  split at inside <;> simp only [Prod.mk.injEq] at inside <;> omega

namespace Hierarchy
open Number Relation

def SmallGrids (h : Hierarchy) : Prop :=
  EveryGrid (fun grid => ∀ axis, grid.bounds.get axis ≤ 2 ^ 200) h

/-- Of a size that is far beyond the pixel space, and far below what no float holds. -/
structure Modest (h : Hierarchy) (canvas : PixelRect) : Prop where
  canvas : canvas.Reaches (2 ^ 200) (2 ^ 200)
  grids : h.SmallGrids
  components : h.components.length ≤ 2 ^ 200

variable {h : Hierarchy} {root c : Handle} {canvas outer rect : PixelRect} {origin extent : Int}

theorem exists_grid_of_holds {p : Handle} {cell : Cell} (held : h.holds p cell c = true) :
    ∃ grid, h.grid? p = some grid ∧ grid.contains cell = true := by
  rw [holds_iff, occupant?] at held
  cases found : h.grid? p with
  | none => simp [found] at held
  | some grid =>
    rw [found, Option.bind_some] at held
    refine ⟨grid, rfl, ?_⟩
    rw [Grid.contains, OrderedMap.contains]
    exact Option.isSome_iff_exists.mpr ⟨_, held⟩

/-- A component is placed by its own formulas, by the grid that holds it, or by neither of them. -/
theorem resolve_cases (h : Hierarchy) (c : Handle) :
    (∃ placement, h.PlacedBy c placement ∧ h.cell? c = none ∧
      ∀ outer, h.resolve c outer = placement.resolve outer) ∨
    (∃ p grid cell, h.grid? p = some grid ∧ grid.contains cell = true ∧
      ∀ outer, h.resolve c outer = grid.resolve cell outer) ∨
    (∀ outer, h.resolve c outer = .ok outer) ∨ ∀ outer, h.resolve c outer = .ok .zero := by
  cases found : h.get? c with
  | none => exact .inr (.inr (.inl fun outer => by rw [Hierarchy.resolve, found]))
  | some component =>
    obtain ⟨name, visible, seat, parent, contents⟩ := component
    cases seat with
    | free placement =>
      refine .inl ⟨placement, ⟨_, found, rfl⟩, ?_, fun outer => by rw [Hierarchy.resolve, found]⟩
      rw [cell?, found]
      rfl
    | cell cell =>
      cases parent with
      | none => exact .inr (.inr (.inl fun outer => by rw [Hierarchy.resolve, found]))
      | some p =>
        by_cases held : h.holds p cell c = true
        · obtain ⟨grid, here, occupied⟩ := exists_grid_of_holds held
          refine .inr (.inl ⟨p, grid, cell, here, occupied, fun outer => ?_⟩)
          simp only [Hierarchy.resolve, found, if_pos held, here, Option.getD_some]
        · exact .inr (.inr (.inr fun outer => by simp only [Hierarchy.resolve, found, if_neg held]))

theorem reaches_of_resolve (reaches : outer.Reaches origin extent) (large : 2 ^ 34 ≤ extent)
    (resolved : h.resolve c outer = .ok rect) : rect.Reaches (origin + 2 ^ 34) extent := by
  have nonneg : 0 ≤ origin := (abs_nonneg _).trans (reaches .x).1
  obtain ⟨placement, -, -, same⟩ | ⟨p, grid, cell, -, occupied, same⟩ | same | same :=
    h.resolve_cases c
  · rw [same] at resolved
    obtain ⟨extents, resolution⟩ := FreePlacement.resolve_eq_ok_iff.mp resolved
    exact PixelRect.reaches_of_between resolution.between nonneg large
  · rw [same] at resolved
    exact Grid.reaches_of_resolve reaches large occupied resolved
  · obtain rfl := Except.ok.inj ((same outer).symm.trans resolved)
    exact fun axis => ⟨(reaches axis).1.trans (by omega), (reaches axis).2⟩
  · obtain rfl := Except.ok.inj ((same outer).symm.trans resolved)
    exact PixelRect.reaches_of_between (by decide) nonneg large

/-- The way down has some depth left at every panel, and what was used of it bounds the origin. -/
theorem reaches_of_laid {depth : Nat} (shallow : h.Shallow depth root)
    (reaches : canvas.Reaches origin extent) (large : 2 ^ 34 ≤ extent)
    {place : Handle × PixelRect} (laid : h.Laid (root, canvas) place) :
    ∃ left reached, (h.IsPanel place.1 → h.Shallow left place.1) ∧
      reached + 2 ^ 34 * (left : Int) ≤ origin + 2 ^ 34 * (depth : Int) ∧
      place.2.Reaches reached extent := by
  induction laid with
  | refl => exact ⟨depth, origin, fun _ => shallow, le_rfl, reaches⟩
  | tail _ places ih =>
    obtain ⟨child, -, resolved⟩ := places
    obtain ⟨left, reached, deep, bound, reaches⟩ := ih
    have further := deep (isPanel_of_child child)
    cases left with
    | zero => cases further
    | succ left =>
      have around := reaches_of_resolve reaches large resolved
      refine ⟨left, reached + 2 ^ 34, further _ child, ?_, around⟩
      push_cast at bound
      omega

theorem Written.caught (written : Written h) (small : h.SmallGrids)
    (reaches : outer.Reaches origin (2 ^ 200))
    (near : (h.cell? c).isSome = true ∨ origin ≤ 2 ^ 250) :
    Finding.Caught (c, h.resolve c outer) := by
  have extents : ∀ axis, |outer.extent.get axis| ≤ 2 ^ 200 := fun axis => (reaches axis).2
  intro reason failed
  obtain ⟨placement, placed, free, same⟩ | ⟨p, grid, cell, here, occupied, same⟩ | same | same :=
    h.resolve_cases c
  · have close : origin ≤ 2 ^ 250 := near.resolve_left (by simp [free])
    have holds : ∀ axis, outer.HoldsOn axis := fun axis => by
      have start := abs_le.mp (reaches axis).1
      have length := abs_le.mp (extents axis)
      exact ⟨holdsWhole_of_bounds (by omega) (by omega),
        holdsWhole_of_bounds (by omega) (by omega)⟩
    have known := written.placements c placement placed
    exact (FreePlacement.hingesOn_resolve known holds).caught ((same outer).symm.trans failed)
  · have inside := written.bounds p grid here cell occupied
    have converts := Grid.converts_of_bounds inside extents (small p grid here)
    exact (Grid.hingesOn_resolve (written.settings p grid here) occupied converts).caught
      ((same outer).symm.trans failed)
  · cases (same outer).symm.trans failed
  · cases (same outer).symm.trans failed

theorem Written.passable (written : Written h) (modest : h.Modest canvas) (acyclic : h.Acyclic)
    (declared : h.Declared root) : h.Passable root canvas := by
  rintro place laid ⟨c, outcome⟩ ⟨-, -, resolved⟩
  obtain rfl : h.resolve c place.2 = outcome := resolved
  obtain ⟨left, reached, -, bound, reaches⟩ :=
    reaches_of_laid (acyclic.shallow declared) modest.canvas (by norm_num) laid
  have few := modest.components
  refine written.caught modest.grids reaches (.inr ?_)
  omega

end Hierarchy
end FormulaLayout
