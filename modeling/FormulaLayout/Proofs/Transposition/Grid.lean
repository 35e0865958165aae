import FormulaLayout.Proofs.Grid.Scope
import FormulaLayout.Proofs.Transposition.Placement

/-! Grids with rows for columns. A cell of the exchanged grid is cut from the exchanged strips by
the same running sums. What operations do to the bounds they do on both axes alike: a removal that
leaves early does so when the cells pass the removed one on both axes, whichever comes first. -/
namespace FormulaLayout

def Cell.transpose (cell : Cell) : Cell := ⟨cell.row, cell.col⟩

theorem Cell.transpose_injective : Function.Injective Cell.transpose := by
  rintro ⟨col, row⟩ ⟨col', row'⟩ same
  cases same
  rfl

namespace Grid
open Number
variable {α : Type}

def transpose (grid : Grid α) : Grid α where
  cells := grid.cells.mapKeys Cell.transpose_injective
  bounds := grid.bounds.swap
  weights := grid.weights.swap
  margin := grid.margin.swap.map (Option.map Formula.transpose)
  frame := grid.frame.swap.map (Option.map Formula.transpose)

theorem get?_transpose (grid : Grid α) (cell : Cell) :
    grid.transpose.get? cell.transpose = grid.get? cell :=
  grid.cells.get?_mapKeys Cell.transpose_injective cell

theorem contains_transpose (grid : Grid α) (cell : Cell) :
    grid.transpose.contains cell.transpose = grid.contains cell :=
  congrArg Option.isSome (grid.get?_transpose cell)

theorem get_frame_transpose (grid : Grid α) (axis : Axis) :
    grid.transpose.frame.get axis = (grid.frame.get axis.other).map Formula.transpose := by
  cases axis <;> rfl

theorem get_margin_transpose (grid : Grid α) (axis : Axis) :
    grid.transpose.margin.get axis = (grid.margin.get axis.other).map Formula.transpose := by
  cases axis <;> rfl

theorem KnownSetting.transpose {setting : Option Formula} (known : KnownSetting setting) :
    KnownSetting (setting.map Formula.transpose) := by
  intro formula set
  obtain ⟨before, here, rfl⟩ := Option.map_eq_some_iff.mp set
  exact (known before here).transpose

theorem SettingsKnown.transpose {grid : Grid α} (known : grid.SettingsKnown) :
    grid.transpose.SettingsKnown := by
  refine ⟨fun axis => ?_, fun axis => ?_⟩
  · rw [get_margin_transpose]
    exact (known.margin axis.other).transpose
  · rw [get_frame_transpose]
    exact (known.frame axis.other).transpose

section Resolve

end Resolve

section Outline

theorem holds_transpose (bounds : PerAxis Nat) (cell : Cell) :
    Holds bounds.swap cell.transpose ↔ Holds bounds cell := by
  rw [holds_iff, holds_iff]
  exact and_comm

theorem Within.transpose {grid : Grid α} (within : grid.Within) : grid.transpose.Within := by
  intro cell occupied
  have back : cell = cell.transpose.transpose := rfl
  rw [back, contains_transpose] at occupied
  exact (holds_transpose grid.bounds cell.transpose).mpr (within _ occupied)

namespace Outline

def transpose (outline : Outline) : Outline :=
  ⟨outline.occupied.image Cell.transpose, outline.bounds.swap⟩

end Outline

def Operation.transpose (rewrite : String → String) : Operation α → Operation α
  | .place cell value => .place cell.transpose value
  | .reserve cell => .reserve cell.transpose
  | .remove cell shrink => .remove cell.transpose shrink
  | .setWeight axis index weight => .setWeight axis.other index weight
  | .setMargin x y => .setMargin (y.map rewrite) (x.map rewrite)
  | .setFrame x y => .setFrame (y.map rewrite) (x.map rewrite)

end Outline

end FormulaLayout.Grid
