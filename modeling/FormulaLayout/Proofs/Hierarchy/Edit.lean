import FormulaLayout.Proofs.Hierarchy.View

/-! Hierarchies under edit. Beside the operations on components, an author sets weights, margins
and frames of a panel's grid. That never touches the cells, so what holds of every grid that was
only filled and emptied, and does not look at the settings, holds of the grids of an edited
hierarchy as well. -/
namespace FormulaLayout

namespace Grid
variable {α : Type}

def Operation.sets : Operation α → Bool
  | .setWeight .. | .setMargin .. | .setFrame .. => true
  | _ => false

theorem contents_apply_of_sets {operation : Operation α} (sets : operation.sets = true)
    (grid : Grid α) :
    (operation.apply grid).cells = grid.cells ∧ (operation.apply grid).bounds = grid.bounds := by
  cases operation with
  | place | reserve | remove => cases sets
  | setWeight axis index weight => cases index <;> exact ⟨rfl, rfl⟩
  | setMargin | setFrame => exact ⟨rfl, rfl⟩

end Grid

namespace Hierarchy

def Operation.named : Operation → List Handle
  | .declare _ _ _ parent => parent.toList
  | .setParent c p => c :: p.toList
  | .setVisible c _ => [c]

inductive Edit where
  | perform (operation : Operation)
  | configure (p : Handle) (setting : Grid.Operation Tenant) (sets : setting.sets = true)

/-- An operation on what was never declared is none, and changes nothing. -/
def Edit.apply (h : Hierarchy) : Edit → Hierarchy
  | .perform operation =>
    if ∀ c ∈ operation.named, h.Declared c then operation.apply h else h
  | .configure p setting _ => h.modifyGrid p fun grid => setting.apply grid

def edited (edits : List Edit) : Hierarchy := edits.foldl Edit.apply .empty

theorem edited_induction {P : Hierarchy → Prop} (empty : P .empty)
    (apply : ∀ {h} (edit : Edit), P h → P (edit.apply h)) (edits : List Edit) :
    P (edited edits) := by
  have kept : ∀ {h}, P h → P (edits.foldl Edit.apply h) := by
    induction edits with
    | nil => exact id
    | cons edit rest ih => exact fun before => ih (apply edit before)
  exact kept empty

theorem everyGrid_edited {P : Grid Tenant → Prop} (empty : P .empty)
    (kept : ∀ {grid} (operation : Grid.Operation Tenant), P grid → P (operation.apply grid))
    (edits : List Edit) : EveryGrid P (edited edits) := by
  have lasting : Lasting P := by
    refine ⟨fun cell occupant before => ?_, fun cell => kept (.remove cell true)⟩
    cases occupant with
    | reserved => exact kept (.reserve cell) before
    | child value => exact kept (.place cell value) before
  refine edited_induction ?_ ?_ edits
  · intro p grid found
    simp [grid?, contents?, get?, Hierarchy.empty] at found
  · intro h edit every
    cases edit with
    | perform operation =>
      simp only [Edit.apply]
      split
      · exact every.apply lasting empty operation
      · exact every
    | configure p setting sets =>
      exact every.modifyContents p _ fun contents _ before => kept setting before

end Hierarchy
end FormulaLayout
