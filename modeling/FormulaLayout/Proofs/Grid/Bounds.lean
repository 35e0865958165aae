import FormulaLayout.Proofs.Grid.Outline

/-! Bounds along a run. They always cover the contents, and only a removal lowers them. As long as
every removal shrinks, they are tight after every operation, since a removal that leaves them alone
was not the only one to need them. A removal that did not shrink leaves them stale, until a later
one repairs them or, where the cells left reach past it on both axes, leaves them stale again. -/
namespace FormulaLayout.Grid
variable {α : Type}

theorem covers_run (operations : List (Operation α)) : (run operations).outline.Covers :=
  fun cell listed => within_run operations cell ((mem_occupied _ cell).mp listed)

def Operation.shrinks : Operation α → Bool
  | .remove _ shrink => shrink
  | _ => true

theorem tight_redraw {outline : Outline} (tight : outline.Tight) {operation : Operation α}
    (shrinks : operation.shrinks = true) : (operation.redraw outline).Tight := by
  cases operation with
  | place cell value => exact tight.place cell
  | reserve cell => exact tight.place cell
  | remove cell shrink =>
    obtain rfl : shrink = true := shrinks
    exact tight.remove cell
  | setWeight | setMargin | setFrame => exact tight

theorem tight_foldl {outline : Outline} (tight : outline.Tight) (operations : List (Operation α))
    (shrinking : ∀ operation ∈ operations, operation.shrinks = true) :
    (operations.foldl Operation.redraw outline).Tight := by
  induction operations generalizing outline with
  | nil => exact tight
  | cons operation rest ih =>
    have here := shrinking operation List.mem_cons_self
    have later := fun next listed => shrinking next (List.mem_cons_of_mem operation listed)
    exact ih (tight_redraw tight here) later

theorem tight_run {operations : List (Operation α)}
    (shrinking : ∀ operation ∈ operations, operation.shrinks = true) :
    (run operations).bounds = reach (run operations).occupied := by
  have start : (empty : Grid α).outline.Tight := rfl
  have tight := tight_foldl start operations shrinking
  rwa [← outline_foldl] at tight

def Operation.places : Operation α → Bool
  | .place .. | .reserve _ => true
  | _ => false

theorem redraw_comm {a b : Operation α} (placed : a.places = true) (placed' : b.places = true)
    (outline : Outline) : b.redraw (a.redraw outline) = a.redraw (b.redraw outline) := by
  cases a with
  | remove | setWeight | setMargin | setFrame => cases placed
  | place cell | reserve cell =>
    cases b with
    | remove | setWeight | setMargin | setFrame => cases placed'
    | place cell' | reserve cell' => exact Outline.place_comm outline cell cell'

structure BoundsLaws (grid : Grid α) : Prop where
  covers : ∀ cell, grid.contains cell = true →
    cell.col < grid.bounds.x ∧ cell.row < grid.bounds.y
  le_place : ∀ cell occupant axis,
    grid.bounds.get axis ≤ (grid.place cell occupant).bounds.get axis
  remove_le : ∀ cell shrink axis,
    (grid.remove cell shrink).1.bounds.get axis ≤ grid.bounds.get axis
  shrunk : ∀ cell, grid.contains cell = true →
    (grid.remove cell true).1.bounds =
      if Passes (reach (grid.occupied.erase cell)) cell then grid.bounds
      else reach (grid.occupied.erase cell)
  kept : ∀ cell shrink, shrink = false ∨ grid.contains cell = false →
    (grid.remove cell shrink).1.bounds = grid.bounds

theorem laws_of_covers {grid : Grid α} (covers : grid.outline.Covers) : BoundsLaws grid where
  covers cell contained := (holds_iff _ _).mp (covers cell ((mem_occupied grid cell).mpr contained))
  le_place cell occupant axis := by
    cases axis
    · exact Nat.le_max_left ..
    · exact Nat.le_max_left ..
  remove_le cell shrink axis := by
    have less := covers.bounds_remove_le cell shrink axis
    rwa [← outline_remove] at less
  shrunk cell contained := by
    have cut := covers.bounds_remove ((mem_occupied grid cell).mpr contained)
    rwa [← outline_remove] at cut
  kept cell shrink idle := by
    have absent : grid.contains cell = false → cell ∉ grid.outline.occupied := by
      intro missing listed
      rw [(mem_occupied grid cell).mp listed] at missing
      cases missing
    have same := Outline.bounds_remove_of_idle (idle.imp_right absent)
    rwa [← outline_remove] at same

/-- The bounds cover the contents after every operation and obey the laws of the next one, and
runs that differ in the order in which cells were inserted have the same bounds ever after. -/
theorem bounds_hold_contents (operations : List (Operation α)) :
    BoundsLaws (run operations) ∧
      (∀ other : List (Operation α), (run other).outline = (run operations).outline →
        ∀ rest, (run (other ++ rest)).outline = (run (operations ++ rest)).outline) ∧
      ∀ inserted inserted' : List (Operation α),
        (∀ operation ∈ inserted, operation.places = true) → inserted.Perm inserted' →
          ∀ rest, (run (operations ++ inserted ++ rest)).outline =
            (run (operations ++ inserted' ++ rest)).outline := by
  refine ⟨laws_of_covers (covers_run operations), ?_, ?_⟩
  · intro other same rest
    rw [outline_run_append, outline_run_append, same]
  · intro inserted inserted' placed reordered rest
    rw [outline_run_append, outline_run_append, outline_run_append, outline_run_append]
    congr 1
    exact reordered.foldl_eq' (fun a listed b listed' outline =>
      redraw_comm (placed a listed) (placed b listed') outline) _

/-- Four cells in the corner, and one far off that left the bounds behind when it was removed. -/
def staleGrid : List (Operation Unit) :=
  [.place ⟨0, 0⟩ (), .place ⟨2, 0⟩ (), .reserve ⟨0, 2⟩, .place ⟨1, 1⟩ (), .place ⟨4, 4⟩ (),
    .remove ⟨4, 4⟩ false]

/-- Removing the inner cell leaves the bounds stale, removing an outer one repairs them. -/
theorem staleGrid_repaired_from_outside :
    (run staleGrid).bounds = ⟨5, 5⟩ ∧ ((run staleGrid).remove ⟨1, 1⟩ true).1.bounds = ⟨5, 5⟩ ∧
      ((run staleGrid).remove ⟨2, 0⟩ true).1.bounds = ⟨2, 3⟩ := by
  have laws := (bounds_hold_contents staleGrid).1
  refine ⟨by decide, ?_, ?_⟩
  · rw [laws.shrunk ⟨1, 1⟩ (by decide), if_pos (by decide)]
    decide
  · rw [laws.shrunk ⟨2, 0⟩ (by decide), if_neg (by decide)]
    decide

end FormulaLayout.Grid
