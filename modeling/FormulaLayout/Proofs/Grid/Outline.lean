import Mathlib.Data.Finset.Lattice.Fold
import Mathlib.Order.Lattice.Nat
import FormulaLayout.Proofs.Grid.Run

/-! Outlines of grids: which cells are occupied, and the bounds. No operation asks for more when it
sets the bounds, neither for what the cells hold nor for the order in which they came, although a
removal walks through the cells in that order and may leave early. The bounds always cover the
cells. A removal that shrinks cuts them down to the cells that are left, or else those reach past
the removed cell on both axes and the bounds stay. -/
namespace FormulaLayout.Grid
variable {α : Type}

def reach (cells : Finset Cell) : PerAxis Nat :=
  ⟨cells.sup (·.col + 1), cells.sup (·.row + 1)⟩

theorem get_reach (cells : Finset Cell) (axis : Axis) :
    (reach cells).get axis = cells.sup (·.index axis + 1) := by
  cases axis <;> rfl

theorem reach_insert (cell : Cell) (cells : Finset Cell) :
    reach (insert cell cells) = cover (reach cells) cell := by
  simp only [reach, cover, Finset.sup_insert, max_comm]

theorem holds_reach {cells : Finset Cell} {cell : Cell} (listed : cell ∈ cells) :
    Holds (reach cells) cell := by
  intro axis
  rw [get_reach]
  exact Nat.lt_of_succ_le (Finset.le_sup (f := fun cell => cell.index axis + 1) listed)

theorem holds_iff (bounds : PerAxis Nat) (cell : Cell) :
    Holds bounds cell ↔ cell.col < bounds.x ∧ cell.row < bounds.y :=
  ⟨fun h => ⟨h .x, h .y⟩, fun h axis => by cases axis; exacts [h.1, h.2]⟩

instance (bounds : PerAxis Nat) (cell : Cell) : Decidable (Holds bounds cell) :=
  decidable_of_iff _ (holds_iff bounds cell).symm

def Passes (bounds : PerAxis Nat) (cell : Cell) : Prop :=
  cell.col + 1 < bounds.x ∧ cell.row + 1 < bounds.y

instance (bounds : PerAxis Nat) (cell : Cell) : Decidable (Passes bounds cell) :=
  inferInstanceAs (Decidable (_ ∧ _))

theorem Passes.cover {bounds : PerAxis Nat} {cell : Cell} (h : Passes bounds cell) (other : Cell) :
    Passes (cover bounds other) cell :=
  ⟨h.1.trans_le (Nat.le_max_left ..), h.2.trans_le (Nat.le_max_left ..)⟩

theorem Passes.foldl_cover {bounds : PerAxis Nat} {cell : Cell} (h : Passes bounds cell)
    (cells : List Cell) : Passes (cells.foldl Grid.cover bounds) cell := by
  induction cells generalizing bounds with
  | nil => exact h
  | cons other rest ih => exact ih (h.cover other)

theorem Passes.cover_eq {bounds : PerAxis Nat} {cell : Cell} (h : Passes bounds cell) :
    Grid.cover bounds cell = bounds := by
  obtain ⟨x, y⟩ := bounds
  simp only [Grid.cover, PerAxis.mk.injEq]
  exact ⟨Nat.max_eq_left h.1.le, Nat.max_eq_left h.2.le⟩

/-- Leaving early saves work and changes nothing: what has passed the cell stays past it. -/
theorem reachBeside_eq {removed : Cell} {bounds : PerAxis Nat} (near : ¬Passes bounds removed)
    (cells : List Cell) :
    reachBeside removed bounds cells =
      if Passes (cells.foldl cover bounds) removed then none
      else some (cells.foldl cover bounds) := by
  induction cells generalizing bounds with
  | nil => rw [reachBeside, List.foldl_nil, if_neg near]
  | cons cell rest ih =>
    rw [reachBeside, List.foldl_cons]
    by_cases past : Passes (cover bounds cell) removed
    · exact (if_pos past).trans (if_pos (past.foldl_cover rest)).symm
    · exact (if_neg past).trans (ih past)

theorem foldl_cover (listed : List Cell) (cells : Finset Cell) :
    listed.foldl cover (reach cells) = reach (cells ∪ listed.toFinset) := by
  induction listed generalizing cells with
  | nil => simp
  | cons cell rest ih =>
    rw [List.foldl_cons, ← reach_insert, ih, List.toFinset_cons, Finset.insert_union,
      Finset.union_insert]

structure Outline where
  occupied : Finset Cell
  bounds : PerAxis Nat

namespace Outline

def empty : Outline := ⟨∅, .both 0⟩

def place (outline : Outline) (cell : Cell) : Outline :=
  ⟨insert cell outline.occupied, cover outline.bounds cell⟩

def remove (outline : Outline) (cell : Cell) (shrink : Bool) : Outline :=
  let rest := outline.occupied.erase cell
  ⟨rest,
    if shrink ∧ cell ∈ outline.occupied ∧ Holds outline.bounds cell ∧ ¬Passes (reach rest) cell then
      reach rest
    else outline.bounds⟩

theorem place_comm (outline : Outline) (a b : Cell) :
    (outline.place a).place b = (outline.place b).place a := by
  simp only [place, cover, Finset.insert_comm a b, Nat.max_assoc,
    Nat.max_comm (a.col + 1), Nat.max_comm (a.row + 1)]

def Covers (outline : Outline) : Prop := ∀ cell ∈ outline.occupied, Holds outline.bounds cell

def Tight (outline : Outline) : Prop := outline.bounds = reach outline.occupied

theorem Covers.reach_le {outline : Outline} (h : outline.Covers) (axis : Axis) :
    (reach outline.occupied).get axis ≤ outline.bounds.get axis := by
  rw [get_reach]
  exact Finset.sup_le fun cell listed => h cell listed axis

theorem Covers.bounds_remove {outline : Outline} (h : outline.Covers) {cell : Cell}
    (listed : cell ∈ outline.occupied) :
    (outline.remove cell true).bounds =
      if Passes (reach (outline.occupied.erase cell)) cell then outline.bounds
      else reach (outline.occupied.erase cell) := by
  simp only [remove, listed, h cell listed, true_and, ite_not]

theorem remove_of_notMem {outline : Outline} {cell : Cell} (absent : cell ∉ outline.occupied)
    (shrink : Bool) : outline.remove cell shrink = outline := by
  rw [remove, Finset.erase_eq_of_notMem absent, if_neg fun h => absent h.2.1]

theorem bounds_remove_of_idle {outline : Outline} {cell : Cell} {shrink : Bool}
    (idle : shrink = false ∨ cell ∉ outline.occupied) :
    (outline.remove cell shrink).bounds = outline.bounds := by
  refine if_neg ?_
  rintro ⟨shrinks, listed, -⟩
  rcases idle with rfl | absent
  · cases shrinks
  · exact absent listed

theorem Covers.bounds_remove_le {outline : Outline} (h : outline.Covers) (cell : Cell)
    (shrink : Bool) (axis : Axis) :
    (outline.remove cell shrink).bounds.get axis ≤ outline.bounds.get axis := by
  unfold remove
  dsimp only
  split
  · have fewer : (reach (outline.occupied.erase cell)).get axis ≤
        (reach outline.occupied).get axis := by
      rw [get_reach, get_reach]
      exact Finset.sup_mono (Finset.erase_subset _ _)
    exact fewer.trans (h.reach_le axis)
  · exact le_rfl

theorem Tight.covers {outline : Outline} (h : outline.Tight) : outline.Covers := by
  intro cell listed
  rw [h]
  exact holds_reach listed

theorem Tight.place {outline : Outline} (h : outline.Tight) (cell : Cell) :
    (outline.place cell).Tight := by
  change cover outline.bounds cell = reach (insert cell outline.occupied)
  rw [h, reach_insert]

theorem Tight.remove {outline : Outline} (h : outline.Tight) (cell : Cell) :
    (outline.remove cell true).Tight := by
  by_cases listed : cell ∈ outline.occupied
  · change (outline.remove cell true).bounds = reach (outline.occupied.erase cell)
    rw [h.covers.bounds_remove listed]
    split
    · next past =>
      rw [h, ← Finset.insert_erase listed, reach_insert, past.cover_eq,
        Finset.erase_insert (Finset.notMem_erase _ _)]
    · rfl
  · change (outline.remove cell true).bounds = reach (outline.occupied.erase cell)
    rw [bounds_remove_of_idle (.inr listed), Finset.erase_eq_of_notMem listed, h]

end Outline

def occupied (grid : Grid α) : Finset Cell := grid.cells.keys.toFinset

def outline (grid : Grid α) : Outline := ⟨grid.occupied, grid.bounds⟩

theorem mem_occupied (grid : Grid α) (cell : Cell) :
    cell ∈ grid.occupied ↔ grid.contains cell = true := by
  rw [occupied, List.mem_toFinset, contains, OrderedMap.contains_iff_mem_keys]

theorem outline_place (grid : Grid α) (cell : Cell) (occupant : Occupant α) :
    (grid.place cell occupant).outline = grid.outline.place cell := by
  have cells : (grid.place cell occupant).occupied = insert cell grid.occupied := by
    ext cell'
    rw [occupied, List.mem_toFinset, cells_place, OrderedMap.mem_keys_insert, Finset.mem_insert,
      occupied, List.mem_toFinset]
  rw [outline, cells]
  rfl

theorem toFinset_keys_erase (grid : Grid α) (cell : Cell) :
    (grid.cells.erase cell).keys.toFinset = grid.occupied.erase cell := by
  ext cell'
  rw [List.mem_toFinset, OrderedMap.mem_keys_erase, Finset.mem_erase, occupied, List.mem_toFinset]

theorem shrunkBounds?_eq {grid : Grid α} {cell : Cell} :
    grid.shrunkBounds? cell =
      if Holds grid.bounds cell ∧ ¬Passes (reach (grid.occupied.erase cell)) cell then
        some (reach (grid.occupied.erase cell))
      else none := by
  have near : ¬Passes (reach ∅) cell := fun past => nomatch past.1
  have walked := reachBeside_eq near (grid.cells.erase cell).keys
  rw [foldl_cover, Finset.empty_union, toFinset_keys_erase] at walked
  rw [shrunkBounds?]
  by_cases held : Holds grid.bounds cell
  · rw [if_pos ((holds_iff _ _).mp held)]
    refine walked.trans ?_
    simp only [held, true_and, ite_not]
  · rw [if_neg (mt (holds_iff _ _).mpr held), if_neg fun h => held h.1]

theorem outline_remove (grid : Grid α) (cell : Cell) (shrink : Bool) :
    (grid.remove cell shrink).1.outline = grid.outline.remove cell shrink := by
  by_cases present : grid.contains cell = true
  · have listed : cell ∈ grid.occupied := (mem_occupied grid cell).mpr present
    rw [remove, if_pos present, Outline.remove, outline, occupied, toFinset_keys_erase,
      shrunkBounds?_eq]
    cases shrink with
    | false => simp [outline]
    | true =>
      simp only [outline, if_true, listed, true_and]
      congr 1
      split <;> rfl
  · have absent : cell ∉ grid.outline.occupied := mt (mem_occupied grid cell).mp present
    rw [remove, if_neg present, Outline.remove_of_notMem absent]

def Operation.redraw (outline : Outline) : Operation α → Outline
  | .place cell _ | .reserve cell => outline.place cell
  | .remove cell shrink => outline.remove cell shrink
  | .setWeight .. | .setMargin .. | .setFrame .. => outline

theorem outline_apply (grid : Grid α) (operation : Operation α) :
    (operation.apply grid).outline = operation.redraw grid.outline := by
  cases operation with
  | place cell value => exact outline_place grid cell _
  | reserve cell => exact outline_place grid cell _
  | remove cell shrink => exact outline_remove grid cell shrink
  | setWeight axis index weight => cases index <;> rfl
  | setMargin x y => rfl
  | setFrame x y => rfl

theorem outline_foldl (operations : List (Operation α)) (grid : Grid α) :
    (operations.foldl Operation.apply grid).outline =
      operations.foldl Operation.redraw grid.outline := by
  induction operations generalizing grid with
  | nil => rfl
  | cons operation rest ih => rw [List.foldl_cons, List.foldl_cons, ih, outline_apply]

theorem run_append (operations rest : List (Operation α)) :
    run (operations ++ rest) = rest.foldl Operation.apply (run operations) :=
  List.foldl_append

theorem outline_run_append (operations rest : List (Operation α)) :
    (run (operations ++ rest)).outline =
      rest.foldl Operation.redraw (run operations).outline := by
  rw [run_append, outline_foldl]

end FormulaLayout.Grid
