import FormulaLayout.Grid.Resolve

/-! Grids as they come about: an empty one and whatever was done to it since. An operation that
fails counts as done and leaves what it leaves. No run loses a cell past its bounds, because a
removal shrinks them only to what the other cells reach. -/
namespace FormulaLayout.Grid
variable {α : Type}

inductive Operation (α : Type) where
  | place (cell : Cell) (value : α)
  | reserve (cell : Cell)
  | remove (cell : Cell) (shrink : Bool)
  | setWeight (axis : Axis) (index : Int) (weight : Float)
  | setMargin (x y : Option String)
  | setFrame (x y : Option String)

def Operation.apply (grid : Grid α) : Operation α → Grid α
  | .place cell value => grid.place cell (.child value)
  | .reserve cell => grid.reserve cell
  | .remove cell shrink => (grid.remove cell shrink).1
  | .setWeight axis index weight => (grid.setWeight axis index weight).toOption.getD grid
  | .setMargin x y => (grid.setMargin x y).1
  | .setFrame x y => (grid.setFrame x y).1

def run (operations : List (Operation α)) : Grid α := operations.foldl Operation.apply .empty

def Holds (bounds : PerAxis Nat) (cell : Cell) : Prop :=
  ∀ axis, cell.index axis < bounds.get axis

def Within (grid : Grid α) : Prop := ∀ cell, grid.contains cell = true → Holds grid.bounds cell

theorem holds_cover (bounds : PerAxis Nat) (cell : Cell) : Holds (cover bounds cell) cell := by
  intro axis
  cases axis <;> simp only [cover, PerAxis.get, Cell.index] <;> omega

theorem Holds.cover {bounds : PerAxis Nat} {cell : Cell} (h : Holds bounds cell) (other : Cell) :
    Holds (cover bounds other) cell := by
  intro axis
  have := h axis
  cases axis <;> simp only [Grid.cover, PerAxis.get, Cell.index] at this ⊢ <;> omega

theorem Holds.reachBeside {removed cell : Cell} {cells : List Cell} {reach result : PerAxis Nat}
    (h : Holds reach cell) (done : reachBeside removed reach cells = some result) :
    Holds result cell := by
  induction cells generalizing reach with
  | nil =>
    obtain rfl : reach = result := by simpa [Grid.reachBeside] using done
    exact h
  | cons next rest ih =>
    simp only [Grid.reachBeside] at done
    split at done
    · cases done
    · exact ih (h.cover next) done

theorem holds_reachBeside {removed cell : Cell} {cells : List Cell} {reach result : PerAxis Nat}
    (done : reachBeside removed reach cells = some result) (listed : cell ∈ cells) :
    Holds result cell := by
  induction cells generalizing reach with
  | nil => cases listed
  | cons next rest ih =>
    simp only [reachBeside] at done
    split at done
    · cases done
    · cases listed with
      | head => exact (holds_cover reach cell).reachBeside done
      | tail _ later => exact ih done later

theorem contains_place (grid : Grid α) (cell cell' : Cell) (occupant : Occupant α) :
    (grid.place cell occupant).contains cell' = (cell = cell' || grid.contains cell') := by
  have found := grid.get?_place cell cell' occupant
  simp only [get?, contains, OrderedMap.contains] at found ⊢
  rw [found]
  split <;> simp_all

theorem within_place {grid : Grid α} (h : Within grid) (cell : Cell) (occupant : Occupant α) :
    Within (grid.place cell occupant) := by
  intro cell' contained
  rw [contains_place] at contained
  by_cases same : cell = cell'
  · subst same
    exact holds_cover grid.bounds cell
  · exact (h cell' (by simpa [same] using contained)).cover cell

theorem within_remove {grid : Grid α} (h : Within grid) (cell : Cell) (shrink : Bool) :
    Within (grid.remove cell shrink).1 := by
  intro cell' contained
  have kept : cell' ∈ (grid.cells.erase cell).keys → grid.contains cell' = true := by
    intro listed
    have := (OrderedMap.contains_iff_mem_keys _ _).mpr listed
    rw [OrderedMap.contains, OrderedMap.get?_erase] at this
    split at this
    · cases this
    · exact this
  unfold remove at contained ⊢
  split at contained
  · next present =>
    rw [if_pos present]
    have listed := (OrderedMap.contains_iff_mem_keys _ _).mp contained
    have old := h cell' (kept listed)
    cases shrink with
    | false => exact old
    | true =>
      simp only [if_true]
      cases shrunk : grid.shrunkBounds? cell with
      | none => exact old
      | some bounds =>
        unfold shrunkBounds? at shrunk
        split at shrunk
        · exact holds_reachBeside shrunk listed
        · cases shrunk
  · next absent =>
    rw [if_neg absent]
    exact h cell' contained

theorem exists_remove_eq (grid : Grid α) (cell : Cell) (shrink : Bool) :
    ∃ cells bounds, (grid.remove cell shrink).1 = { grid with cells, bounds } := by
  unfold remove
  split
  · exact ⟨_, _, rfl⟩
  · exact ⟨grid.cells, grid.bounds, rfl⟩

theorem within_apply {grid : Grid α} (h : Within grid) (operation : Operation α) :
    Within (operation.apply grid) := by
  cases operation with
  | place cell value => exact within_place h cell _
  | reserve cell => exact within_place h cell _
  | remove cell shrink => exact within_remove h cell shrink
  | setWeight axis index weight => cases index <;> exact h
  | setMargin x y => exact h
  | setFrame x y => exact h

theorem within_foldl {grid : Grid α} (h : Within grid) (operations : List (Operation α)) :
    Within (operations.foldl Operation.apply grid) := by
  induction operations generalizing grid with
  | nil => exact h
  | cons operation rest ih => exact ih (within_apply h operation)

theorem within_run (operations : List (Operation α)) : Within (run operations) :=
  within_foldl (fun _ contained => by cases contained) operations

end FormulaLayout.Grid
