import FormulaLayout.Formula.Record
import FormulaLayout.Grid.Basic

/-! The records of operations on grids. A placement shows the bounds after it, a removal is noted
only where it changes the bounds. -/
namespace FormulaLayout

namespace Record

private def boundsText (bounds : PerAxis Nat) : String := s!"({bounds.x}, {bounds.y})"

def placed (occupant : String) (cell : Cell) (bounds : PerAxis Nat) : Record :=
  ⟨gridSource, .debug, s!"Placed {occupant} at {cell.render}; bounds now {boundsText bounds}"⟩

def shrunk (bounds : PerAxis Nat) (cell : Cell) : Record :=
  ⟨gridSource, .debug, s!"Grid shrunk to {boundsText bounds} after removing {cell.render}"⟩

end Record

namespace Grid
variable {α : Type}

def placeRecords (grid : Grid α) (label : α → String) (cell : Cell) (occupant : Occupant α) :
    List Record :=
  [.placed (occupant.render label) cell (grid.place cell occupant).bounds]

def removeRecords (grid : Grid α) (cell : Cell) (shrink : Bool) : List Record :=
  if grid.contains cell ∧ shrink then
    ((grid.shrunkBounds? cell).map (Record.shrunk · cell)).toList
  else []

def settingRecords (x y : Option String) : List Record := Formula.parseRecordsOfAll [x, y]

end Grid
end FormulaLayout
