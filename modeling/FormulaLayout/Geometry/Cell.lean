import FormulaLayout.Geometry.Axis
import FormulaLayout.Number.Written

/-! Cells of a grid. A coordinate arrives as whatever an author wrote; only whole numbers from zero
up make a cell, and the column is checked before the row. -/
namespace FormulaLayout

structure Cell where
  col : Nat
  row : Nat
deriving DecidableEq, Repr

inductive Coordinate where
  | whole (value : Int)
  | fraction (value : Float)
  | truth (value : Bool)
  | text (value : String)
  | missing

inductive CellError where
  | notWhole (axis : Axis) (given : Coordinate)
  | negative (axis : Axis) (value : Int)

namespace Coordinate

def render : Coordinate → String
  | whole value => s!"int: {value}"
  | fraction value => s!"float: {Number.shortest value}"
  | truth true => "bool: True"
  | truth false => "bool: False"
  | text value => s!"str: {value}"
  | missing => "NoneType: None"

def index (axis : Axis) : Coordinate → Except CellError Nat
  | whole (.ofNat n) => .ok n
  | whole n => .error (.negative axis n)
  | given => .error (.notWhole axis given)

end Coordinate

def CellError.message : CellError → String
  | notWhole axis given => s!"Cell {field axis} must be an int, got {given.render}"
  | negative axis value => s!"Cell {field axis} must be non-negative, got {value}"
where
  field : Axis → String
    | .x => "col"
    | .y => "row"

namespace Cell

def ofCoordinates (col row : Coordinate) : Except CellError Cell := do
  let col ← col.index .x
  let row ← row.index .y
  return ⟨col, row⟩

def index (cell : Cell) : Axis → Nat
  | .x => cell.col
  | .y => cell.row

def before (a b : Cell) : Bool := a.col < b.col || (a.col == b.col && a.row ≤ b.row)

def render (cell : Cell) : String := s!"Cell(col={cell.col}, row={cell.row})"

end Cell
end FormulaLayout
