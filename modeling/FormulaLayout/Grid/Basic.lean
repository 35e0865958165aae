import FormulaLayout.Formula.Parse
import FormulaLayout.Geometry.Cell
import FormulaLayout.OrderedMap

/-! Grids: occupied cells in the order of their first placement, and what shapes them. The bounds
grow with every placement. A removal shrinks them to the cells that are left, unless those reach
beyond the removed cell on both axes. Weights are held as deviations from one. -/
namespace FormulaLayout

inductive Occupant (α : Type) where
  | reserved
  | child (value : α)
deriving DecidableEq

namespace Occupant
variable {α : Type}

def child? : Occupant α → Option α
  | reserved => none
  | child value => some value

def render (label : α → String) : Occupant α → String
  | reserved => "EMPTY"
  | child value => s!"Present(child={label value})"

end Occupant

structure Grid (α : Type) where
  cells : OrderedMap Cell (Occupant α)
  bounds : PerAxis Nat
  weights : PerAxis (OrderedMap Nat Float)
  margin : PerAxis (Option Formula)
  frame : PerAxis (Option Formula)
deriving DecidableEq

namespace Grid
variable {α : Type}

def empty : Grid α := ⟨.empty, .both 0, .both .empty, .both none, .both none⟩

instance : Inhabited (Grid α) := ⟨empty⟩

def get? (grid : Grid α) (cell : Cell) : Option (Occupant α) := grid.cells.get? cell
def contains (grid : Grid α) (cell : Cell) : Bool := grid.cells.contains cell
def size (grid : Grid α) : Nat := grid.cells.size
def entries (grid : Grid α) : List (Cell × Occupant α) := grid.cells.entries
def children (grid : Grid α) : List α := grid.cells.values.filterMap Occupant.child?

def cellOf? [DecidableEq α] (grid : Grid α) (value : α) : Option Cell :=
  (grid.entries.find? (·.2 = .child value)).map Prod.fst

def cover (bounds : PerAxis Nat) (cell : Cell) : PerAxis Nat :=
  ⟨max bounds.x (cell.col + 1), max bounds.y (cell.row + 1)⟩

def place (grid : Grid α) (cell : Cell) (occupant : Occupant α) : Grid α :=
  { grid with bounds := cover grid.bounds cell, cells := grid.cells.insert cell occupant }

def reserve (grid : Grid α) (cell : Cell) : Grid α := grid.place cell .reserved

/-- How far the cells reach, or nothing as soon as they pass the removed cell on both axes. The
two axes may be passed by different cells. -/
def reachBeside (removed : Cell) (reach : PerAxis Nat) : List Cell → Option (PerAxis Nat)
  | [] => some reach
  | cell :: rest =>
    let reach := cover reach cell
    if removed.col + 1 < reach.x ∧ removed.row + 1 < reach.y then none
    else reachBeside removed reach rest

def shrunkBounds? (grid : Grid α) (cell : Cell) : Option (PerAxis Nat) :=
  if cell.col < grid.bounds.x ∧ cell.row < grid.bounds.y then
    reachBeside cell (.both 0) (grid.cells.erase cell).keys
  else none

def remove (grid : Grid α) (cell : Cell) (shrink : Bool) : Grid α × Bool :=
  if grid.contains cell then
    let bounds := if shrink then (grid.shrunkBounds? cell).getD grid.bounds else grid.bounds
    ({ grid with cells := grid.cells.erase cell, bounds }, true)
  else (grid, false)

def defaultWeight : Float := 1

/-- Indices below zero have no weight of their own. -/
def weight (grid : Grid α) (axis : Axis) : Int → Float
  | .ofNat index => ((grid.weights.get axis).get? index).getD defaultWeight
  | .negSucc _ => defaultWeight

structure NegativeIndex where
  index : Int
deriving DecidableEq, Repr

def NegativeIndex.message (error : NegativeIndex) : String :=
  s!"Weight index must be non-negative, got {error.index}"

def setWeight (grid : Grid α) (axis : Axis) (index : Int) (weight : Float) :
    Except NegativeIndex (Grid α) :=
  match index with
  | .negSucc n => .error ⟨.negSucc n⟩
  | .ofNat n =>
    let weights := grid.weights.get axis
    .ok { grid with
      weights := grid.weights.set axis
        (if weight == defaultWeight then weights.erase n else weights.insert n weight) }

/-- No text clears a setting, in contrast to an empty one. -/
def readSetting (text : Option String) : Except Fault (Option Formula) :=
  match text with
  | none => .ok none
  | some text => (Formula.parse text []).map some

/-- The settings of both axes and what went wrong. The horizontal one is in force before the
vertical one is read. -/
def readSettings (old : PerAxis (Option Formula)) (x y : Option String) :
    PerAxis (Option Formula) × Except Fault Unit :=
  match readSetting x with
  | .error fault => (old, .error fault)
  | .ok x =>
    match readSetting y with
    | .error fault => ({ old with x }, .error fault)
    | .ok y => (⟨x, y⟩, .ok ())

def setMargin (grid : Grid α) (x y : Option String) : Grid α × Except Fault Unit :=
  let (margin, outcome) := readSettings grid.margin x y
  ({ grid with margin }, outcome)

def setFrame (grid : Grid α) (x y : Option String) : Grid α × Except Fault Unit :=
  let (frame, outcome) := readSettings grid.frame x y
  ({ grid with frame }, outcome)

theorem cells_place (grid : Grid α) (cell : Cell) (occupant : Occupant α) :
    (grid.place cell occupant).cells = grid.cells.insert cell occupant := rfl

theorem get?_place (grid : Grid α) (cell cell' : Cell) (occupant : Occupant α) :
    (grid.place cell occupant).get? cell' =
      if cell = cell' then some occupant else grid.get? cell' :=
  OrderedMap.get?_insert ..

theorem cells_remove (grid : Grid α) (cell : Cell) (shrink : Bool) :
    (grid.remove cell shrink).1.cells = grid.cells.erase cell := by
  unfold remove
  split
  · rfl
  · next absent =>
    exact (OrderedMap.erase_of_not_mem (mt (OrderedMap.contains_iff_mem_keys _ _).mpr absent)).symm

theorem get?_remove (grid : Grid α) (cell cell' : Cell) (shrink : Bool) :
    (grid.remove cell shrink).1.get? cell' = if cell = cell' then none else grid.get? cell' := by
  rw [get?, cells_remove, OrderedMap.get?_erase]
  rfl

theorem remove_snd (grid : Grid α) (cell : Cell) (shrink : Bool) :
    (grid.remove cell shrink).2 = grid.contains cell := by
  unfold remove
  split <;> simp_all

end Grid
end FormulaLayout
