import FormulaLayout.Grid.Basic
import FormulaLayout.Placement.Free
import FormulaLayout.Text.Quoted

/-! Components and panels. A handle stands for a component, a panel is a component with contents:
a grid and a list of free children. Every component has a seat, which says how it is placed in its
parent, and moves along with it. -/
namespace FormulaLayout

abbrev Handle := Nat

/-- What a panel's grid can hold. An object takes its cell and is no component. -/
inductive Tenant where
  | component (handle : Handle)
  | object (name : String)
deriving DecidableEq, Repr

def Tenant.handle? : Tenant → Option Handle
  | component handle => some handle
  | object _ => none

inductive Seat where
  | free (placement : FreePlacement)
  | cell (cell : Cell)
deriving DecidableEq

def Seat.cell? : Seat → Option Cell
  | .free _ => none
  | .cell place => some place

structure Contents where
  grid : Grid Tenant
  free : List Handle
deriving DecidableEq

def Contents.empty : Contents := ⟨.empty, []⟩

/-- Gridded children first, in the order of the grid's entries. -/
def Contents.children (contents : Contents) : List Handle :=
  contents.grid.children.filterMap Tenant.handle? ++ contents.free

def Contents.addFree (contents : Contents) (c : Handle) : Contents :=
  if c ∈ contents.free then contents else { contents with free := contents.free ++ [c] }

structure Component where
  name : String
  visible : Bool
  seat : Seat
  parent : Option Handle
  contents : Option Contents
deriving DecidableEq

def Component.render (component : Component) : String :=
  let kind := if component.contents.isSome then "Panel" else "Component"
  let place := match component.seat with
    | .free _ => "free"
    | .cell cell => s!"cell=({cell.col}, {cell.row})"
  s!"{kind}({Text.quoted component.name}, {place})"

end FormulaLayout
