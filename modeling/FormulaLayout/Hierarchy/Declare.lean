import FormulaLayout.Hierarchy.Basic

/-! Declarations. A component is declared with a kind, a name, a seat and perhaps a parent. Its
formulas are parsed once, here; a seat in a cell has none. -/
namespace FormulaLayout
namespace Hierarchy

inductive Kind where
  | component
  | panel
deriving DecidableEq, Repr

def Kind.name : Kind → String
  | component => "Component"
  | panel => "Panel"

def Kind.contents : Kind → Option Contents
  | component => none
  | panel => some .empty

inductive SeatText where
  | free (text : PlacementText)
  | cell (cell : Cell)
deriving DecidableEq

def SeatText.parse : SeatText → Except Fault Seat
  | .free text => (FreePlacement.parse text).map .free
  | .cell place => .ok (.cell place)

def nextHandle (h : Hierarchy) : Handle := h.components.length

/-- The new component gets the next handle. Nothing changes when a formula is at fault. -/
def declare (h : Hierarchy) (kind : Kind) (name : String) (seat : SeatText)
    (parent : Option Handle) : Except Fault Hierarchy := do
  let seat ← seat.parse
  let component : Component :=
    ⟨if name = "" then kind.name else name, true, seat, none, kind.contents⟩
  let declared : Hierarchy := ⟨h.components ++ [component]⟩
  match parent with
  | none => return declared
  | some p => return declared.setParent h.nextHandle (some p)

end Hierarchy
end FormulaLayout
