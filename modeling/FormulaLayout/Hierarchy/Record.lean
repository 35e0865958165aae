import FormulaLayout.Grid.Record
import FormulaLayout.Hierarchy.Declare

/-! The records of operations on components. A component is named as it is before the operation
seats it. -/
namespace FormulaLayout

namespace Hierarchy

def tenantLabel (h : Hierarchy) : Tenant → String
  | .component c => h.label c
  | .object name => s!"<{name}>"

def addToGridRecords (h : Hierarchy) (p c : Handle) (cell : Cell) : List Record :=
  match h.grid? p with
  | none => []
  | some grid => grid.placeRecords h.tenantLabel cell (.child (.component c))

def removeFromGridRecords (h : Hierarchy) (p : Handle) (cell : Cell) (shrink : Bool) :
    List Record :=
  match h.grid? p with
  | none => []
  | some grid => grid.removeRecords cell shrink

def leaveRecords (h : Hierarchy) (c : Handle) : List Record :=
  match h.parent? c, h.cell? c with
  | some p, some cell => if h.holds p cell c then h.removeFromGridRecords p cell true else []
  | _, _ => []

def enterRecords (h : Hierarchy) (c p : Handle) : List Record :=
  match h.cell? c with
  | some cell => h.addToGridRecords p c cell
  | none => []

def setParentRecords (h : Hierarchy) (c : Handle) (p : Option Handle) : List Record :=
  match p with
  | none => h.leaveRecords c
  | some p => h.leaveRecords c ++ (h.detach c).enterRecords c p

def SeatText.records : SeatText → List Record
  | .free text => FreePlacement.parseRecords text
  | .cell _ => []

def declareRecords (h : Hierarchy) (kind : Kind) (name : String) (seat : SeatText)
    (parent : Option Handle) : List Record :=
  seat.records ++ match h.declare kind name seat none, parent with
    | .ok declared, some p => declared.setParentRecords h.nextHandle (some p)
    | _, _ => []

end Hierarchy
end FormulaLayout
