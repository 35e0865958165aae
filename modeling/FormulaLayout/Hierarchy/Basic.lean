import FormulaLayout.Hierarchy.Component

/-! All components of a layout, in one list that handles index. Moving a component keeps the lists
of its former and its new panel and its own parent in step. Adding one directly does not ask where
it was before, and a component can lose its cell to another one while it keeps its parent. -/
namespace FormulaLayout

structure Hierarchy where
  components : List Component
deriving DecidableEq

namespace Hierarchy

def empty : Hierarchy := ⟨[]⟩

instance : Inhabited Hierarchy := ⟨empty⟩

def get? (h : Hierarchy) (c : Handle) : Option Component := h.components[c]?

def modify (h : Hierarchy) (c : Handle) (change : Component → Component) : Hierarchy :=
  ⟨h.components.modify c change⟩

theorem get?_modify (h : Hierarchy) (c d : Handle) (change : Component → Component) :
    (h.modify c change).get? d = if c = d then (h.get? d).map change else h.get? d := by
  simp only [get?, modify, List.getElem?_modify]
  split <;> simp_all

def contents? (h : Hierarchy) (p : Handle) : Option Contents := (h.get? p).bind (·.contents)
def grid? (h : Hierarchy) (p : Handle) : Option (Grid Tenant) := (h.contents? p).map (·.grid)
def parent? (h : Hierarchy) (c : Handle) : Option Handle := (h.get? c).bind (·.parent)
def cell? (h : Hierarchy) (c : Handle) : Option Cell := (h.get? c).bind (·.seat.cell?)

def children (h : Hierarchy) (p : Handle) : List Handle :=
  ((h.contents? p).map Contents.children).getD []

def label (h : Hierarchy) (c : Handle) : String := ((h.get? c).map Component.render).getD ""

def modifyContents (h : Hierarchy) (p : Handle) (change : Contents → Contents) : Hierarchy :=
  h.modify p fun panel => { panel with contents := panel.contents.map change }

def modifyGrid (h : Hierarchy) (p : Handle) (change : Grid Tenant → Grid Tenant) : Hierarchy :=
  h.modifyContents p fun contents => { contents with grid := change contents.grid }

def setVisible (h : Hierarchy) (c : Handle) (visible : Bool) : Hierarchy :=
  h.modify c ({ · with visible })

/-- From then on the component is gridded, wherever it was before. Its former panel, if any, is
not told. -/
def addToGrid (h : Hierarchy) (p c : Handle) (cell : Cell) : Hierarchy :=
  if (h.contents? p).isSome then
    (h.modifyGrid p (·.place cell (.child (.component c)))).modify c
      ({ · with seat := .cell cell, parent := some p })
  else h

def addFree (h : Hierarchy) (p c : Handle) : Hierarchy :=
  if (h.contents? p).isSome then
    (h.modifyContents p (·.addFree c)).modify c ({ · with parent := some p })
  else h

/-- A child whose parent has changed meanwhile keeps the new one. -/
def orphan (h : Hierarchy) (p c : Handle) : Hierarchy :=
  h.modify c fun child =>
    if child.parent = some p then { child with parent := none } else child

def removeFromGrid (h : Hierarchy) (p : Handle) (cell : Cell) (shrink : Bool) : Hierarchy × Bool :=
  match h.grid? p with
  | none => (h, false)
  | some grid =>
    let (left, removed) := grid.remove cell shrink
    let h := h.modifyGrid p fun _ => left
    match grid.get? cell with
    | some (.child (.component c)) => (h.orphan p c, removed)
    | _ => (h, removed)

def removeFree (h : Hierarchy) (p c : Handle) : Hierarchy × Bool :=
  match h.contents? p with
  | none => (h, false)
  | some contents =>
    if c ∈ contents.free then
      ((h.modifyContents p fun contents =>
        { contents with free := contents.free.erase c }).orphan p c, true)
    else (h, false)

def holds (h : Hierarchy) (p : Handle) (cell : Cell) (c : Handle) : Bool :=
  (h.grid? p).bind (·.get? cell) = some (.child (.component c))

/-- A component that lost its cell leaves the new occupant where it is. -/
def leave (h : Hierarchy) (c : Handle) : Hierarchy :=
  match h.parent? c with
  | none => h
  | some p =>
    match h.cell? c with
    | some cell => if h.holds p cell c then (h.removeFromGrid p cell true).1 else h
    | none => (h.removeFree p c).1

def enter (h : Hierarchy) (c p : Handle) : Hierarchy :=
  match h.cell? c with
  | some cell => h.addToGrid p c cell
  | none => h.addFree p c

/-- The component left, and its parent forgotten even where it was not listed. -/
def detach (h : Hierarchy) (c : Handle) : Hierarchy :=
  (h.leave c).modify c ({ · with parent := none })

def setParent (h : Hierarchy) (c : Handle) (p : Option Handle) : Hierarchy :=
  match p with
  | none => h.detach c
  | some p => (h.detach c).enter c p

end Hierarchy
end FormulaLayout
