import FormulaLayout.Grid.Resolve
import FormulaLayout.Hierarchy.Basic

/-! The layout pass. A panel gets the canvas, and every visible child is resolved against the
rectangle of its panel, panels before their own children. A child that cannot be resolved is left
out together with all below it. A strict pass ends there, a tolerant one notes the reason and goes
on, unless the reason is none that it catches. The depth of panels within panels is bounded by the
number of components, unless a panel lies within itself, and the stack of calls has room for all of
them: it is taken as unbounded here, other than that of the parser. -/
namespace FormulaLayout

def Record.unresolved (component : String) (reason : Undefined) : Record :=
  ⟨panelSource, .error, s!"Could not resolve {component}: {reason.message}"⟩

inductive Interruption where
  | failure (reason : Undefined)
  | endless
deriving DecidableEq, Repr

structure LayoutPass where
  rects : OrderedMap Handle PixelRect
  failures : OrderedMap Handle Undefined
  records : List Record
deriving DecidableEq

namespace LayoutPass

def start (root : Handle) (canvas : PixelRect) : LayoutPass :=
  ⟨OrderedMap.empty.insert root canvas, .empty, []⟩

def succeeded (pass : LayoutPass) : Bool := pass.failures.entries.isEmpty

def rectOf? (pass : LayoutPass) (c : Handle) : Option PixelRect := pass.rects.get? c

end LayoutPass

namespace Hierarchy

def resolve (h : Hierarchy) (c : Handle) (canvas : PixelRect) : Except Undefined PixelRect :=
  match h.get? c with
  | none => .ok canvas
  | some component =>
    match component.seat, component.parent with
    | .free placement, _ => placement.resolve canvas
    | .cell _, none => .ok canvas
    | .cell cell, some p =>
      if h.holds p cell c then ((h.grid? p).getD .empty).resolve cell canvas else .ok .zero

def fail (h : Hierarchy) (pass : LayoutPass) (c : Handle) (reason : Undefined) : LayoutPass :=
  { pass with
    failures := pass.failures.insert c reason
    records := pass.records ++ [.unresolved (h.label c) reason] }

/-- Lays out the children of a panel; `depth` counts the panels that may still be entered. -/
def layoutChildren (h : Hierarchy) (strict : Bool) (depth : Nat) (p : Handle) (rect : PixelRect)
    (pass : LayoutPass) : Except Interruption LayoutPass :=
  match depth with
  | 0 => .error .endless
  | depth + 1 =>
    (h.children p).foldlM (fun pass c =>
      match h.get? c with
      | none => .ok pass
      | some child =>
        if child.visible then
          match h.resolve c rect with
          | .error reason =>
            if strict ∨ reason.caught = false then .error (.failure reason)
            else .ok (h.fail pass c reason)
          | .ok found =>
            let pass := { pass with rects := pass.rects.insert c found }
            if child.contents.isSome then layoutChildren h strict depth c found pass else .ok pass
        else .ok pass) pass

def layout (h : Hierarchy) (root : Handle) (canvas : PixelRect) (strict : Bool) :
    Except Interruption LayoutPass :=
  h.layoutChildren strict h.components.length root canvas (.start root canvas)

end Hierarchy
end FormulaLayout
