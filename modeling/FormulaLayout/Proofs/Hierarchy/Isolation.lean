import FormulaLayout.Proofs.Hierarchy.Pass

/-! One component shown, hidden or given other formulas, and the tolerant passes before and after.
Whether the component is laid out decides about itself and all below it, and about nothing else: the
panel goes on with its next child as if nothing had happened. So both passes say the same about all
other components, in the same order. -/
namespace FormulaLayout.Hierarchy
open Relation

section Beside
variable {h : Hierarchy} {ν μ : Type}

open Classical in
noncomputable def beside (h : Hierarchy) (c : Handle) (entries : List (Handle × ν)) :
    List (Handle × ν) :=
  entries.filter fun entry => ¬h.Descends c entry.1

end Beside

section Agreement

/-- Hierarchies that differ in one component at most, and not in what it contains. -/
structure AgreeBut (c : Handle) (h h' : Hierarchy) : Prop where
  children : ∀ p, h'.children p = h.children p
  panels : ∀ p, h'.IsPanel p ↔ h.IsPanel p
  visible : ∀ d, d ≠ c → (h'.Visible d ↔ h.Visible d)
  resolve : ∀ d, d ≠ c → ∀ outer, h'.resolve d outer = h.resolve d outer

variable {c : Handle} {h h' : Hierarchy}

theorem AgreeBut.lists (agree : AgreeBut c h h') : h'.Lists = h.Lists := by
  funext p d
  rw [Lists, agree.children, Lists]

theorem AgreeBut.forest (agree : AgreeBut c h h') (forest : Forest h) : Forest h' where
  acyclic := by
    rw [Acyclic, agree.lists]
    exact forest.acyclic
  once p := by
    rw [agree.children]
    exact forest.once p
  owner p q d child child' := by
    rw [agree.children] at child child'
    exact forest.owner p q d child child'

def Yields (h : Hierarchy) (d : Handle) (outer : PixelRect) (part : List Finding) : Prop :=
  if h.Visible d then
    match h.resolve d outer with
    | .error reason => part = [(d, .error reason)]
    | .ok rect => ∃ below, part = (d, .ok rect) :: below ∧ h.Walks (h.children d) rect below
  else part = []

theorem Yields.descends {d : Handle} {outer : PixelRect} {part : List Finding}
    (yields : h.Yields d outer part) : ∀ finding ∈ part, h.Descends d finding.1 := by
  unfold Yields at yields
  split at yields
  · split at yields
    · subst yields
      simpa using ReflTransGen.refl
    · obtain ⟨below, rfl, walks⟩ := yields
      intro finding listed
      obtain rfl | deeper := List.mem_cons.mp listed
      · exact .refl
      · obtain ⟨e, child, down⟩ := walks.descends deeper
        exact down.head child
  · subst yields
    simp

end Agreement

inductive Alteration where
  | visibility (visible : Bool)
  | formulas (text : PlacementText)

def Component.reformulate (placement : FreePlacement) (component : Component) : Component :=
  match component.seat with
  | .free _ => { component with seat := .free placement }
  | .cell _ => component

/-- Formulas that do not parse are not taken, and a gridded component has none. -/
def Alteration.apply (h : Hierarchy) (c : Handle) : Alteration → Hierarchy
  | .visibility visible => h.setVisible c visible
  | .formulas text =>
    match FreePlacement.parse text with
    | .ok placement => h.modify c (Component.reformulate placement)
    | .error _ => h

section Size
variable {h : Hierarchy}

end Size

end FormulaLayout.Hierarchy
