import FormulaLayout.Proofs.Hierarchy.Walk

/-! Hierarchies that show the same components and resolve them to images of the same rectangles. All
the way down, what is found in the one is the image of what is found in the other. Only components
that can be reached through visible ones have to be resolved alike. -/
namespace FormulaLayout.Hierarchy
open Relation

def Shows (h : Hierarchy) (p c : Handle) : Prop := c ∈ h.children p ∧ h.Visible c

/-- A rectangle and its image, or two reasons that go together. -/
inductive Image (image : PixelRect → PixelRect) (alike : Undefined → Undefined → Prop) :
    Except Undefined PixelRect → Except Undefined PixelRect → Prop
  | ok (rect : PixelRect) : Image image alike (.ok rect) (.ok (image rect))
  | error {reason reason' : Undefined} (same : alike reason reason') :
      Image image alike (.error reason) (.error reason')

def Finding.Image (image : PixelRect → PixelRect) (alike : Undefined → Undefined → Prop)
    (finding finding' : Finding) : Prop :=
  finding'.1 = finding.1 ∧ Hierarchy.Image image alike finding.2 finding'.2

variable {h h' : Hierarchy} {image : PixelRect → PixelRect}
  {alike : Undefined → Undefined → Prop}

theorem Walks.exists_image (children : ∀ p, h'.children p = h.children p)
    (visible : ∀ c, h'.Visible c ↔ h.Visible c) {siblings : List Handle} {outer : PixelRect}
    {found : List Finding} (walks : h.Walks siblings outer found)
    (resolved : ∀ c ∈ siblings, h.Visible c → ∀ d, ReflTransGen h.Shows c d → ∀ outer,
      Image image alike (h.resolve d outer) (h'.resolve d (image outer))) :
    ∃ found', h'.Walks siblings (image outer) found' ∧
      List.Forall₂ (Finding.Image image alike) found found' := by
  induction walks with
  | done => exact ⟨[], .done, .nil⟩
  | hidden unseen _ ih =>
    obtain ⟨others, rest, same⟩ := ih fun d listed => resolved d (List.mem_cons_of_mem _ listed)
    exact ⟨others, .hidden (mt (visible _).mp unseen) rest, same⟩
  | @failed c siblings outer found reason seen undefined _ ih =>
    obtain ⟨others, rest, same⟩ := ih fun d listed => resolved d (List.mem_cons_of_mem _ listed)
    have here := resolved c List.mem_cons_self seen c .refl outer
    rw [undefined] at here
    cases outcome : h'.resolve c (image outer) with
    | ok rect => rw [outcome] at here; cases here
    | error reason' =>
      rw [outcome] at here
      exact ⟨_, .failed ((visible c).mpr seen) outcome rest, .cons ⟨rfl, here⟩ same⟩
  | @placed c siblings outer rect below found seen placed _ _ ihFirst ihRest =>
    obtain ⟨others, rest, same⟩ := ihRest fun d listed =>
      resolved d (List.mem_cons_of_mem _ listed)
    obtain ⟨inner, first, sameBelow⟩ := ihFirst fun d child seen' e down =>
      resolved c List.mem_cons_self seen e (.head ⟨child, seen'⟩ down)
    have here := resolved c List.mem_cons_self seen c .refl outer
    rw [placed] at here
    rw [← children] at first
    cases outcome : h'.resolve c (image outer) with
    | error reason' => rw [outcome] at here; cases here
    | ok rect' =>
      rw [outcome] at here
      obtain ⟨⟩ := here
      exact ⟨_, .placed ((visible c).mpr seen) outcome first rest,
        .cons ⟨rfl, .ok rect⟩ (List.rel_append sameBelow same)⟩

end FormulaLayout.Hierarchy
