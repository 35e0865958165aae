import FormulaLayout.Proofs.Grid.Scope
import FormulaLayout.Proofs.Hierarchy.Edit
import FormulaLayout.Proofs.Placement.Scope

/-! Where the formulas of a hierarchy come from. A placement comes in with a declaration, a margin
or a frame when a grid is configured, each of them as a text that was read. Nothing else brings one
in, however components are moved about, and so no formula ever mentions what is no name. -/
namespace FormulaLayout.Hierarchy

def PlacedBy (h : Hierarchy) (c : Handle) (placement : FreePlacement) : Prop :=
  ∃ component, h.get? c = some component ∧ component.seat = .free placement

namespace PlacedBy
variable {h : Hierarchy} {c d p : Handle} {placement : FreePlacement}

theorem of_modify {change : Component → Component}
    (placed : (h.modify c change).PlacedBy d placement)
    (kept : ∀ component, (change component).seat = .free placement →
      component.seat = .free placement) : h.PlacedBy d placement := by
  obtain ⟨component, found, seat⟩ := placed
  rw [get?_modify] at found
  split at found
  · obtain ⟨before, here, rfl⟩ := Option.map_eq_some_iff.mp found
    exact ⟨before, here, kept before seat⟩
  · exact ⟨component, found, seat⟩

theorem of_modifyContents {change : Contents → Contents}
    (placed : (h.modifyContents p change).PlacedBy d placement) : h.PlacedBy d placement :=
  placed.of_modify fun _ => id

theorem of_orphan (placed : (h.orphan p c).PlacedBy d placement) : h.PlacedBy d placement :=
  placed.of_modify fun component seat => (orphan_keeps p component).1 ▸ seat

theorem of_addToGrid {cell : Cell} (placed : (h.addToGrid p c cell).PlacedBy d placement) :
    h.PlacedBy d placement := by
  unfold Hierarchy.addToGrid at placed
  split at placed
  · exact (placed.of_modify fun _ => nofun).of_modifyContents
  · exact placed

theorem of_addFree (placed : (h.addFree p c).PlacedBy d placement) : h.PlacedBy d placement := by
  unfold Hierarchy.addFree at placed
  split at placed
  · exact (placed.of_modify fun _ => id).of_modifyContents
  · exact placed

theorem of_removeFromGrid {cell : Cell} {shrink : Bool}
    (placed : (h.removeFromGrid p cell shrink).1.PlacedBy d placement) :
    h.PlacedBy d placement := by
  unfold Hierarchy.removeFromGrid at placed
  split at placed
  · exact placed
  · dsimp only at placed
    split at placed
    · exact placed.of_orphan.of_modifyContents
    · exact placed.of_modifyContents

theorem of_removeFree (placed : (h.removeFree p c).1.PlacedBy d placement) :
    h.PlacedBy d placement := by
  unfold Hierarchy.removeFree at placed
  split at placed
  · exact placed
  · split at placed
    · exact placed.of_orphan.of_modifyContents
    · exact placed

theorem of_leave (placed : (h.leave c).PlacedBy d placement) : h.PlacedBy d placement := by
  unfold Hierarchy.leave at placed
  split at placed
  · exact placed
  · split at placed
    · split at placed
      · exact placed.of_removeFromGrid
      · exact placed
    · exact placed.of_removeFree

theorem of_setParent {parent : Option Handle}
    (placed : (h.setParent c parent).PlacedBy d placement) : h.PlacedBy d placement := by
  have of_detach (placed : (h.detach c).PlacedBy d placement) : h.PlacedBy d placement :=
    (placed.of_modify fun _ => id).of_leave
  cases parent with
  | none => exact of_detach placed
  | some p =>
    change ((h.detach c).enter c p).PlacedBy d placement at placed
    unfold Hierarchy.enter at placed
    split at placed
    · exact of_detach placed.of_addToGrid
    · exact of_detach placed.of_addFree

theorem of_declare {kind : Kind} {name : String} {seat : SeatText} {parent : Option Handle}
    {declared : Hierarchy} (made : h.declare kind name seat parent = .ok declared)
    (placed : declared.PlacedBy d placement) : h.PlacedBy d placement ∨ placement.Known := by
  simp only [Hierarchy.declare, bind_eq_ok_iff] at made
  obtain ⟨place, read, made⟩ := made
  have appended {component : Component} (seated : component.seat = place)
      (placed : (Hierarchy.mk (h.components ++ [component])).PlacedBy d placement) :
      h.PlacedBy d placement ∨ placement.Known := by
    obtain ⟨found, here, seat'⟩ := placed
    rw [get?, List.getElem?_append] at here
    split at here
    · exact .inl ⟨found, here, seat'⟩
    · rw [List.getElem?_singleton] at here
      split at here
      · obtain rfl := Option.some.inj here
        rw [seated] at seat'
        cases seat with
        | cell cell =>
          cases read
          cases seat'
        | free text =>
          rw [SeatText.parse] at read
          cases parsed : FreePlacement.parse text with
          | error fault =>
            rw [parsed] at read
            cases read
          | ok parsedPlacement =>
            rw [parsed] at read
            cases read
            cases seat'
            exact .inr (FreePlacement.known_of_parse parsed)
      · cases here
  cases parent with
  | none =>
    cases made
    exact appended rfl placed
  | some p =>
    cases made
    exact appended rfl placed.of_setParent

end PlacedBy

/-- All formulas mention only names of the vocabulary, and no grid has a cell out of bounds. -/
structure Written (h : Hierarchy) : Prop where
  placements : ∀ c placement, h.PlacedBy c placement → placement.Known
  settings : EveryGrid Grid.SettingsKnown h
  bounds : EveryGrid Grid.Within h

theorem written_edited (edits : List Edit) : Written (edited edits) where
  placements := by
    refine edited_induction (P := fun h => ∀ c placement, h.PlacedBy c placement → placement.Known)
      (fun c placement placed => ?_) (fun {h} edit known c placement placed => ?_) edits
    · obtain ⟨component, found, -⟩ := placed
      simp [get?, Hierarchy.empty] at found
    cases edit with
    | configure p setting sets => exact known c placement placed.of_modifyContents
    | perform operation =>
      simp only [Edit.apply] at placed
      split at placed
      · cases operation with
        | setParent => exact known c placement placed.of_setParent
        | setVisible => exact known c placement (placed.of_modify fun _ => id)
        | declare kind name seat parent =>
          simp only [Operation.apply] at placed
          cases made : h.declare kind name seat parent with
          | error fault =>
            rw [made] at placed
            exact known c placement placed
          | ok declared =>
            rw [made] at placed
            exact (placed.of_declare made).elim (known c placement) id
      · exact known c placement placed
  settings := everyGrid_edited Grid.settingsKnown_empty
    (fun operation known => known.apply operation) edits
  bounds := everyGrid_edited (fun _ contained => by cases contained)
    (fun operation within => Grid.within_apply within operation) edits

end FormulaLayout.Hierarchy
