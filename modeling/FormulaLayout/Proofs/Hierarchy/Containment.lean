import FormulaLayout.Proofs.Grid.Inside
import FormulaLayout.Proofs.Hierarchy.Pass

/-! Rectangles within rectangles. In a tree whose visible components all sit in cells, and whose
grids do not reach outward, every component stays within the panel that lists it, at any depth.
What carries the way down is the size: no rectangle is larger than the canvas, so the edges of the
next grid are cut from an extent that fits in a pixel. -/
namespace FormulaLayout.Hierarchy
open Relation

section Step
variable {h : Hierarchy}

theorem Consistent.resolve_gridded (consistent : Consistent h) {p c : Handle} {cell : Cell}
    (child : c ∈ h.children p) (seat : h.cell? c = some cell) :
    ∃ grid, h.grid? p = some grid ∧ grid.contains cell = true ∧
      ∀ outer, h.resolve c outer = grid.resolve cell outer := by
  have held := (consistent.holds_iff_cell? child cell).mpr seat
  obtain ⟨grid, found, occupied⟩ := exists_grid_of_holds held
  refine ⟨grid, found, occupied, fun outer => ?_⟩
  rw [resolve_of_seat (consistent.parent_of_child child) seat, if_pos held, found, Option.getD_some]

end Step

/-- A tree of panels in which nothing visible is placed freely and no grid reaches outward. -/
structure TameTree (h : Hierarchy) (root : Handle) (canvas : PixelRect) : Prop where
  acyclic : h.Acyclic
  panel : h.IsPanel root
  sized : canvas.Sized
  gridded : ∀ c, TransGen h.Lists root c → h.Visible c → (h.cell? c).isSome = true
  tame : ∀ p outer grid, h.Laid (root, canvas) (p, outer) → h.grid? p = some grid →
    grid.Tame outer

section Descent
variable {edits : List Edit} {root : Handle} {canvas : PixelRect}

theorem TameTree.step (tree : (edited edits).TameTree root canvas) {p c : Handle}
    {outer rect : PixelRect} (laid : (edited edits).Laid (root, canvas) (p, outer))
    (places : (edited edits).Places (p, outer) (c, rect)) (sized : outer.Sized) :
    rect.Inside outer ∧ rect.Sized := by
  obtain ⟨child, visible, resolved⟩ := places
  have below : TransGen (edited edits).Lists root c := TransGen.tail' laid.descends child
  obtain ⟨cell, seat⟩ := Option.isSome_iff_exists.mp (tree.gridded c below visible)
  obtain ⟨grid, found, occupied, same⟩ := (consistent_edited edits).resolve_gridded child seat
  have done : grid.resolve cell outer = .ok rect := (same outer).symm.trans resolved
  have within := (written_edited edits).bounds p grid found
  exact (tree.tame p outer grid laid found).resolve_inside sized within occupied done

theorem TameTree.run (tree : (edited edits).TameTree root canvas) {place : Handle × PixelRect}
    (laid : (edited edits).Laid (root, canvas) place) :
    place.2.Inside canvas ∧ place.2.Sized := by
  induction laid with
  | refl => exact ⟨.refl canvas, tree.sized⟩
  | tail before places ih =>
    obtain ⟨inside, sized⟩ := tree.step before places ih.2
    exact ⟨inside.trans ih.1, sized⟩

theorem TameTree.passable (tree : (edited edits).TameTree root canvas) :
    (edited edits).Passable root canvas := by
  rintro ⟨p, outer⟩ laid ⟨c, outcome⟩ ⟨child, visible, resolved⟩
  obtain rfl : (edited edits).resolve c outer = outcome := resolved
  have below : TransGen (edited edits).Lists root c := TransGen.tail' laid.descends child
  obtain ⟨cell, seat⟩ := Option.isSome_iff_exists.mp (tree.gridded c below visible)
  obtain ⟨grid, found, occupied, same⟩ := (consistent_edited edits).resolve_gridded child seat
  have converts := (tree.tame p outer grid laid found).converts (tree.run laid).2 cell
  intro reason failed
  refine (Grid.hingesOn_resolve ?_ occupied converts).caught ((same outer).symm.trans failed)
  exact (written_edited edits).settings p grid found

end Descent

structure Contained (h : Hierarchy) (root : Handle) (canvas : PixelRect) (pass : LayoutPass) :
    Prop where
  sizes : ∀ c rect, pass.rectOf? c = some rect → 0 ≤ rect.width ∧ 0 ≤ rect.height
  canvas : ∀ c rect, pass.rectOf? c = some rect → rect.Inside canvas
  panel : ∀ c rect, pass.rectOf? c = some rect → c ≠ root →
    ∃ p outer, h.parent? c = some p ∧ pass.rectOf? p = some outer ∧ rect.Inside outer

/-- A pass over a gridded tree gives every component a rectangle within that of its panel. -/
theorem gridded_tree_stays_inside {edits : List Edit} {root : Handle} {canvas : PixelRect}
    (tree : (edited edits).TameTree root canvas) :
    ∃ pass, (edited edits).layout root canvas false = .ok pass ∧
      Contained (edited edits) root canvas pass := by
  have declared := declared_of_isPanel tree.panel
  obtain ⟨pass, done⟩ := (tree.acyclic.exists_pass_iff declared canvas).mpr tree.passable
  obtain ⟨found, survey⟩ := (forest_edited tree.acyclic).exists_survey declared done
  refine ⟨pass, done, ?_⟩
  constructor
  case sizes =>
    intro c rect placed
    have sized := (tree.run ((survey.rectOf?_iff_laid c rect).mp placed)).2
    exact ⟨(sized .x).1, (sized .y).1⟩
  case canvas =>
    intro c rect placed
    exact (tree.run ((survey.rectOf?_iff_laid c rect).mp placed)).1
  case panel =>
    intro c rect placed inner
    obtain ⟨p, outer, child, placed', visible, resolved⟩ := survey.within placed inner
    have laid := (survey.rectOf?_iff_laid p outer).mp placed'
    have inside := (tree.step laid ⟨child, visible, resolved⟩ (tree.run laid).2).1
    exact ⟨p, outer, (consistent_edited edits).parent_of_child child, placed', inside⟩

/-- A panel in a panel, with a frame around the outer one and a margin below zero in the other. -/
def framedPanels : List Edit :=
  [.perform (.declare .panel "root" (.cell ⟨0, 0⟩) none),
    .perform (.declare .panel "inner" (.cell ⟨1, 0⟩) (some 0)),
    .perform (.declare .component "leaf" (.cell ⟨0, 2⟩) (some 1)),
    .configure 0 (.setFrame (some "2") none) rfl, .configure 0 (.setWeight .x 1 0.7) rfl,
    .configure 1 (.setMargin none (some "0-1")) rfl]

def framedPass : LayoutPass :=
  ⟨.ofList [(0, ⟨5, 6, 300, 200⟩), (1, ⟨181, 6, 122, 200⟩), (2, ⟨181, 139, 122, 67⟩)], .empty, []⟩

theorem framedPanels_stay_inside :
    (edited framedPanels).TameTree 0 ⟨5, 6, 300, 200⟩ ∧
      (edited framedPanels).layout 0 ⟨5, 6, 300, 200⟩ false = .ok framedPass ∧
        Contained (edited framedPanels) 0 ⟨5, 6, 300, 200⟩ framedPass := by
  have acyclic : (edited framedPanels).Acyclic := acyclic_of_lt (by decide +kernel)
  have panel : (edited framedPanels).IsPanel 0 := by decide +kernel
  have done : (edited framedPanels).layout 0 ⟨5, 6, 300, 200⟩ false = .ok framedPass := by
    decide +kernel
  have tree : (edited framedPanels).TameTree 0 ⟨5, 6, 300, 200⟩ := by
    refine ⟨acyclic, panel, by decide, fun c _ visible => ?_, fun p outer grid laid found => ?_⟩
    · have all : ∀ c < (edited framedPanels).components.length,
          ((edited framedPanels).cell? c).isSome = true := by decide +kernel
      exact all c (declared_iff_lt.mp (declared_of_visible visible))
    · have all : ∀ entry ∈ framedPass.rects.entries, ∀ grid ∈ (edited framedPanels).grid? entry.1,
          grid.Tame entry.2 := by decide +kernel
      have placed := ((forest_edited acyclic).rectOf?_iff_laid (declared_of_isPanel panel) done
        p outer).mpr laid
      exact all (p, outer) ((OrderedMap.mem_entries_iff ..).mpr placed) grid found
  obtain ⟨pass, same, contained⟩ := gridded_tree_stays_inside tree
  rw [done] at same
  cases same
  exact ⟨tree, done, contained⟩

end FormulaLayout.Hierarchy
