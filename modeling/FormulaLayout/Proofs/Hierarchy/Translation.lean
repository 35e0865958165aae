import FormulaLayout.Proofs.Hierarchy.Containment
import FormulaLayout.Proofs.Hierarchy.Image

/-! The same tree on a canvas moved elsewhere. In a grid the origin of the parent is added to edges
that are computed without it, and frames and margins are measured from sizes alone. So a cell moves
along with its parent, whatever shapes the grid, and a tree in which everything visible sits in a
cell moves along with its canvas. -/
namespace FormulaLayout
open Number

def PixelRect.move (shift : PerAxis Int) (rect : PixelRect) : PixelRect :=
  ⟨rect.x + shift.x, rect.y + shift.y, rect.width, rect.height⟩

theorem PixelRect.origin_move (shift : PerAxis Int) (rect : PixelRect) (axis : Axis) :
    (rect.move shift).origin.get axis = rect.origin.get axis + shift.get axis := by
  cases axis <;> rfl

namespace Grid
variable {α : Type}

theorem content_add (origin extent frame offset : Int) :
    content (origin + offset) extent frame =
      ((content origin extent frame).1 + offset, (content origin extent frame).2) := by
  simp only [content]
  split
  · rfl
  · rw [Int.add_right_comm]

def Strip.move (offset : Int) (strip : Strip) : Strip :=
  { strip with origin := strip.origin + offset }

theorem strip_move (grid : Grid α) (shift : PerAxis Int) (parent : PixelRect) (axis : Axis) :
    grid.strip (parent.move shift) axis =
      (grid.strip parent axis).map (Strip.move (shift.get axis)) := by
  have sizes : (parent.move shift).extent = parent.extent := rfl
  have names : Environment.forContainer (ofWhole (parent.move shift).width)
      (ofWhole (parent.move shift).height) =
        .forContainer (ofWhole parent.width) (ofWhole parent.height) := rfl
  simp only [strip, bind, Except.bind, sizes, names, PixelRect.origin_move, content_add]
  cases measure (grid.frame.get axis)
      (.forContainer (ofWhole parent.width) (ofWhole parent.height)) with
  | error reason => rfl
  | ok frame =>
    cases measure (grid.margin.get axis)
      (.forContainer (ofWhole parent.width) (ofWhole parent.height)) <;> rfl

theorem spanIn_move (grid : Grid α) (axis : Axis) (offset : Int) (strip : Strip) (index : Nat) :
    grid.spanIn axis (strip.move offset) index =
      ((grid.spanIn axis strip index).1 + offset, (grid.spanIn axis strip index).2) := by
  simp only [spanIn, span, Strip.move, Prod.mk.injEq]
  omega

theorem cut_move (grid : Grid α) (axis : Axis) (index : Nat) (offset : Int) (strip : Strip) :
    grid.cut axis index (strip.move offset) =
      (grid.cut axis index strip).map fun span => (span.1 + offset, span.2) := by
  have same : grid.Spannable axis index (strip.move offset).extent (strip.move offset).gap ↔
      grid.Spannable axis index strip.extent strip.gap := Iff.rfl
  simp only [cut, same, spanIn_move]
  split <;> rfl

theorem strip_bind_cut_move (grid : Grid α) (shift : PerAxis Int) (parent : PixelRect)
    (axis : Axis) (index : Nat) :
    grid.strip (parent.move shift) axis >>= grid.cut axis index =
      (grid.strip parent axis >>= grid.cut axis index).map
        fun span => (span.1 + shift.get axis, span.2) := by
  rw [strip_move]
  cases grid.strip parent axis with
  | error reason => rfl
  | ok strip => exact grid.cut_move axis index (shift.get axis) strip

theorem resolve_move {grid : Grid α} {cell : Cell} (occupied : grid.contains cell = true)
    (shift : PerAxis Int) (parent : PixelRect) :
    grid.resolve cell (parent.move shift) =
      (grid.resolve cell parent).map (PixelRect.move shift) := by
  have sizes : (parent.move shift).extent = parent.extent := rfl
  by_cases sides : ∀ axis, HoldsWhole (parent.extent.get axis)
  · rw [resolve_eq occupied sides, resolve_eq occupied (sizes ▸ sides), strip_bind_cut_move,
      strip_bind_cut_move]
    cases grid.strip parent .x >>= grid.cut .x (cell.index .x) with
    | error reason => rfl
    | ok x => cases grid.strip parent .y >>= grid.cut .y (cell.index .y) <;> rfl
  · obtain ⟨reason, failed, -⟩ := Environment.forPixels_beyond sides
    have failed' : Environment.forPixels (parent.move shift).width (parent.move shift).height =
        .error reason := failed
    rw [resolve, if_pos occupied, failed', resolve, if_pos occupied, failed]
    rfl

end Grid

def LayoutPass.move (shift : PerAxis Int) (pass : LayoutPass) : LayoutPass :=
  { pass with rects := pass.rects.mapValues (PixelRect.move shift) }

namespace Hierarchy
open Relation

/-- Where the parent's rectangle goes, the component's goes as well. -/
def Follows (h : Hierarchy) (c : Handle) : Prop :=
  ∀ shift outer, h.resolve c (outer.move shift) = (h.resolve c outer).map (PixelRect.move shift)

def Finding.move (shift : PerAxis Int) (finding : Finding) : Finding :=
  (finding.1, finding.2.map (PixelRect.move shift))

section Walks
variable {h : Hierarchy}

theorem Follows.image {c : Handle} (follows : h.Follows c) (shift : PerAxis Int)
    (outer : PixelRect) :
    Image (PixelRect.move shift) Eq (h.resolve c outer) (h.resolve c (outer.move shift)) := by
  rw [follows shift outer]
  cases h.resolve c outer with
  | ok rect => exact .ok rect
  | error reason => exact .error rfl

theorem Finding.Image.eq_move {shift : PerAxis Int} {finding finding' : Finding}
    (image : Finding.Image (PixelRect.move shift) Eq finding finding') :
    finding.move shift = finding' := by
  obtain ⟨c, outcome⟩ := finding
  obtain ⟨c', outcome'⟩ := finding'
  obtain ⟨rfl, same⟩ := image
  cases same with
  | ok rect => rfl
  | error same => exact same ▸ rfl

theorem Walks.move {siblings : List Handle} {outer : PixelRect} {found : List Finding}
    (walks : h.Walks siblings outer found)
    (follow : ∀ c ∈ siblings, h.Visible c → ∀ d, ReflTransGen h.Shows c d → h.Follows d)
    (shift : PerAxis Int) :
    h.Walks siblings (outer.move shift) (found.map (Finding.move shift)) := by
  obtain ⟨found', moved, images⟩ := walks.exists_image (fun _ => rfl) (fun _ => Iff.rfl)
    fun c listed visible d down => (follow c listed visible d down).image shift
  have same : found.map (Finding.move shift) = found' := by
    rw [← List.forall₂_eq_eq_eq, List.forall₂_map_left_iff]
    exact images.imp fun _ _ => Finding.Image.eq_move
  exact same ▸ moved

theorem heed_move (strict : Bool) (shift : PerAxis Int) (pass : LayoutPass) (finding : Finding) :
    h.heed strict (pass.move shift) (finding.move shift) =
      (h.heed strict pass finding).map (LayoutPass.move shift) := by
  obtain ⟨c, reason | rect⟩ := finding
  · simp only [heed, Finding.move, Except.map]
    split <;> rfl
  · simp only [heed, note, Finding.move, LayoutPass.move, Except.map,
      OrderedMap.mapValues_insert]

theorem foldlM_heed_move (strict : Bool) (shift : PerAxis Int) (found : List Finding)
    (pass : LayoutPass) :
    (found.map (Finding.move shift)).foldlM (h.heed strict) (pass.move shift) =
      (found.foldlM (h.heed strict) pass).map (LayoutPass.move shift) := by
  induction found generalizing pass with
  | nil => rfl
  | cons finding found ih =>
    rw [List.map_cons, List.foldlM_cons, List.foldlM_cons, heed_move]
    cases h.heed strict pass finding with
    | error interruption => rfl
    | ok next => exact ih next

end Walks

/-- A tree of panels in which nothing that can be seen is placed freely. -/
structure GriddedTree (h : Hierarchy) (root : Handle) : Prop where
  acyclic : h.Acyclic
  panel : h.IsPanel root
  gridded : ∀ c, TransGen h.Shows root c → (h.cell? c).isSome = true

theorem Laid.shows {h : Hierarchy} {place inner : Handle × PixelRect} (laid : h.Laid place inner) :
    ReflTransGen h.Shows place.1 inner.1 :=
  laid.lift Prod.fst fun _ _ step => ⟨step.1, step.2.1⟩

theorem GriddedTree.follows {edits : List Edit} {root : Handle}
    (tree : (edited edits).GriddedTree root) {c : Handle}
    (shown : TransGen (edited edits).Shows root c) : (edited edits).Follows c := by
  intro shift outer
  obtain ⟨p, -, child, -⟩ := TransGen.tail'_iff.mp shown
  obtain ⟨cell, seat⟩ := Option.isSome_iff_exists.mp (tree.gridded c shown)
  obtain ⟨grid, -, occupied, same⟩ := (consistent_edited edits).resolve_gridded child seat
  rw [same, same, Grid.resolve_move occupied]

theorem GriddedTree.passable {edits : List Edit} {root : Handle}
    (tree : (edited edits).GriddedTree root) {canvas : PixelRect}
    (extents : ∀ axis, |canvas.extent.get axis| ≤ 2 ^ 200) (small : (edited edits).SmallGrids) :
    (edited edits).Passable root canvas := by
  have shallow := tree.acyclic.shallow (declared_of_isPanel tree.panel)
  have reaches : canvas.Reaches (max |canvas.x| |canvas.y|) (2 ^ 200) := by
    intro axis
    refine ⟨?_, extents axis⟩
    cases axis with
    | x => exact le_max_left ..
    | y => exact le_max_right ..
  rintro place laid ⟨c, outcome⟩ ⟨child, visible, resolved⟩
  obtain rfl : (edited edits).resolve c place.2 = outcome := resolved
  obtain ⟨-, reached, -, -, around⟩ := reaches_of_laid shallow reaches (by norm_num) laid
  have shown : TransGen (edited edits).Shows root c := TransGen.tail' laid.shows ⟨child, visible⟩
  exact (written_edited edits).caught small around (.inl (tree.gridded c shown))

/-- Strict or not, a pass over a gridded tree on a moved canvas is the moved pass: the same
components in the same order, the same failures for the same reasons, and rectangles that have
moved as far as the canvas. -/
theorem gridded_tree_moves_along {edits : List Edit} {root : Handle}
    (tree : (edited edits).GriddedTree root) (canvas : PixelRect) (shift : PerAxis Int) :
    ((∀ axis, |canvas.extent.get axis| ≤ 2 ^ 200) → (edited edits).SmallGrids →
      ∃ pass, (edited edits).layout root canvas false = .ok pass) ∧
      ∀ strict, (edited edits).layout root (canvas.move shift) strict =
        ((edited edits).layout root canvas strict).map (LayoutPass.move shift) := by
  have declared := declared_of_isPanel tree.panel
  have shallow := tree.acyclic.shallow declared
  obtain ⟨found, walks⟩ := tree.acyclic.exists_walks ((edited edits).children root) canvas
  have moved := walks.move
    (fun c child visible d down => tree.follows (.head' ⟨child, visible⟩ down)) shift
  refine ⟨fun extents small => ?_, fun strict => ?_⟩
  · exact (tree.acyclic.exists_pass_iff declared canvas).mpr (tree.passable extents small)
  · calc
      (edited edits).layout root (canvas.move shift) strict =
          (found.map (Finding.move shift)).foldlM ((edited edits).heed strict)
            (LayoutPass.start root (canvas.move shift)) := moved.layoutChildren strict shallow _
      _ = (found.foldlM ((edited edits).heed strict) (.start root canvas)).map
            (LayoutPass.move shift) := foldlM_heed_move strict shift found (.start root canvas)
      _ = ((edited edits).layout root canvas strict).map (LayoutPass.move shift) := by
        rw [layout, walks.layoutChildren strict shallow]

/-- Panels with a weight below zero, with frames of which one leaves nothing and one reaches
outward, with a margin that has no value, and with a hidden component that is placed freely. -/
def skewedPanels : List Edit :=
  [.perform (.declare .panel "root" (.cell ⟨0, 0⟩) none),
    .perform (.declare .panel "inner" (.cell ⟨1, 0⟩) (some 0)),
    .perform (.declare .component "leaf" (.cell ⟨0, 2⟩) (some 1)),
    .perform (.declare .panel "broken" (.cell ⟨0, 1⟩) (some 0)),
    .perform (.declare .component "lost" (.cell ⟨0, 0⟩) (some 3)),
    .perform (.declare .component "hidden" (.free ⟨"centerx", "0", "1", "1"⟩) (some 0)),
    .perform (.setVisible 5 false),
    .configure 0 (.setFrame (some "7") (some "height")) rfl,
    .configure 0 (.setWeight .x 1 (-0.7)) rfl, .configure 1 (.setFrame (some "0-3") none) rfl,
    .configure 3 (.setMargin (some "WIDTH") none) rfl]

def skewedPass : LayoutPass :=
  ⟨.ofList [(0, ⟨5, 6, 300, 200⟩), (1, ⟨965, 6, -667, 0⟩), (2, ⟨965, 6, 0, 0⟩),
      (3, ⟨12, 6, 953, 0⟩)],
    .ofList [(4, .unbound "WIDTH")],
    [.unresolved "Component('lost', cell=(0, 0))" (.unbound "WIDTH")]⟩

theorem skewedPanels_move_along :
    (edited skewedPanels).GriddedTree 0 ∧
      (edited skewedPanels).layout 0 ⟨5, 6, 300, 200⟩ false = .ok skewedPass ∧
      (edited skewedPanels).layout 0 ⟨-35, 1006, 300, 200⟩ false =
        .ok (skewedPass.move ⟨-40, 1000⟩) := by
  have seated : ∀ c < (edited skewedPanels).components.length, (edited skewedPanels).Visible c →
      ((edited skewedPanels).cell? c).isSome = true := by decide +kernel
  have tree : (edited skewedPanels).GriddedTree 0 := by
    refine ⟨acyclic_of_lt (by decide +kernel), by decide +kernel, fun c shown => ?_⟩
    obtain ⟨p, -, -, visible⟩ := TransGen.tail'_iff.mp shown
    exact seated c (declared_iff_lt.mp (declared_of_visible visible)) visible
  have done : (edited skewedPanels).layout 0 ⟨5, 6, 300, 200⟩ false = .ok skewedPass := by
    decide +kernel
  have moved := (gridded_tree_moves_along tree ⟨5, 6, 300, 200⟩ ⟨-40, 1000⟩).2 false
  rw [done] at moved
  exact ⟨tree, done, moved⟩

end Hierarchy
end FormulaLayout
