import FormulaLayout.Hierarchy.Declare
import FormulaLayout.Proofs.Grid.Bounds

/-! Hierarchies as they come about: components are declared, get another parent, or none, and are
shown and hidden. All that happens to the grids of their panels on the way are placements and
removals that shrink, so each of these grids is a grid that such a run of its own would have
made. -/
namespace FormulaLayout.Hierarchy

inductive Operation where
  | declare (kind : Kind) (name : String) (seat : SeatText) (parent : Option Handle)
  | setParent (c : Handle) (p : Option Handle)
  | setVisible (c : Handle) (visible : Bool)

/-- A declaration at fault leaves no component behind. -/
def Operation.apply (h : Hierarchy) : Operation → Hierarchy
  | .declare kind name seat parent => (h.declare kind name seat parent).toOption.getD h
  | .setParent c p => h.setParent c p
  | .setVisible c visible => h.setVisible c visible

def run (operations : List Operation) : Hierarchy := operations.foldl Operation.apply .empty

theorem grid?_modify (h : Hierarchy) (c p : Handle) (change : Component → Component)
    (same : ∀ component, (change component).contents = component.contents) :
    (h.modify c change).grid? p = h.grid? p := by
  unfold grid? contents?
  rw [get?_modify]
  split
  · cases h.get? p with
    | none => rfl
    | some component => simp [same]
  · rfl

theorem contents?_modifyContents (h : Hierarchy) (q p : Handle) (change : Contents → Contents) :
    (h.modifyContents q change).contents? p =
      if q = p then (h.contents? p).map change else h.contents? p := by
  unfold contents? modifyContents
  rw [get?_modify]
  split
  · cases h.get? p <;> rfl
  · rfl

structure Lasting (P : Grid Tenant → Prop) : Prop where
  place : ∀ {grid} cell occupant, P grid → P (grid.place cell occupant)
  remove : ∀ {grid} cell, P grid → P (grid.remove cell true).1

def EveryGrid (P : Grid Tenant → Prop) (h : Hierarchy) : Prop :=
  ∀ p grid, h.grid? p = some grid → P grid

namespace EveryGrid
variable {P : Grid Tenant → Prop} {h : Hierarchy}

theorem modify (every : EveryGrid P h) (c : Handle) (change : Component → Component)
    (same : ∀ component, (change component).contents = component.contents) :
    EveryGrid P (h.modify c change) := by
  intro p grid found
  rw [grid?_modify h c p change same] at found
  exact every p grid found

theorem modifyContents (every : EveryGrid P h) (q : Handle) (change : Contents → Contents)
    (kept : ∀ contents, h.contents? q = some contents → P contents.grid →
      P (change contents).grid) : EveryGrid P (h.modifyContents q change) := by
  intro p grid found
  unfold grid? at found
  rw [contents?_modifyContents] at found
  split at found
  · next same =>
    subst same
    cases here : h.contents? q with
    | none => simp [here] at found
    | some contents =>
      have before : P contents.grid := every q contents.grid (by simp [grid?, here])
      obtain rfl : (change contents).grid = grid := by simpa [here] using found
      exact kept contents here before
  · exact every p grid found

theorem orphan (every : EveryGrid P h) (p c : Handle) : EveryGrid P (h.orphan p c) := by
  refine every.modify c _ fun child => ?_
  split <;> rfl

theorem addToGrid (lasting : Lasting P) (every : EveryGrid P h) (p c : Handle) (cell : Cell) :
    EveryGrid P (h.addToGrid p c cell) := by
  unfold Hierarchy.addToGrid
  split
  · have placed := every.modifyContents p (fun contents =>
      { contents with grid := contents.grid.place cell (.child (.component c)) })
      fun contents _ before => lasting.place cell _ before
    exact placed.modify c ({ · with seat := .cell cell, parent := some p }) fun _ => rfl
  · exact every

theorem addFree (every : EveryGrid P h) (p c : Handle) : EveryGrid P (h.addFree p c) := by
  unfold Hierarchy.addFree
  split
  · have listed : EveryGrid P (h.modifyContents p (·.addFree c)) := by
      refine every.modifyContents p _ fun contents _ before => ?_
      unfold Contents.addFree
      split <;> exact before
    exact listed.modify c ({ · with parent := some p }) fun _ => rfl
  · exact every

theorem removeFromGrid (lasting : Lasting P) (every : EveryGrid P h) (p : Handle) (cell : Cell) :
    EveryGrid P (h.removeFromGrid p cell true).1 := by
  unfold Hierarchy.removeFromGrid
  cases found : h.grid? p with
  | none => exact every
  | some grid =>
    have left : EveryGrid P (h.modifyGrid p fun _ => (grid.remove cell true).1) :=
      every.modifyContents p _ fun _ _ _ => lasting.remove cell (every p grid found)
    dsimp only
    split
    · exact left.orphan p _
    · exact left

theorem removeFree (every : EveryGrid P h) (p c : Handle) :
    EveryGrid P (h.removeFree p c).1 := by
  unfold Hierarchy.removeFree
  split
  · exact every
  · split
    · have left := every.modifyContents p
        (fun contents => { contents with free := contents.free.erase c }) fun _ _ before => before
      exact left.orphan p c
    · exact every

theorem leave (lasting : Lasting P) (every : EveryGrid P h) (c : Handle) :
    EveryGrid P (h.leave c) := by
  unfold Hierarchy.leave
  split
  · exact every
  · split
    · split
      · exact every.removeFromGrid lasting _ _
      · exact every
    · exact every.removeFree _ c

theorem setParent (lasting : Lasting P) (every : EveryGrid P h) (c : Handle) (p : Option Handle) :
    EveryGrid P (h.setParent c p) := by
  have detached : EveryGrid P (h.detach c) :=
    (every.leave lasting c).modify c ({ · with parent := none }) fun _ => rfl
  unfold Hierarchy.setParent
  cases p with
  | none => exact detached
  | some p =>
    dsimp only
    unfold Hierarchy.enter
    split
    · exact detached.addToGrid lasting p c _
    · exact detached.addFree p c

theorem declare (lasting : Lasting P) (empty : P .empty) (every : EveryGrid P h) {kind : Kind}
    {name : String} {seat : SeatText} {parent : Option Handle} {declared : Hierarchy}
    (made : h.declare kind name seat parent = .ok declared) : EveryGrid P declared := by
  unfold Hierarchy.declare at made
  cases parsed : seat.parse with
  | error fault => simp [parsed, bind, Except.bind] at made
  | ok place =>
    simp only [parsed, bind, Except.bind] at made
    have added : EveryGrid P ⟨h.components ++
        [⟨if name = "" then kind.name else name, true, place, none, kind.contents⟩]⟩ := by
      intro p grid found
      simp only [grid?, contents?, get?, List.getElem?_append] at found
      split at found
      · exact every p grid found
      · rw [List.getElem?_singleton] at found
        split at found
        · cases kind with
          | component => cases found
          | panel =>
            cases found
            exact empty
        · cases found
    cases parent with
    | none =>
      cases made
      exact added
    | some p =>
      cases made
      exact added.setParent lasting _ _

theorem apply (lasting : Lasting P) (empty : P .empty) (every : EveryGrid P h)
    (operation : Operation) : EveryGrid P (operation.apply h) := by
  cases operation with
  | declare kind name seat parent =>
    simp only [Operation.apply]
    cases made : h.declare kind name seat parent with
    | error fault => exact every
    | ok declared => exact every.declare lasting empty made
  | setParent c p => exact every.setParent lasting c p
  | setVisible c visible => exact every.modify c ({ · with visible }) fun _ => rfl

theorem foldl (lasting : Lasting P) (empty : P .empty) (every : EveryGrid P h)
    (operations : List Operation) : EveryGrid P (operations.foldl Operation.apply h) := by
  induction operations generalizing h with
  | nil => exact every
  | cons operation rest ih => exact ih (every.apply lasting empty operation)

end EveryGrid

theorem everyGrid_run {P : Grid Tenant → Prop} (lasting : Lasting P) (empty : P .empty)
    (operations : List Operation) : EveryGrid P (run operations) := by
  refine EveryGrid.foldl lasting empty (fun p grid found => ?_) operations
  simp [grid?, contents?, get?, Hierarchy.empty] at found

/-- The grid comes out of a run of its own in which every removal shrinks. -/
def Shrinking (grid : Grid Tenant) : Prop :=
  ∃ operations : List (Grid.Operation Tenant),
    (∀ operation ∈ operations, operation.shrinks = true) ∧ Grid.run operations = grid

theorem Shrinking.apply {grid : Grid Tenant} (h : Shrinking grid)
    {operation : Grid.Operation Tenant} (shrinks : operation.shrinks = true) :
    Shrinking (operation.apply grid) := by
  obtain ⟨operations, all, rfl⟩ := h
  refine ⟨operations ++ [operation], ?_, Grid.run_append operations [operation]⟩
  intro next listed
  rcases List.mem_append.mp listed with before | last
  · exact all next before
  · rwa [List.mem_singleton.mp last]

theorem lasting_shrinking : Lasting Shrinking where
  place cell occupant h := by
    cases occupant with
    | reserved =>
      have reserved : (Grid.Operation.reserve cell : Grid.Operation Tenant).shrinks = true := rfl
      exact h.apply reserved
    | child value =>
      have placed : (Grid.Operation.place cell value).shrinks = true := rfl
      exact h.apply placed
  remove cell h := by
    have removed : (Grid.Operation.remove cell true : Grid.Operation Tenant).shrinks = true := rfl
    exact h.apply removed

theorem shrinking_run (operations : List Operation) : EveryGrid Shrinking (run operations) :=
  everyGrid_run lasting_shrinking ⟨[], by simp, rfl⟩ operations

/-- Bounds are tight after every operation, as long as all removals shrink. The grids of panels
come about in this way, whatever is declared and moved. -/
theorem bounds_fit_contents {α : Type} {operations : List (Grid.Operation α)}
    (shrinking : ∀ operation ∈ operations, operation.shrinks = true) :
    (∀ done, done <+: operations →
      (Grid.run done).bounds = Grid.reach (Grid.run done).occupied) ∧
      ∀ (moves : List Operation) (p : Handle) (grid : Grid Tenant),
        (run moves).grid? p = some grid →
          Shrinking grid ∧ grid.bounds = Grid.reach grid.occupied := by
  constructor
  · intro done initial
    exact Grid.tight_run fun operation listed => shrinking operation (initial.subset listed)
  · intro moves p grid found
    have shrinks := shrinking_run moves p grid found
    refine ⟨shrinks, ?_⟩
    obtain ⟨operations', all, rfl⟩ := shrinks
    exact Grid.tight_run all

def clearedGrid : List (Grid.Operation Unit) :=
  [.place ⟨0, 0⟩ (), .place ⟨2, 0⟩ (), .reserve ⟨0, 2⟩, .place ⟨1, 1⟩ (), .remove ⟨1, 1⟩ true,
    .remove ⟨2, 0⟩ true]

def leftPanel : List Operation :=
  [.declare .panel "root" (.cell ⟨0, 0⟩) none, .declare .component "far" (.cell ⟨3, 1⟩) (some 0),
    .declare .component "near" (.cell ⟨1, 2⟩) (some 0), .setParent 1 none]

theorem clearedGrid_and_leftPanel_bounds :
    (Grid.run (clearedGrid.take 5)).bounds = ⟨3, 3⟩ ∧ (Grid.run clearedGrid).bounds = ⟨1, 3⟩ ∧
      ((run leftPanel).grid? 0).map (·.bounds) = some ⟨2, 3⟩ := by
  obtain ⟨fits, panels⟩ :=
    bounds_fit_contents (show ∀ operation ∈ clearedGrid, operation.shrinks = true by decide)
  refine ⟨?_, ?_, ?_⟩
  · rw [fits _ (List.take_prefix 5 clearedGrid)]
    decide
  · rw [fits _ List.prefix_rfl]
    decide
  · cases found : (run leftPanel).grid? 0 with
    | none => exact absurd found (by decide)
    | some grid =>
      rw [Option.map_some, (panels leftPanel 0 grid found).2]
      cases found
      decide

end FormulaLayout.Hierarchy
