import FormulaLayout.Grid.Basic
import FormulaLayout.Environment
import FormulaLayout.Geometry.Pixel

/-! Rectangles of cells. On each axis a frame is taken off both ends of the parent, and the cells
share what is left by running sums of weights, so that a cell ends where the next one starts, less
the margin. Frame and margin are formulas over the parent's whole size. The table of the sums is
taken to fit in memory, however far out the cells lie. -/
namespace FormulaLayout
open Number

/-- A number divided by itself is one, zero by zero too. -/
def identityDiv (a b : Float) : Float := if a == b then 1 else a / b

/-- The same on whole numbers, which are compared before they become floats. -/
def wholeIdentityDiv (a b : Int) : Float :=
  if a = b then 1 else ofWhole a / ofWhole b

/-- The first weight is taken as it is and not added to zero, so its sign survives. -/
def prefixSum (weights : Nat → Float) : Nat → Float
  | 0 => 0
  | count + 1 => (List.range count).foldl (fun sum k => sum + weights (k + 1)) (weights 0)

theorem prefixSum_one (weights : Nat → Float) : prefixSum weights 1 = weights 0 := rfl

theorem prefixSum_succ_succ (weights : Nat → Float) (count : Nat) :
    prefixSum weights (count + 2) = prefixSum weights (count + 1) + weights (count + 1) := by
  simp [prefixSum, List.range_succ]

namespace Grid
variable {α : Type}

def weightSum (grid : Grid α) (axis : Axis) : Nat → Float :=
  prefixSum fun index => grid.weight axis index

def edge (grid : Grid α) (axis : Axis) (extent margin : Int) (index : Nat) : Int :=
  let count := grid.bounds.get axis
  truncatePixel (ofWhole extent * grid.weightSum axis index / grid.weightSum axis count *
    wholeIdentityDiv (margin * index) (margin * ((count : Int) - 1)))

def span (grid : Grid α) (axis : Axis) (index : Nat) (origin extent margin : Int) : Int × Int :=
  let start := origin + grid.edge axis extent margin index
  let stop := origin + grid.edge axis extent margin (index + 1)
  (start, stop - start - margin)

/-- The whole numbers that become floats for the edge at an index. -/
def edgeNumbers (grid : Grid α) (axis : Axis) (extent margin : Int) (index : Nat) : List Int :=
  let part := margin * index
  let whole := margin * ((grid.bounds.get axis : Int) - 1)
  if part = whole then [extent] else [extent, part, whole]

def Spannable (grid : Grid α) (axis : Axis) (index : Nat) (extent margin : Int) : Prop :=
  ∀ n ∈ grid.edgeNumbers axis extent margin index ++
    grid.edgeNumbers axis extent margin (index + 1), HoldsWhole n

instance (grid : Grid α) (axis : Axis) (index : Nat) (extent margin : Int) :
    Decidable (grid.Spannable axis index extent margin) :=
  inferInstanceAs (Decidable (∀ _ ∈ _, _))

def measure (setting : Option Formula) (env : Environment) : Except Undefined Int :=
  match setting with
  | none => .ok 0
  | some formula => (formula.evaluate env.bindings).map truncatePixel

/-- A frame wider than the parent leaves nothing, at the parent's own origin. -/
def content (origin extent frame : Int) : Int × Int :=
  let rest := extent - frame * 2
  if rest < 0 then (origin, 0) else (origin + frame, rest)

def effectiveMargin (margin extent : Int) : Int := if margin < 0 ∨ extent < 1 then 0 else margin

def resolveAxis (grid : Grid α) (env : Environment) (parent : PixelRect) (cell : Cell)
    (axis : Axis) : Except Undefined (Int × Int) := do
  let frame ← measure (grid.frame.get axis) env
  let (origin, extent) := content (parent.origin.get axis) (parent.extent.get axis) frame
  let margin ← measure (grid.margin.get axis) env
  let margin := effectiveMargin margin extent
  if grid.Spannable axis (cell.index axis) extent margin then
    return grid.span axis (cell.index axis) origin extent margin
  else throw .tooLarge

def resolve (grid : Grid α) (cell : Cell) (parent : PixelRect) : Except Undefined PixelRect :=
  if grid.contains cell then do
    let env ← Environment.forPixels parent.width parent.height
    let x ← grid.resolveAxis env parent cell .x
    let y ← grid.resolveAxis env parent cell .y
    return .ofSpans ⟨x, y⟩
  else .ok .zero

def resolveAll (grid : Grid α) (parent : PixelRect) :
    Except Undefined (List (Cell × PixelRect)) :=
  grid.cells.keys.mapM fun cell => do return (cell, ← grid.resolve cell parent)

theorem resolve_of_not_contains {grid : Grid α} {cell : Cell} (h : grid.contains cell = false)
    (parent : PixelRect) : grid.resolve cell parent = .ok .zero := by
  simp [resolve, h]

theorem span_next (grid : Grid α) (axis : Axis) (index : Nat) (origin extent margin : Int) :
    (grid.span axis (index + 1) origin extent margin).1 =
      (grid.span axis index origin extent margin).1 +
        (grid.span axis index origin extent margin).2 + margin := by
  simp only [span]
  omega

end Grid
end FormulaLayout
