import FormulaLayout.Formula.Record
import FormulaLayout.Placement.Dimension

/-! Free placements: four formulas for position and size. Sizes are evaluated first and see the
names of the container only. Positions also see those of the component itself, except on the axis
of a continuation. -/
namespace FormulaLayout
open Number

structure FreePlacement where
  position : PerAxis Formula
  size : PerAxis Dimension
deriving DecidableEq

structure PlacementText where
  x : Option String
  y : Option String
  width : Option String
  height : Option String
deriving DecidableEq, Repr

def PlacementText.filling : PlacementText := ⟨some "0", some "0", some "?width", some "?height"⟩

namespace FreePlacement

def parse (text : PlacementText) : Except Fault FreePlacement := do
  let x ← Formula.parse text.x []
  let y ← Formula.parse text.y []
  let width ← Dimension.parse text.width
  let height ← Dimension.parse text.height
  return ⟨⟨x, y⟩, ⟨width, height⟩⟩

def parseRecords (text : PlacementText) : List Record :=
  Formula.parseRecordsOfAll
    [text.x, text.y, (Dimension.split text.width).2, (Dimension.split text.height).2]

def start (formula : Formula) (env : Environment) (origin : Int) : Except Undefined Int := do
  let offset ← formula.evaluate env.bindings
  return roundPixel ((← toFloat origin) + offset)

def resolve (placement : FreePlacement) (canvas : PixelRect) : Except Undefined PixelRect := do
  let size := placement.size
  let env ← Environment.forPixels canvas.width canvas.height
  let width ← size.x.formula.evaluate env.bindings
  let height ← size.y.formula.evaluate env.bindings
  let width ← size.x.extent width canvas.x
  let height ← size.y.extent height canvas.y
  let env := env.withComponent (size.x.known width) (size.y.known height)
  let x ← start placement.position.x env canvas.x
  let y ← start placement.position.y env canvas.y
  return ⟨x, y, size.x.length width x, size.y.length height y⟩

end FreePlacement
end FormulaLayout
