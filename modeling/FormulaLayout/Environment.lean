import FormulaLayout.Formula.Evaluate
import FormulaLayout.Number.Whole
import FormulaLayout.OrderedMap

/-! Names with values. A container binds its size, its centre and the two constants. A component of
known size adds the offset that centres it and its size, axis by axis; an axis left open keeps its
names unbound. Names stay in the order in which they were first added. -/
namespace FormulaLayout
open Number

structure Environment where
  width : Float
  height : Float
  values : OrderedMap String Float
deriving DecidableEq

namespace Environment

def forContainer (width height : Float) : Environment :=
  ⟨width, height, .ofList (constants ++
    [("centerx", width / 2), ("centery", height / 2), ("width", width), ("height", height)])⟩

/-- The container of a whole number of pixels. Its halves are divided before the sides become
floats, and reach twice as far. -/
def forPixels (width height : Int) : Except Undefined Environment :=
  if 2 * wholeLimit ≤ max width.natAbs height.natAbs then .error .halfTooLarge
  else do return forContainer (← toFloat width) (← toFloat height)

private def bindAxis (container : Float) (centre extent : String) (size : Option Float)
    (values : OrderedMap String Float) : OrderedMap String Float :=
  match size with
  | none => values
  | some size => (values.insert centre ((container - size) / 2)).insert extent size

def withComponent (env : Environment) (width height : Option Float) : Environment :=
  { env with
    values := bindAxis env.height "CENTERY" "HEIGHT" height
      (bindAxis env.width "CENTERX" "WIDTH" width env.values) }

def bindings (env : Environment) : Bindings := env.values.get?

def render (env : Environment) : String :=
  let shown := ", ".intercalate <|
    env.values.entries.map fun (name, value) => s!"{name}={Number.general value}"
  s!"VariableEnvironment({shown})"

private theorem get?_bindAxis (container : Float) {centre extent name : String}
    (notCentre : name ≠ centre) (notExtent : name ≠ extent) (size : Option Float)
    (values : OrderedMap String Float) :
    (bindAxis container centre extent size values).get? name = values.get? name := by
  cases size with
  | none => rfl
  | some size =>
    simp only [bindAxis, OrderedMap.get?_insert, notCentre.symm, notExtent.symm, if_false]

theorem bindings_withComponent (env : Environment) (width height : Option Float) {name : String}
    (other : name ∉ ["CENTERX", "WIDTH", "CENTERY", "HEIGHT"]) :
    (env.withComponent width height).bindings name = env.bindings name := by
  simp only [List.mem_cons, List.not_mem_nil, or_false, not_or] at other
  obtain ⟨notCenterX, notWidth, notCenterY, notHeight⟩ := other
  simp only [bindings, withComponent]
  rw [get?_bindAxis _ notCenterY notHeight, get?_bindAxis _ notCenterX notWidth]

theorem keys_forContainer (width height : Float) :
    (forContainer width height).values.keys =
      ["pi", "e", "centerx", "centery", "width", "height"] := rfl

end Environment
end FormulaLayout
