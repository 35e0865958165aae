import FormulaLayout.Environment
import FormulaLayout.Formula.Parse
import FormulaLayout.Geometry.Pixel

/-! Widths and heights. A size behind a question mark is a continuation: its value is measured from
the container's origin to the far edge, and its length is what lies between the rounded edges, so
the next component can start exactly where this one ends. -/
namespace FormulaLayout
open Number Text

structure Dimension where
  formula : Formula
  continuation : Bool
deriving DecidableEq

namespace Dimension

/-- Whether the text is a continuation, and the formula in it. No text is an empty one. -/
def split (text : Option String) : Bool × String :=
  match trim (text.getD "").toList with
  | '?' :: rest => (true, String.ofList rest)
  | trimmed => (false, String.ofList trimmed)

def parse (text : Option String) : Except Fault Dimension := do
  let (continuation, text) := split text
  return ⟨← Formula.parse (some text) [], continuation⟩

theorem split_continuation (text : String) :
    ∃ rest, split (some ("?" ++ text)) = (true, rest) ∧
      squeeze rest.toList = squeeze text.toList := by
  have mark : isBlank '?' = false := by decide
  refine ⟨String.ofList (trimLeft text.toList.reverse).reverse, by simp [split, trim_cons mark], ?_⟩
  rw [String.toList_ofList, squeeze_reverse, squeeze_trimLeft, squeeze_reverse,
    List.reverse_reverse]

theorem parse_continuation (text : String) :
    parse (some ("?" ++ text)) =
      (Formula.parse (some text) []).map fun formula => ⟨formula, true⟩ := by
  obtain ⟨rest, marked, same⟩ := split_continuation text
  simp only [parse, marked, Formula.parse_congr [] same]
  cases Formula.parse (some text) [] <;> rfl

def extent (dimension : Dimension) (value : Float) (origin : Int) : Except Undefined Float :=
  if dimension.continuation then do return value + (← toFloat origin) else .ok value

def known (dimension : Dimension) (extent : Float) : Option Float :=
  if dimension.continuation then none else some extent

def length (dimension : Dimension) (extent : Float) (start : Int) : Int :=
  if dimension.continuation then roundPixel extent - start else roundPixel extent

theorem add_length_of_continuation {dimension : Dimension} (h : dimension.continuation = true)
    (extent : Float) (start : Int) :
    start + dimension.length extent start = roundPixel extent := by
  simp only [length, h, if_true]
  omega

end Dimension
end FormulaLayout
