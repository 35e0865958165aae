import FormulaLayout.Number.Binary
import FormulaLayout.Geometry.Axis

/-! Pixels. Coordinates of resolved rectangles come from floats, either cut toward zero or rounded
half up, and are held within 32 bits; what is not a number becomes zero. Sums of pixels are plain
integers and are not held back. -/
namespace FormulaLayout
open Number Float.Model

def pixelMin : Int := -0x80000000
def pixelMax : Int := 0x7FFFFFFF

def clampPixel (n : Int) : Int := max pixelMin (min n pixelMax)

theorem clampPixel_bounds (n : Int) : pixelMin ≤ clampPixel n ∧ clampPixel n ≤ pixelMax := by
  simp only [clampPixel, pixelMin, pixelMax]
  omega

theorem clampPixel_of_bounds {n : Int} (low : pixelMin ≤ n) (high : n ≤ pixelMax) :
    clampPixel n = n := by
  simp only [clampPixel]
  omega

theorem clampPixel_mono {m n : Int} (h : m ≤ n) : clampPixel m ≤ clampPixel n := by
  simp only [clampPixel]
  omega

private def toPixel (whole : UnpackedFloat.Sign → Nat → Int → Int) (x : Float) : Int :=
  match unpack x with
  | .notANumber => 0
  | .infinity .negative => pixelMin
  | .infinity .positive => pixelMax
  | .zero _ => 0
  | .finite sign mantissa exponent _ => clampPixel (whole sign mantissa exponent)

def truncatePixel (x : Float) : Int := toPixel towardZero x

/-- Half a pixel is added as a float, so the largest float below one half rounds up. -/
def roundPixel (x : Float) : Int := toPixel downward (x + 0.5)

private theorem toPixel_bounds (whole : UnpackedFloat.Sign → Nat → Int → Int) (x : Float) :
    pixelMin ≤ toPixel whole x ∧ toPixel whole x ≤ pixelMax := by
  unfold toPixel
  split
  case h_5 => exact clampPixel_bounds _
  all_goals decide

theorem truncatePixel_bounds (x : Float) :
    pixelMin ≤ truncatePixel x ∧ truncatePixel x ≤ pixelMax :=
  toPixel_bounds towardZero x

theorem roundPixel_bounds (x : Float) : pixelMin ≤ roundPixel x ∧ roundPixel x ≤ pixelMax :=
  toPixel_bounds downward (x + 0.5)

structure PixelRect where
  x : Int
  y : Int
  width : Int
  height : Int
deriving DecidableEq, Repr

namespace PixelRect

def zero : PixelRect := ⟨0, 0, 0, 0⟩

def right (rect : PixelRect) : Int := rect.x + rect.width
def bottom (rect : PixelRect) : Int := rect.y + rect.height

def origin (rect : PixelRect) : PerAxis Int := ⟨rect.x, rect.y⟩
def extent (rect : PixelRect) : PerAxis Int := ⟨rect.width, rect.height⟩

def ofSpans (spans : PerAxis (Int × Int)) : PixelRect :=
  ⟨spans.x.1, spans.y.1, spans.x.2, spans.y.2⟩

def render (rect : PixelRect) : String :=
  s!"PixelRect(x={rect.x}, y={rect.y}, width={rect.width}, height={rect.height})"

end PixelRect
end FormulaLayout
