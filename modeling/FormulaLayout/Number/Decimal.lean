import FormulaLayout.Text.Digit
import FormulaLayout.Number.Rounding

/-! Decimals read as floats. A coefficient and a power of ten give the nearest float; sizes far
outside the range of floats are settled first, so that no huge power of ten is ever built. -/
namespace FormulaLayout.Number
open Text

def infinity : Float := 1.0 / 0.0
def undefinedValue : Float := 0.0 / 0.0

def ofDecimal (coefficient : Nat) (power : Int) : Float :=
  let size := digitCount coefficient + power
  if coefficient = 0 ∨ size < -400 then 0
  else if 400 < size then infinity
  else .ofModel (.ofScientific coefficient power)

def decimal? (digits : List Char) : Option Nat :=
  digits.foldlM (fun total c => (decimalValue? c).map (10 * total + ·)) 0

private theorem foldlM_decimal (digits : List Char) (total : Nat) :
    (digits.foldlM (fun total c => (decimalValue? c).map (10 * total + ·)) total).isSome =
      digits.all fun c => (decimalValue? c).isSome := by
  induction digits generalizing total with
  | nil => rfl
  | cons c rest ih =>
    cases h : decimalValue? c with
    | none => simp [h]
    | some v => simpa [h] using ih _

theorem isSome_decimal? (digits : List Char) :
    (decimal? digits).isSome = digits.all fun c => (decimalValue? c).isSome :=
  foldlM_decimal digits 0

end FormulaLayout.Number
