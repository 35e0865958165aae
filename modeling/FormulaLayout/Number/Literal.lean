import FormulaLayout.Number.Decimal

/-! Number literals. The scan is generous: any run of digits and points, and an exponent behind the
mark `E` if there is one. Whether the run is a number is decided afterwards, on the pieces. -/
namespace FormulaLayout.Number
open Text

structure Exponent where
  negative : Bool
  digits : List Char
deriving DecidableEq, Repr

structure Literal where
  mantissa : List Char
  exponent : Option Exponent
deriving DecidableEq, Repr

def Exponent.text (exponent : Exponent) : List Char :=
  'E' :: (if exponent.negative then '-' :: exponent.digits else exponent.digits)

def Literal.text (literal : Literal) : List Char :=
  literal.mantissa ++ (literal.exponent.map Exponent.text).getD []

def startsLiteral (c : Char) : Bool := isDigit c || c == '.'

def Literal.scan (text : List Char) : Literal :=
  let mantissa := text.takeWhile startsLiteral
  match text.dropWhile startsLiteral with
  | 'E' :: '-' :: rest => ⟨mantissa, some ⟨true, rest.takeWhile isDigit⟩⟩
  | 'E' :: rest => ⟨mantissa, some ⟨false, rest.takeWhile isDigit⟩⟩
  | _ => ⟨mantissa, none⟩

theorem Literal.scan_text_append (text : List Char) :
    ∃ rest, text = (Literal.scan text).text ++ rest := by
  have parts := (List.takeWhile_append_dropWhile (p := startsLiteral) (l := text)).symm
  unfold Literal.scan
  split
  case h_1 rest h =>
    refine ⟨rest.dropWhile isDigit, ?_⟩
    rw [h] at parts
    simpa [Literal.text, Exponent.text] using parts
  case h_2 rest _ h =>
    refine ⟨rest.dropWhile isDigit, ?_⟩
    rw [h] at parts
    simpa [Literal.text, Exponent.text] using parts
  case h_3 => exact ⟨text.dropWhile startsLiteral, by simp [Literal.text]⟩

def Exponent.value? (exponent : Exponent) : Option Int := do
  guard (exponent.digits ≠ [])
  let size ← decimal? exponent.digits
  return if exponent.negative then -size else size

/-- A second point has no decimal value, so it spoils the fraction. -/
def Literal.value? (literal : Literal) : Option Float := do
  let whole := literal.mantissa.takeWhile (· ≠ '.')
  let fraction := (literal.mantissa.dropWhile (· ≠ '.')).drop 1
  guard (whole ++ fraction ≠ [])
  let coefficient ← decimal? (whole ++ fraction)
  let power ← match literal.exponent with
    | none => some 0
    | some exponent => exponent.value?
  return ofDecimal coefficient (power - fraction.length)

end FormulaLayout.Number
