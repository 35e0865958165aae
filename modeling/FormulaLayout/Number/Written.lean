import FormulaLayout.Number.Binary
import FormulaLayout.Number.Decimal

/-! Floats in writing. A style says how far powers of ten are written in place and whether a whole
number keeps its point. Formulas and environments show six significant digits; a rejected
coordinate is shown by the fewest digits that read back as the same float. -/
namespace FormulaLayout.Number
open Float.Model

structure Style where
  inPlaceBelow : Int
  keepsPoint : Bool

/-- Six significant digits, in place from `0.0001` up to a million. -/
def generalStyle : Style := ⟨6, false⟩

/-- The fewest digits, in place from `0.0001` up to `10 ^ 16`, with at least one decimal. -/
def shortestStyle : Style := ⟨16, true⟩

private def dropTrailingZeros (digits : List Char) : List Char :=
  (digits.reverse.dropWhile (· = '0')).reverse

private def exponentText (power : Int) : List Char :=
  let digits := Nat.toDigits 10 power.natAbs
  'e' :: (if power < 0 then '-' else '+') :: (if digits.length < 2 then '0' :: digits else digits)

private def withFraction (whole fraction : List Char) (keepsPoint : Bool) : List Char :=
  if fraction ≠ [] then whole ++ '.' :: fraction
  else if keepsPoint then whole ++ ['.', '0']
  else whole

/-- The digits hold no trailing zero, and `power` is the power of ten of the first. -/
def Style.write (style : Style) (digits : List Char) (power : Int) : List Char :=
  if power < -4 ∨ style.inPlaceBelow ≤ power then
    withFraction (digits.take 1) (digits.drop 1) false ++ exponentText power
  else if power < 0 then
    withFraction ['0'] (List.replicate (power.natAbs - 1) '0' ++ digits) style.keepsPoint
  else
    let places := power.toNat + 1
    withFraction (digits.take places ++ List.replicate (places - digits.length) '0')
      (digits.drop places) style.keepsPoint

private def signText : UnpackedFloat.Sign → List Char
  | .positive => []
  | .negative => ['-']

private def write (style : Style) (digitsOf : Nat → Nat → Nat × Int) (x : Float) : String :=
  String.ofList <| match unpack x with
    | .notANumber => "nan".toList
    | .infinity sign => signText sign ++ "inf".toList
    | .zero sign => signText sign ++ withFraction ['0'] [] style.keepsPoint
    | .finite sign mantissa exponent _ =>
      let (digits, power) := digitsOf (numerator mantissa exponent) (denominator exponent)
      signText sign ++ style.write (dropTrailingZeros (Nat.toDigits 10 digits)) power

def general (x : Float) : String := write generalStyle (significant 6) x

private def readsBack (x : Float) (count : Nat) (candidate : Nat × Int) : Bool :=
  ofDecimal candidate.1 (candidate.2 + 1 - count) == x

/-- Seventeen digits always read back, so the search does not fail. -/
private def fewestDigits (x : Float) (top bottom : Nat) : Nat × Int :=
  ((List.range 17).findSome? fun less =>
    (neighbours (less + 1) top bottom).find? (readsBack x (less + 1))).getD
      (significant 17 top bottom)

def shortest (x : Float) : String := write shortestStyle (fewestDigits (if x < 0 then -x else x)) x

end FormulaLayout.Number
