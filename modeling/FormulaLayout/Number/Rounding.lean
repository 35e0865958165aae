/-! Decimal rounding of exact ratios. A ratio is cut to a number of significant digits in integer
arithmetic, and a tie goes to the even digit. -/
namespace FormulaLayout.Number

def digitCount (n : Nat) : Nat := (Nat.toDigits 10 n).length

def roundRatio (top bottom : Nat) : Nat :=
  let whole := top / bottom
  let rest := top % bottom
  if 2 * rest < bottom then whole
  else if bottom < 2 * rest then whole + 1
  else whole + whole % 2

/-- The power of ten of the first digit: `10 ^ e ≤ top / bottom < 10 ^ (e + 1)`. -/
def leadingPower (top bottom : Nat) : Int :=
  if bottom ≤ top then (digitCount (top / bottom) : Int) - 1
  else -(digitCount ((bottom - 1) / top) : Int)

def scaleByTen (top bottom : Nat) (power : Int) : Nat × Nat :=
  (top * Nat.pow 10 power.toNat, bottom * Nat.pow 10 (-power).toNat)

/-- Rounding up to the next power of ten leaves one digit too many, which is a zero. -/
def carry (count : Nat) (digits : Nat) (lead : Int) : Nat × Int :=
  if digits = Nat.pow 10 count then (Nat.pow 10 (count - 1), lead + 1) else (digits, lead)

/-- The first `count` digits, rounded, and the power of ten of the first one. -/
def significant (count top bottom : Nat) : Nat × Int :=
  let lead := leadingPower top bottom
  let scaled := scaleByTen top bottom ((count : Int) - 1 - lead)
  carry count (roundRatio scaled.1 scaled.2) lead

def neighbours (count top bottom : Nat) : List (Nat × Int) :=
  let lead := leadingPower top bottom
  let scaled := scaleByTen top bottom ((count : Int) - 1 - lead)
  let below := scaled.1 / scaled.2
  let near := roundRatio scaled.1 scaled.2
  [carry count near lead, carry count (if near = below then below + 1 else below) lead]

end FormulaLayout.Number
