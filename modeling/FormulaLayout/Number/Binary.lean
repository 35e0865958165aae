/-! Binary floats as exact values. A finite float is a sign, a mantissa and a power of two, so its
whole part and its floor are integer divisions and no further float operation is involved. A whole
number of any size becomes the nearest float. -/
namespace FormulaLayout.Number
open Float.Model

def unpack (x : Float) : UnpackedFloat := x.toModel.unpack

def ofWhole (n : Int) : Float := .ofModel (.ofInt n)

def numerator (mantissa : Nat) (exponent : Int) : Nat := mantissa * Nat.pow 2 exponent.toNat
def denominator (exponent : Int) : Nat := Nat.pow 2 (-exponent).toNat

def towardZero (sign : UnpackedFloat.Sign) (mantissa : Nat) (exponent : Int) : Int :=
  sign.apply (numerator mantissa exponent / denominator exponent : Nat)

def downward (sign : UnpackedFloat.Sign) (mantissa : Nat) (exponent : Int) : Int :=
  sign.apply (numerator mantissa exponent : Nat) / (denominator exponent : Int)

theorem downward_positive (mantissa : Nat) (exponent : Int) :
    downward .positive mantissa exponent = towardZero .positive mantissa exponent := by
  simp [downward, towardZero, UnpackedFloat.Sign.apply]

end FormulaLayout.Number
