/-!
# Concordance.Decimal.Fraction

Decimals read as floating point numbers, rounded once from their exact value.
-/

namespace Concordance.Decimal

/-- The number with the given digits before and after the point, scaled by a power of ten. -/
def readFloat (whole fraction : List Char) (scale : Int) : Float :=
  let coefficient := Nat.ofDigitChars 10 (whole ++ fraction) 0
  let exponent := scale - (fraction.length : Int)
  Float.ofScientific coefficient (exponent < 0) exponent.natAbs

end Concordance.Decimal
