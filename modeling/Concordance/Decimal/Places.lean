import Concordance.Decimal.Numeral
import Concordance.Decimal.Binary

/-!
# Concordance.Decimal.Places

Decimals with a fixed number of places, rounded from the exact value of a floating point number; a
half goes to the even neighbour.
-/

namespace Concordance.Decimal

/-- The quotient rounded to the nearest whole number, a half to the even one. -/
def roundDiv (num den : Nat) : Nat :=
  let q := num / den
  let r := num % den
  if 2 * r < den then q
  else if den < 2 * r then q + 1
  else if q % 2 = 0 then q else q + 1

/-- The value as a fraction of natural numbers. -/
def Finite.fraction (x : Finite) : Nat × Nat :=
  match x.exponent with
  | .ofNat e => (x.significand * Nat.pow 2 e, 1)
  | .negSucc e => (x.significand, Nat.pow 2 (e + 1))

/-- The digits of a scaled number with a point before the last `places` of them. -/
def pointed (places scaled : Nat) : List Char :=
  let fraction := digits (scaled % Nat.pow 10 places)
  digits (scaled / Nat.pow 10 places) ++
    '.' :: (List.replicate (places - fraction.length) '0' ++ fraction)

/-- A finite number with the given number of places, its sign kept even where all digits are
zero. -/
def Finite.toPlaces (places : Nat) (x : Finite) : List Char :=
  let (num, den) := x.fraction
  (if x.negative then ['-'] else []) ++ pointed places (roundDiv (num * Nat.pow 10 places) den)

/-- A number with the given number of places. -/
def Parts.toPlaces (places : Nat) : Parts → String
  | .finite x => String.ofList (x.toPlaces places)
  | .infinite false => "inf"
  | .infinite true => "-inf"
  | .undefined => "NaN"

end Concordance.Decimal
