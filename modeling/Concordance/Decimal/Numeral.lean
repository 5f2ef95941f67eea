/-!
# Concordance.Decimal.Numeral

Numerals of the unsigned numbers of 64 bits: how they are written (no sign, no leading zeros) and
how they are read (an optional plus sign, then one or more digits of the base, leading zeros
allowed).
-/

namespace Concordance.Decimal

/-- One more than the largest number of 64 bits. -/
def wordLimit : Nat := Nat.pow 2 64

/-- Why a text is no numeral. -/
inductive NumeralFault
  /-- There is no digit to read. -/
  | empty
  /-- A character is not a digit of the base. -/
  | invalidDigit
  /-- The number needs more than 64 bits. -/
  | tooLarge
  deriving DecidableEq, Repr

/-- The wording of a fault. -/
def NumeralFault.message : NumeralFault → String
  | .empty => "cannot parse integer from empty string"
  | .invalidDigit => "invalid digit found in string"
  | .tooLarge => "number too large to fit in target type"

/-- The name of a fault. -/
def NumeralFault.name : NumeralFault → String
  | .empty => "Empty"
  | .invalidDigit => "InvalidDigit"
  | .tooLarge => "PosOverflow"

/-- The decimal digits of a number, without leading zeros. -/
def digits (n : Nat) : List Char := Nat.toDigits 10 n

/-- The decimal numeral of a number. -/
def numeral (n : Nat) : String := String.ofList (digits n)

/-- The value of a digit or letter below the base, in either case. -/
def digit? (base : Nat) (c : Char) : Option Nat :=
  let value :=
    if '0' ≤ c ∧ c ≤ '9' then some (c.toNat - '0'.toNat)
    else if 'a' ≤ c ∧ c ≤ 'z' then some (c.toNat - 'a'.toNat + 10)
    else if 'A' ≤ c ∧ c ≤ 'Z' then some (c.toNat - 'A'.toNat + 10)
    else none
  value.filter (· < base)

/-- The number after one more digit. -/
def pushDigit (base value : Nat) (c : Char) : Except NumeralFault Nat :=
  match digit? base c with
  | none => .error .invalidDigit
  | some d =>
    if base * value + d < wordLimit then .ok (base * value + d) else .error .tooLarge

/-- Digits read one after the other onto a value. -/
def readDigits (base : Nat) : Nat → List Char → Except NumeralFault Nat
  | value, [] => .ok value
  | value, c :: cs =>
    match pushDigit base value c with
    | .error fault => .error fault
    | .ok next => readDigits base next cs

/-- A numeral of the given base: an optional plus sign in front of the digits.  A sign alone is a
character that is no digit. -/
def readNumeral (base : Nat) : List Char → Except NumeralFault Nat
  | [] => .error .empty
  | ['+'] => .error .invalidDigit
  | '+' :: cs => readDigits base 0 cs
  | cs => readDigits base 0 cs

end Concordance.Decimal
