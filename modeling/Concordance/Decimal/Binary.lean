/-!
# Concordance.Decimal.Binary

Floating point numbers taken apart: a finite one is `± significand · 2 ^ exponent`, exactly.  The
printers of decimals work on these parts, in the arithmetic of natural numbers.
-/

namespace Concordance.Decimal

/-- The bits of a floating point format: how many hold the fraction and how many the exponent. -/
structure Format where
  fractionBits : Nat
  exponentBits : Nat

/-- Numbers of 64 bits. -/
def Format.double : Format := ⟨52, 11⟩

/-- Numbers of 32 bits. -/
def Format.single : Format := ⟨23, 8⟩

/-- A finite floating point number.  `narrowBelow` tells that the next smaller number is only half
as far away as the next larger one. -/
structure Finite where
  negative : Bool
  significand : Nat
  exponent : Int
  narrowBelow : Bool
  deriving Repr, DecidableEq

/-- A floating point number in parts. -/
inductive Parts
  | finite (value : Finite)
  | infinite (negative : Bool)
  | undefined
  deriving Repr, DecidableEq

/-- The exponent of the least significant bit of the smallest numbers. -/
def Format.leastExponent (f : Format) : Int :=
  1 - (Nat.pow 2 (f.exponentBits - 1) - 1 : Nat) - (f.fractionBits : Nat)

/-- The parts of the number that the bits stand for. -/
def Format.parts (f : Format) (bits : Nat) : Parts :=
  let fraction := bits % Nat.pow 2 f.fractionBits
  let biased := bits / Nat.pow 2 f.fractionBits % Nat.pow 2 f.exponentBits
  let negative := bits / Nat.pow 2 (f.fractionBits + f.exponentBits) % 2 == 1
  if biased = Nat.pow 2 f.exponentBits - 1 then
    if fraction = 0 then .infinite negative else .undefined
  else if biased = 0 then
    .finite ⟨negative, fraction, f.leastExponent, false⟩
  else
    .finite ⟨negative, Nat.pow 2 f.fractionBits + fraction, f.leastExponent + (biased - 1 : Nat),
      fraction == 0 && biased != 1⟩

/-- The parts of a number of 64 bits. -/
def ofDouble (x : Float) : Parts := Format.double.parts x.toBits.toNat

/-- The parts of a number of 32 bits. -/
def ofSingle (x : Float32) : Parts := Format.single.parts x.toBits.toNat

end Concordance.Decimal
