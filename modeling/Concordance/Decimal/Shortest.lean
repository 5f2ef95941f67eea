import Concordance.Decimal.Numeral
import Concordance.Decimal.Binary

/-!
# Concordance.Decimal.Shortest

The fewest decimal digits that still single out a floating point number, and the two layouts they
are written in: positional and with an exponent.

For one digit, two digits and so on the two neighbours of the value on that decimal grid are tested
against the interval of reals that round to the value; the first grid with a hit is taken, and of
two hits the nearer one.
-/

namespace Concordance.Decimal

/-- The decimal `coefficient · 10 ^ scale`. -/
structure Scientific where
  coefficient : Nat
  scale : Int
  deriving Repr, DecidableEq

/-- The interval of reals that round to a number, over a common denominator: `low / den` to
`high / den` around `value / den`. -/
structure Rounding where
  low : Nat
  value : Nat
  high : Nat
  den : Nat
  /-- Whether the ends belong to the interval. -/
  closed : Bool

/-- The interval of reals that round to a finite number. -/
def Finite.rounding (x : Finite) : Rounding :=
  let (up, den) : Nat × Nat :=
    match x.exponent with
    | .ofNat e => (Nat.pow 2 e, 4)
    | .negSucc e => (1, 4 * Nat.pow 2 (e + 1))
  let m := x.significand
  { low := (if x.narrowBelow then 4 * m - 1 else 4 * m - 2) * up
    value := 4 * m * up
    high := (4 * m + 2) * up
    den := den
    closed := m % 2 = 0 }

/-- Whether `d · 10 ^ scale` lies in the interval. -/
def Rounding.holds (r : Rounding) (d : Nat) (scale : Int) : Bool :=
  let (point, unit) : Nat × Nat :=
    match scale with
    | .ofNat k => (d * Nat.pow 10 k * r.den, 1)
    | .negSucc k => (d * r.den, Nat.pow 10 (k + 1))
  if r.closed then r.low * unit ≤ point && point ≤ r.high * unit
  else r.low * unit < point && point < r.high * unit

/-- The whole part of the value on the grid `10 ^ scale`, and how twice the rest compares with the
grid's step. -/
def Rounding.below (r : Rounding) (scale : Int) : Nat × Ordering :=
  let (num, den) : Nat × Nat :=
    match scale with
    | .ofNat k => (r.value, r.den * Nat.pow 10 k)
    | .negSucc k => (r.value * Nat.pow 10 (k + 1), r.den)
  (num / den, compare (2 * (num % den)) den)

/-- The point of the grid `10 ^ scale` that is nearest to the value among its two neighbours that
lie in the interval; a tie goes to the even one. -/
def Rounding.onGrid (r : Rounding) (scale : Int) : Option Scientific :=
  let (d, rest) := r.below scale
  let lower := d != 0 && r.holds d scale
  let upper := r.holds (d + 1) scale
  let takeUpper := match rest with
    | .lt => false
    | .gt => true
    | .eq => d % 2 == 1
  if lower && upper then some ⟨if takeUpper then d + 1 else d, scale⟩
  else if lower then some ⟨d, scale⟩
  else if upper then some ⟨d + 1, scale⟩
  else none

/-- The first grid with a hit, from the coarsest down. -/
def Rounding.search (r : Rounding) : Nat → Int → Scientific
  | 0, scale => ⟨(r.below scale).1, scale⟩
  | fuel + 1, scale =>
    match r.onGrid scale with
    | some s => s
    | none => r.search fuel (scale - 1)

/-- The decimal exponent of the value: the power of ten of its first digit. -/
def Rounding.magnitude (r : Rounding) : Int :=
  if r.den ≤ r.value then ((digits (r.value / r.den)).length : Int) - 1
  else
    let inverse := r.den / r.value
    -- `10 ^ (length - 1) ≤ inverse`, so the first digit stands at `- length` or one place above
    let guess : Nat := (digits inverse).length
    if r.value * Nat.pow 10 (guess - 1) ≥ r.den then -((guess - 1 : Nat) : Int) else -(guess : Int)

/-- The same decimal without zeros at the end of its coefficient. -/
def Scientific.normalize : Nat → Scientific → Scientific
  | 0, s => s
  | fuel + 1, s =>
    if s.coefficient % 10 = 0 ∧ s.coefficient ≠ 0 then
      Scientific.normalize fuel ⟨s.coefficient / 10, s.scale + 1⟩
    else s

/-- How many digits always suffice to single out a number. -/
def enoughDigits : Nat := 20

/-- The fewest digits that single out a finite number. -/
def Finite.shortest (x : Finite) : Scientific :=
  if x.significand = 0 then ⟨0, 0⟩
  else
    let r := x.rounding
    (r.search enoughDigits r.magnitude).normalize enoughDigits

/-- Where a number is written without an exponent: its decimal exponent is at least `least` and
below `limit`. -/
structure Layout where
  least : Int
  limit : Int

/-- Digits with a point in place, always with a digit on both sides of it. -/
def Scientific.positional (s : Scientific) : List Char :=
  let ds := digits s.coefficient
  match s.scale with
  | .ofNat k => ds ++ List.replicate k '0' ++ ['.', '0']
  | .negSucc k =>
    let places := k + 1
    if ds.length ≤ places then
      ['0', '.'] ++ List.replicate (places - ds.length) '0' ++ ds
    else ds.take (ds.length - places) ++ '.' :: ds.drop (ds.length - places)

/-- Digits with a point only where one is needed. -/
def Scientific.plain (s : Scientific) : List Char :=
  match s.scale with
  | .ofNat k => digits s.coefficient ++ List.replicate k '0'
  | .negSucc _ => s.positional

/-- The shortest text of a finite number without an exponent. -/
def Finite.plain (x : Finite) : String :=
  String.ofList ((if x.negative then ['-'] else []) ++ x.shortest.plain)

/-- Digits with the point after the first of them, and the power of ten with its sign. -/
def Scientific.withExponent (s : Scientific) (exponent : Int) : List Char :=
  let mantissa := match digits s.coefficient with
    | [] => []
    | [d] => [d]
    | d :: ds => d :: '.' :: ds
  let sign := if exponent < 0 then '-' else '+'
  mantissa ++ 'e' :: sign :: digits exponent.natAbs

/-- The shortest text of a finite number in a layout. -/
def Layout.render (layout : Layout) (x : Finite) : String :=
  let s := x.shortest
  let exponent : Int := s.scale + (digits s.coefficient).length - 1
  let body :=
    if x.significand = 0 ∨ (layout.least ≤ exponent ∧ exponent < layout.limit) then s.positional
    else s.withExponent exponent
  String.ofList ((if x.negative then ['-'] else []) ++ body)

end Concordance.Decimal
