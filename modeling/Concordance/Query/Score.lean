import Concordance.Index.Entry
import Concordance.Query.Clause

/-!
# Concordance.Query.Score

How well a document matches a term: the more often it occurs there, the better; the rarer the term
and the shorter the field, the better.  All numbers have 32 bits.

The length of a field is kept in few bits: above forty it is rounded down to a number that differs
from the next one by 2, then by 4, and so on, doubling after every eight.
-/

namespace Concordance.Query

/-- How soon more occurrences stop to matter. -/
def saturation : Float32 := 1.2

/-- How much the length of a field matters. -/
def lengthWeight : Float32 := 0.75

/-- The largest number of 8 steps that a length above `base` is rounded down to. -/
def roundLength : (fuel base step : Nat) → Nat → Nat
  | 0, base, _, _ => base
  | fuel + 1, base, step, n =>
    if n < base + 8 * step then base + (n - base) / step * step
    else roundLength fuel (base + 8 * step) (2 * step) n

/-- The length of a field as it is kept. -/
def keptLength (n : Nat) : Nat := if n ≤ 40 then n else roundLength 27 40 2 n

/-- A number with 32 bits. -/
def single (n : Nat) : Float32 := n.toUInt64.toFloat32

/-- The weight of a term that is in some of all documents. -/
def rarity (documents withTerm : Nat) : Float32 :=
  (1.0 + (single (documents - withTerm) + 0.5) / (single withTerm + 0.5)).log

/-- What the score of a term or phrase depends on, apart from the document. -/
structure Weight where
  documents : Nat
  /-- How many documents have each term. -/
  withTerm : List Nat
  averageLength : Float32
  deriving Repr

namespace Weight

/-- The weights of all terms together. -/
def rarity (w : Weight) : Float32 :=
  match w.withTerm with
  | [n] => Query.rarity w.documents n
  | ns => ns.foldl (fun sum n => sum + Query.rarity w.documents n) 0.0

/-- The part of the score that the document does not change. -/
def factor (w : Weight) : Float32 := w.rarity * (1.0 + saturation)

/-- What a field's length adds to the occurrences needed. -/
def norm (w : Weight) (length : Nat) : Float32 :=
  saturation * (1.0 - lengthWeight + lengthWeight * single length / w.averageLength)

/-- The part of the score that the document determines. -/
def frequencyFactor (w : Weight) (length occurrences : Nat) : Float32 :=
  single occurrences / (single occurrences + w.norm length)

/-- The score of a document with a boost. -/
def score (w : Weight) (boost : Float32) (length occurrences : Nat) : Float32 :=
  w.factor * boost * w.frequencyFactor length occurrences

end Weight

end Concordance.Query
