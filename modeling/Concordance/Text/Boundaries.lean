/-!
# Concordance.Text.Boundaries

Sets of characters written as the list of code points at which membership changes, in ascending
order and starting outside the set.
-/

namespace Concordance.Text

/-- Membership of a code point in the set that changes at each listed boundary.  The scan stops at
the first boundary beyond the code point. -/
def within : List Nat → Nat → Bool
  | [], _ => false
  | [first], n => decide (first ≤ n)
  | first :: last :: rest, n =>
    if n < first then false else if n < last then true else within rest n

end Concordance.Text
