import Concordance.Index.Basic
import Concordance.Query.Explanation
import Concordance.Workspace

/-!
# Concordance.Index.Search

Asking an index: query texts are analyzed the way its documents were, and only what is published is
found.
-/

namespace Concordance.Index

/-- What a query text asks of an index, in a style of reading.  Every mistake of a lenient reading
is a warning. -/
def parse (i : Index) (style : Query.Style) (field text : String) : Job Query := do
  let f ← Job.ofExcept (textField field)
  match style with
  | .classic => Job.ofExcept ((Query.parseClassic i.analyzer f text).mapError Fault.query)
  | .lenient =>
    let (q, mistakes) := Query.parseLenient i.analyzer f text
    modify fun w =>
      { w with warnings := List.replicate mistakes .queryPartIgnored ++ w.warnings }
    return q

/-- The best hits of a query. -/
def search (i : Index) (q : Query) (limit : Nat) : List Query.Hit :=
  Query.search i.published q limit

/-- The explanation of the score of the document with an ordinal. -/
def explain (i : Index) (q : Query) (ordinal : Nat) : Except Fault String :=
  Query.explainAt i.published q ordinal

end Concordance.Index
