/-!
# Concordance.Query.Style

How strictly query texts are read.
-/

namespace Concordance.Query

/-- How strictly a query text is read. -/
inductive Style
  /-- A text with a mistake is rejected. -/
  | classic
  /-- What cannot be read is dropped. -/
  | lenient
  deriving DecidableEq, Repr

namespace Style

/-- The name of a style. -/
def name : Style → String
  | .classic => "classic"
  | .lenient => "lenient"

/-- The style of a name. -/
def ofName? (name : String) : Option Style :=
  if name == "classic" then some .classic else if name == "lenient" then some .lenient else none

/-- A style is found by its own name. -/
@[simp] theorem ofName?_name (s : Style) : ofName? s.name = some s := by cases s <;> decide

end Style

end Concordance.Query
