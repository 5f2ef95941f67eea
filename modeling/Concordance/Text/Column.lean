/-!
# Concordance.Text.Column

Texts set to the right in columns.  A text that is wider than its column is not cut.
-/

namespace Concordance.Text

/-- A text with spaces in front, as many as the width of the column asks for. -/
def toRight (width : Nat) (text : String) : String :=
  String.ofList (List.replicate (width - text.length) ' ') ++ text

end Concordance.Text
