/-!
# Concordance.Json.Basic

JSON values.  Numbers other than plain natural ones are kept as they are written, and so is the
order of an object's members.
-/

namespace Concordance

/-- A JSON value.  A text is absent where its escapes spell half of a surrogate pair, which no text
can hold: such a value is well formed and can be passed over, but it stands for nothing. -/
inductive Json
  | null
  | bool (value : Bool)
  /-- A number written with digits only. -/
  | natural (value : Nat)
  /-- Any other number, as written. -/
  | number (written : String)
  | text (value : Option String)
  | array (items : List Json)
  | object (members : List (Option String × Json))
  deriving Repr, Inhabited

end Concordance
