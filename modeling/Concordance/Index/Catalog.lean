import Concordance.Config.Reader
import Concordance.Index.Entry
import Concordance.Json.Printer

/-!
# Concordance.Index.Catalog

The segments of an index as the text of its catalog file.
-/

namespace Concordance.Index.Catalog

open Config (text? optionalText?)

/-! ## writing -/

/-- A token: its position and its text. -/
def tokenJson (t : Token) : Json := .array [.natural t.position, Json.ofText t.text]

/-- The tokens of a field. -/
def tokensJson (tokens : List Token) : Json := .array (tokens.map tokenJson)

/-- The value of a text that may be missing. -/
def optionalJson : Option String → Json
  | none => .null
  | some text => Json.ofText text

/-- A document: its ordinal, its title, and the tokens of its fields. -/
def entryJson (e : Entry) : Json :=
  .array
    [.natural e.ordinal, optionalJson e.title, tokensJson e.titleTokens, tokensJson e.authorTokens,
      tokensJson e.bibTokens, tokensJson e.contentTokens]

/-- A segment. -/
def segmentJson (s : Segment) : Json := .array (s.map entryJson)

/-- The name of the only member of a catalog. -/
def segmentsName : String := "segments"

/-- The catalog of segments. -/
def toJson (segments : List Segment) : Json :=
  Json.ofMembers [(segmentsName, .array (segments.map segmentJson))]

/-- The text of a catalog. -/
def toText (segments : List Segment) : String := (toJson segments).pretty

/-! ## reading -/

/-- The value of a natural number. -/
def natural? : Json → Option Nat
  | .natural value => some value
  | _ => none

/-- The token of a value. -/
def token? : Json → Option Token
  | .array [position, text] => do return ⟨← natural? position, ← text? text⟩
  | _ => none

/-- The tokens of a value. -/
def tokens? : Json → Option (List Token)
  | .array items => items.mapM token?
  | _ => none

/-- The document of a value. -/
def entry? : Json → Option Entry
  | .array [ordinal, title, titleTokens, authorTokens, bibTokens, contentTokens] => do
    return {
      ordinal := ← natural? ordinal
      title := ← optionalText? title
      titleTokens := ← tokens? titleTokens
      authorTokens := ← tokens? authorTokens
      bibTokens := ← tokens? bibTokens
      contentTokens := ← tokens? contentTokens }
  | _ => none

/-- The segment of a value. -/
def segment? : Json → Option Segment
  | .array items => items.mapM entry?
  | _ => none

/-- The segments of a catalog. -/
def ofJson? : Json → Option (List Segment)
  | .object [(some name, .array items)] =>
    if name = segmentsName then items.mapM segment? else none
  | _ => none

/-- The segments of a catalog's text. -/
def ofText? (text : String) : Option (List Segment) := (Json.parse? text).bind ofJson?

end Concordance.Index.Catalog
