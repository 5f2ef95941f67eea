import Concordance.Analyzer.Basic
import Concordance.Config.Reader
import Concordance.Json.Printer

/-!
# Concordance.Analyzer.Stored

The analyzer of an index as a JSON file beside it, so that what was indexed in one way is never read
in another.
-/

namespace Concordance.Analyzer

/-- The name of the stop words in the file. -/
def stopWordsName : String := "stop_words"

/-- The name of the token length in the file. -/
def maxTokenLengthName : String := "max_token_length"

/-- The file of an analyzer. -/
def toJson (a : Analyzer) : Json :=
  Json.ofMembers
    [(stopWordsName, .array (a.stopWords.map Json.ofText)),
      (maxTokenLengthName, .natural a.maxTokenLength)]

/-- The parts of an analyzer found in a file so far. -/
structure Found where
  stopWords : Option (List String) := none
  maxTokenLength : Option Nat := none

/-- Note the members of an object.  Each part may be given once; other names are passed over. -/
def Found.read (found : Found) : List (String × Json) → Option Found
  | [] => some found
  | (name, value) :: rest =>
    if name = stopWordsName then
      if found.stopWords.isSome then none
      else
        match Config.texts? value with
        | none => none
        | some words => Found.read { found with stopWords := some words } rest
    else if name = maxTokenLengthName then
      if found.maxTokenLength.isSome then none
      else
        match Config.word? value with
        | none => none
        | some n => Found.read { found with maxTokenLength := some n } rest
    else Found.read found rest

/-- The analyzer of a JSON value: an object with both parts, or an array of the two. -/
def ofJson? : Json → Option Analyzer
  | .object members => do
    let found ← Found.read {} (← Json.namedMembers? members)
    return ⟨← found.stopWords, ← found.maxTokenLength⟩
  | .array [words, length] => do return ⟨← Config.texts? words, ← Config.word? length⟩
  | _ => none

/-- The text of an analyzer's file. -/
def toText (a : Analyzer) : String := a.toJson.pretty

/-- The analyzer of a file's text. -/
def ofText? (text : String) : Option Analyzer := (Json.parse? text).bind ofJson?

end Concordance.Analyzer
