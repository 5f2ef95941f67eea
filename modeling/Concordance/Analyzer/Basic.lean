import Concordance.Config.Basic
import Concordance.Text.Alphanumeric
import Concordance.Text.Lowercase

/-!
# Concordance.Analyzer.Basic

From text to tokens: the longest runs of letters and digits, without those that are too long, in
lowercase, and without the stop words.  A token keeps the position of its run, so that tokens left
out still count as a gap.

The bibliography is not taken apart: its whole text is one token.
-/

namespace Concordance

open Text

/-- A token of a text. -/
structure Token where
  /-- The number of runs before it. -/
  position : Nat
  text : String
  deriving DecidableEq, Repr

/-- What the analysis of text depends on. -/
structure Analyzer where
  /-- The words left out, in lowercase. -/
  stopWords : List String
  /-- The length in bytes from which on a run is left out. -/
  maxTokenLength : Nat
  deriving DecidableEq, Repr

namespace Analyzer

/-- The analyzer that settings ask for. -/
def ofConfig (c : Config) : Analyzer := ⟨c.stopWords.map lowercase, c.maxTokenLength⟩

/-- The longest runs of letters and digits in a text. -/
def runs (text : List Char) : List (List Char) :=
  (text.splitOnP (!isAlphanumeric ·)).filter (!·.isEmpty)

/-- The length in bytes of a run. -/
def byteLength (run : List Char) : Nat := (String.ofList run).utf8ByteSize

/-- The token of a run, unless it is left out. -/
def token? (a : Analyzer) (run : List Char) (position : Nat) : Option Token :=
  if a.maxTokenLength ≤ byteLength run then none
  else
    let text := String.ofList (lowerChars run)
    if a.stopWords.contains text then none else some ⟨position, text⟩

/-- The tokens of a text that is taken apart. -/
def tokenize (a : Analyzer) (text : String) : List Token :=
  (runs text.toList).zipIdx.filterMap fun (run, position) => a.token? run position

/-- The tokens of a text in a field. -/
def tokens (a : Analyzer) (field : TextField) (text : String) : List Token :=
  match field with
  | .bib => [⟨0, text⟩]
  | _ => a.tokenize text

/-- The terms of a text in a field, in order. -/
def terms (a : Analyzer) (field : TextField) (text : String) : List String :=
  (a.tokens field text).map Token.text

end Analyzer

end Concordance
