import Concordance.Analyzer.Basic

/-!
# Concordance.Index.Entry

Documents as the index holds them: analyzed, with the title as it was.

* `tokens_ofDocument` — a field that the document lacks has no tokens.
-/

namespace Concordance.Index

/-- A document in the index. -/
structure Entry where
  ordinal : Nat
  title : Option String
  titleTokens : List Token
  authorTokens : List Token
  bibTokens : List Token
  contentTokens : List Token
  deriving DecidableEq, Repr

/-- The most bytes that a token in the index may have; longer ones are passed over. -/
def longestToken : Nat := 65530

/-- The tokens of a field that the index holds. -/
def indexed (a : Analyzer) (d : Document) (field : TextField) : List Token :=
  match d.text? field with
  | none => []
  | some text => (a.tokens field text).filter fun t => decide (t.text.utf8ByteSize ≤ longestToken)

namespace Entry

/-- The tokens of a field. -/
def tokens (e : Entry) : TextField → List Token
  | .title => e.titleTokens
  | .author => e.authorTokens
  | .bib => e.bibTokens
  | .content => e.contentTokens

/-- The terms of a field, in order. -/
def terms (e : Entry) (field : TextField) : List String := (e.tokens field).map Token.text

/-- The document as the index holds it. -/
def ofDocument (a : Analyzer) (d : Document) : Entry where
  ordinal := d.ordinal
  title := d.title
  titleTokens := indexed a d .title
  authorTokens := indexed a d .author
  bibTokens := indexed a d .bib
  contentTokens := indexed a d .content

theorem tokens_ofDocument (a : Analyzer) (d : Document) (field : TextField) :
    (ofDocument a d).tokens field = indexed a d field := by cases field <;> rfl

end Entry

/-- The documents of one commit, in the order in which they were added. -/
abbrev Segment := List Entry

end Concordance.Index
