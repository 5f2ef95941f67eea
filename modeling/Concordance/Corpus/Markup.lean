import Concordance.Corpus.Document
import Concordance.Text.Blank

/-!
# Concordance.Corpus.Markup

Documents with marker lines:

```
.T
title
.A
author
.B
bibliography
.W
content
```

Each marker closes the section that the one before it opened: `.A` closes the title, `.B` the author
and `.W` the bibliography; what follows the last marker is the content.  Blank lines and `.T` are
passed over.

* `parse_ordinal` — the ordinal is the one that was given.
-/

namespace Concordance.Markup

open Text

/-- The lines of a text that count: without the blanks at their ends, and not empty. -/
def lines (text : List Char) : List (List Char) :=
  ((text.splitOn '\n').map trimEnd).filter (!·.isEmpty)

/-- What a line is to the reader. -/
inductive Line
  /-- The marker that opens the title. -/
  | opening
  /-- The markers that close a section. -/
  | closesTitle
  | closesAuthor
  | closesBib
  | ordinary (text : List Char)
  deriving DecidableEq, Repr

/-- What a line is: a marker stands alone on its line. -/
def classify (line : List Char) : Line :=
  if line = ['.', 'T'] then .opening
  else if line = ['.', 'A'] then .closesTitle
  else if line = ['.', 'B'] then .closesAuthor
  else if line = ['.', 'W'] then .closesBib
  else .ordinary line

/-- The text of a section: its lines with single spaces between them, trimmed.  A section without
text is absent. -/
def section? (lines : List (List Char)) : Option String :=
  match trim (lines.flatMap (' ' :: ·)) with
  | [] => none
  | text => some (String.ofList text)

/-- A document that is being read, with the lines since the last closing marker, last one first. -/
structure Draft where
  document : Document
  pending : List (List Char)

/-- The section that is being read. -/
def Draft.current (d : Draft) : Option String := section? d.pending.reverse

/-- Read one more line. -/
def Draft.read (d : Draft) (line : List Char) : Draft :=
  match classify line with
  | .opening => d
  | .closesTitle => ⟨{ d.document with title := d.current }, []⟩
  | .closesAuthor => ⟨{ d.document with author := d.current }, []⟩
  | .closesBib => ⟨{ d.document with bib := d.current }, []⟩
  | .ordinary text => { d with pending := text :: d.pending }

/-- The document, whose content is the section that is being read. -/
def Draft.close (d : Draft) : Document := { d.document with content := d.current }

/-- Read a document. -/
def parse (text : String) (ordinal : Nat) : Document :=
  ((lines text.toList).foldl Draft.read ⟨{ ordinal := ordinal }, []⟩).close

theorem read_ordinal (d : Draft) (line : List Char) :
    (d.read line).document.ordinal = d.document.ordinal := by
  unfold Draft.read
  split <;> rfl

/-- The ordinal is the one that was given. -/
theorem parse_ordinal (text : String) (ordinal : Nat) : (parse text ordinal).ordinal = ordinal := by
  suffices h : ∀ (ls : List (List Char)) (d : Draft),
      (ls.foldl Draft.read d).document.ordinal = d.document.ordinal from h _ _
  intro ls
  induction ls with
  | nil => intro d; rfl
  | cons l ls ih => intro d; rw [List.foldl_cons, ih, read_ordinal]

end Concordance.Markup
