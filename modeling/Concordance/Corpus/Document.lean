/-!
# Concordance.Corpus.Document

A document of the corpus: four texts, each of which may be absent, and an ordinal.
-/

namespace Concordance

/-- A document of the corpus.  The ordinal is its position in the sorted listing. -/
structure Document where
  ordinal : Nat
  title : Option String := none
  author : Option String := none
  bib : Option String := none
  content : Option String := none
  deriving DecidableEq, Repr

/-- The fields that hold terms. -/
inductive TextField
  | title
  | author
  | bib
  | content
  deriving DecidableEq, Repr

namespace TextField

/-- All text fields, in the order in which messages list them. -/
def all : List TextField := [.title, .author, .bib, .content]

/-- The name of a field. -/
def name : TextField → String
  | .title => "title"
  | .author => "author"
  | .bib => "bib"
  | .content => "content"

/-- The field of a name. -/
def ofName? (name : String) : Option TextField := all.find? (·.name == name)

/-- The number of a field in the index, where the ordinal has number zero. -/
def number : TextField → Nat
  | .title => 1
  | .author => 2
  | .bib => 3
  | .content => 4

theorem mem_all (f : TextField) : f ∈ all := by cases f <;> decide

/-- A field is found by its own name. -/
@[simp] theorem ofName?_name (f : TextField) : ofName? f.name = some f := by cases f <;> decide

theorem name_of_ofName? {name : String} {f : TextField} (h : ofName? name = some f) :
    name = f.name := by
  have hname := List.find?_some h
  exact (beq_iff_eq.mp hname).symm

end TextField

/-- The text of a field. -/
def Document.text? (d : Document) : TextField → Option String
  | .title => d.title
  | .author => d.author
  | .bib => d.bib
  | .content => d.content

/-- The text of the field of a name; there is none in a field that does not exist. -/
def Document.field? (d : Document) (name : String) : Option String :=
  (TextField.ofName? name).bind d.text?

end Concordance
