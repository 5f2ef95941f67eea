import Concordance.Lexicon.Basic
import Std.Data.HashMap

/-!
# Concordance.Lexicon.Fixed

A lexicon that holds its documents as they were given, in one field.  A document frequency can be
overridden and the bag of one document can be made unreadable, to see how readers cope.

* `length_ofTokens` — there is one bag for each document.
-/

namespace Concordance

/-- A lexicon with fixed documents. -/
structure FixedLexicon where
  field : String := ""
  bags : List (Option Bag) := []
  documentFrequencies : Std.HashMap String UInt64 := ∅
  collectionFrequencies : Std.HashMap String UInt64 := ∅
  unreadable : Option Nat := none
  generation : Nat := 0

namespace FixedLexicon

/-- A table of numbers with one of them increased. -/
def increase (table : Std.HashMap String UInt64) (term : String) (n : UInt64) :
    Std.HashMap String UInt64 :=
  table.insert term (table.getD term 0 + n)

/-- Count the entry of a bag. -/
def count (s : FixedLexicon) (entry : TermCount) : FixedLexicon :=
  { s with
    documentFrequencies := increase s.documentFrequencies entry.term 1
    collectionFrequencies := increase s.collectionFrequencies entry.term entry.frequency }

/-- The lexicon of explicit bags; the corpus-wide frequencies are counted from them. -/
def ofBags (field : String) (bags : List (Option Bag)) : FixedLexicon :=
  ((bags.filterMap id).flatten).foldl count { field := field, bags := bags }

/-- The counts of tokens, by term. -/
def tally (tokens : List String) : Bag :=
  let counts := tokens.foldl (fun table token => increase table token 1) ∅
  (counts.toList.map fun (term, n) => ⟨term, n⟩).mergeSort fun a b => !(b.term < a.term)

/-- The bag of a document with tokens; without tokens the document lacks the field. -/
def bagOf (tokens : List String) : Option Bag :=
  if tokens.isEmpty then none else some (tally tokens)

/-- The lexicon of documents given by their tokens. -/
def ofTokens (field : String) (documents : List (List String)) : FixedLexicon :=
  ofBags field (documents.map bagOf)

/-- The lexicon with the bag of a document made unreadable. -/
def failingOn (s : FixedLexicon) (document : Nat) : FixedLexicon :=
  { s with unreadable := some document }

/-- The lexicon with another document frequency for a term. -/
def overriding (s : FixedLexicon) (term : String) (n : UInt64) : FixedLexicon :=
  { s with documentFrequencies := s.documentFrequencies.insert term n }

/-- A number of a term; other fields are empty. -/
def frequency (s : FixedLexicon) (table : Std.HashMap String UInt64) (field term : String) :
    UInt64 :=
  if field = s.field then table.getD term 0 else 0

/-- The bag of a document. -/
def bag (s : FixedLexicon) (document : Nat) (field : String) :
    Except Fault (Option Bag) :=
  if s.unreadable = some document then .error (.lexicon (.unreadableBag document))
  else
    match s.bags[document]? with
    | none => .error (.lexicon (.noDocument document))
    | some v => .ok (if field = s.field then v else none)

/-- The answers of a fixed lexicon. -/
def lexicon (s : FixedLexicon) : Lexicon where
  generation := s.generation
  total := .ok s.bags.length
  documentFrequency field term := .ok (s.frequency s.documentFrequencies field term)
  collectionFrequency field term := .ok (s.frequency s.collectionFrequencies field term)
  bag := s.bag

/-- Whether a question looks up a frequency. -/
def isLookup : Question → Bool
  | .documentFrequency _ _ => true
  | .collectionFrequency _ _ => true
  | _ => false

/-- How many of the questions look up a frequency. -/
def lookups (asked : List Question) : Nat := asked.countP isLookup

theorem bags_count (s : FixedLexicon) (entry : TermCount) : (s.count entry).bags = s.bags :=
  rfl

/-- There is one bag for each document. -/
theorem length_ofTokens (field : String) (documents : List (List String)) :
    (ofTokens field documents).bags.length = documents.length := by
  suffices h : ∀ (entries : List TermCount) (s : FixedLexicon),
      (entries.foldl count s).bags = s.bags by
    simp [ofTokens, ofBags, h]
  intro entries
  induction entries with
  | nil => intro s; rfl
  | cons e es ih => intro s; rw [List.foldl_cons, ih, bags_count]

end FixedLexicon

end Concordance
