import Concordance.Fault
import Std.Data.HashSet

/-!
# Concordance.Growth.Tracker

Vocabulary growth: for every document, how many distinct terms it had after each token.  The
documents of a tracker are independent of each other.
-/

namespace Concordance.Growth

/-- The size of the vocabulary after a number of tokens. -/
structure Point where
  tokens : UInt64
  vocabulary : UInt64
  deriving DecidableEq, Repr

/-- The growth of one document. -/
structure Curve where
  /-- The distinct terms met so far. -/
  terms : Std.HashSet String := ∅
  /-- The points recorded so far. -/
  points : Array Point := #[]

namespace Curve

/-- The growth with one more term; also whether the term is new. -/
def addTerm (c : Curve) (term : String) : Bool × Curve :=
  if c.terms.contains term then (false, c) else (true, { c with terms := c.terms.insert term })

/-- The next point. -/
def nextPoint (c : Curve) : Point := ⟨(c.points.size + 1).toUInt64, c.terms.size.toUInt64⟩

/-- The growth with the next point recorded. -/
def addPoint (c : Curve) : Point × Curve :=
  (c.nextPoint, { c with points := c.points.push c.nextPoint })

/-- The growth with one more token: its term, then its point. -/
def addToken (c : Curve) (term : String) : Curve := (c.addTerm term).2.addPoint.2

end Curve

/-- The growth of every document of a run, by ordinal. -/
structure Tracker where
  documents : Array Curve := #[]

namespace Tracker

/-- How many documents are tracked. -/
def count (t : Tracker) : Nat := t.documents.size

/-- Track one more document; also its ordinal. -/
def addDocument (t : Tracker) : Nat × Tracker := (t.count, ⟨t.documents.push {}⟩)

/-- Change the growth of one document. -/
def update (t : Tracker) (document : Nat) (f : Curve → α × Curve) : Except Fault (α × Tracker) :=
  if h : document < t.documents.size then
    let (answer, curve) := f t.documents[document]
    .ok (answer, ⟨t.documents.set document curve⟩)
  else .error (.document document t.count)

/-- Add a term to the vocabulary of a document; also whether it is new there. -/
def addTerm (t : Tracker) (document : Nat) (term : String) : Except Fault (Bool × Tracker) :=
  t.update document (·.addTerm term)

/-- Record the point of the token just read. -/
def addPoint (t : Tracker) (document : Nat) : Except Fault (Point × Tracker) :=
  t.update document (·.addPoint)

/-- Record a token: its term, then its point. -/
def addToken (t : Tracker) (document : Nat) (term : String) : Except Fault (Point × Tracker) :=
  match t.addTerm document term with
  | .error e => .error e
  | .ok (_, t) => t.addPoint document

/-- Record tokens one after the other. -/
def addTokens (t : Tracker) (document : Nat) : List String → Except Fault Tracker
  | [] => .ok t
  | term :: terms =>
    match t.addToken document term with
    | .error e => .error e
    | .ok (_, t) => t.addTokens document terms

/-- The growth of a document. -/
def curve (t : Tracker) (document : Nat) : Except Fault Curve :=
  match t.documents[document]? with
  | some c => .ok c
  | none => .error (.document document t.count)

/-- The points of a document. -/
def points (t : Tracker) (document : Nat) : Except Fault (List Point) :=
  (t.curve document).map (·.points.toList)

/-- The size of the vocabulary of a document. -/
def vocabularySize (t : Tracker) (document : Nat) : Except Fault Nat :=
  (t.curve document).map (·.terms.size)

/-- The points of every document, by ordinal. -/
def curves (t : Tracker) : List (List Point) := t.documents.toList.map (·.points.toList)

end Tracker

end Concordance.Growth
