import Concordance.Lexicon.Basic
import Std.Data.HashMap

/-!
# Concordance.Statistics.Table

The statistics of all terms of a field.  A walk through the documents, by ordinal, meets the terms;
of each term met for the first time the source is asked for its document frequency, which is
checked, and then for its collection frequency.  The first failure ends the walk.

The table lists the terms by collection frequency, the highest first, and terms with the same one in
the order in which the walk met them.
-/

namespace Concordance.Statistics

/-- The statistics of one term. -/
structure Entry where
  term : String
  documentFrequency : UInt64
  collectionFrequency : UInt64
  /-- The decimal logarithm of documents per document with the term. -/
  inverseDocumentFrequency : Float
  /-- How often the term occurs in each document, by ordinal. -/
  termFrequencies : List UInt64
  deriving Repr

/-- The entry with another frequency in one document. -/
def Entry.setFrequency (e : Entry) (document : Nat) (frequency : UInt64) : Entry :=
  { e with termFrequencies := e.termFrequencies.set document frequency }

/-- The statistics of all terms of a field. -/
structure Table where
  field : String := ""
  totalDocuments : Nat := 0
  entries : List Entry := []
  /-- Where the entry of each term stands. -/
  positions : Std.HashMap String Nat := ∅
  deriving Repr

/-! ## the walk -/

/-- How far a walk has come. -/
structure Walk where
  /-- The entries of the terms met so far, in the order in which they were met. -/
  entries : Array Entry := #[]
  /-- Where the entry of each term stands. -/
  positions : Std.HashMap String Nat := ∅

/-- The inverse document frequency. -/
def inverseFrequency (total : Nat) (documentFrequency : UInt64) : Float :=
  (total.toUInt64.toFloat / documentFrequency.toFloat).log10

/-- Ask for a document frequency.  It must be positive and at most the number of documents. -/
def askDocumentFrequency (r : Source σ) (total : Nat) (field term : String) :
    Asking σ UInt64 := do
  let n ← .ask (r.documentFrequency field term)
  if n = 0 ∨ total < n.toNat then throw (.lexicon (.inconsistentFrequency n term total))
  else return n

/-- The entry of a term that is met for the first time. -/
def newEntry (r : Source σ) (total : Nat) (field term : String) : Asking σ Entry := do
  let documentFrequency ← askDocumentFrequency r total field term
  let collectionFrequency ← .ask (r.collectionFrequency field term)
  return {
    term := term
    documentFrequency := documentFrequency
    collectionFrequency := collectionFrequency
    inverseDocumentFrequency := inverseFrequency total documentFrequency
    termFrequencies := List.replicate total 0 }

namespace Walk

/-- The walk with one more entry. -/
def push (w : Walk) (e : Entry) : Walk where
  entries := w.entries.push e
  positions := w.positions.insert e.term w.entries.size

/-- The walk with a frequency in a document set at the entry in a position. -/
def setFrequency (w : Walk) (position document : Nat) (frequency : UInt64) : Walk :=
  { w with entries := w.entries.modify position (·.setFrequency document frequency) }

/-- Find the position of a term; a term that is new gets the next one. -/
def locate (r : Source σ) (total : Nat) (field : String) (w : Walk) (term : String) :
    Asking σ (Nat × Walk) := do
  match w.positions[term]? with
  | some position => return (position, w)
  | none =>
    let e ← newEntry r total field term
    return (w.entries.size, w.push e)

/-- Meet a term of a document. -/
def meet (r : Source σ) (total : Nat) (field : String) (document : Nat) (w : Walk)
    (c : TermCount) : Asking σ Walk := do
  let (position, w) ← w.locate r total field c.term
  return w.setFrequency position document c.frequency

/-- Meet the terms of a document's bag. -/
def meetAll (r : Source σ) (total : Nat) (field : String) (document : Nat) :
    Walk → Bag → Asking σ Walk
  | w, [] => return w
  | w, c :: rest => do
    let w ← w.meet r total field document c
    w.meetAll r total field document rest

/-- Visit a document.  One without a bag is passed over. -/
def visit (r : Source σ) (total : Nat) (field : String) (w : Walk) (document : Nat) :
    Asking σ Walk := do
  match ← .ask (r.bag document field) with
  | none => return w
  | some bag => w.meetAll r total field document bag

/-- Visit a number of documents, from an ordinal on. -/
def visitAll (r : Source σ) (total : Nat) (field : String) :
    Walk → (document remaining : Nat) → Asking σ Walk
  | w, _, 0 => return w
  | w, document, remaining + 1 => do
    let w ← w.visit r total field document
    w.visitAll r total field (document + 1) remaining

end Walk

/-! ## the table -/

/-- Whether an entry may stand before another one. -/
def mayPrecede (a b : Entry) : Bool :=
  decide (b.collectionFrequency ≤ a.collectionFrequency)

/-- Where the entry of each term stands in a list. -/
def positionsOf (entries : List Entry) : Std.HashMap String Nat :=
  .ofList (entries.zipIdx.map fun (e, position) => (e.term, position))

/-- The table of a finished walk.  Sorting moves the entries, so their positions are found anew. -/
def Walk.table (total : Nat) (field : String) (w : Walk) : Table :=
  let entries := w.entries.toList.mergeSort mayPrecede
  { field := field
    totalDocuments := total
    entries := entries
    positions := positionsOf entries }

/-- Build the table of a field over a number of documents. -/
def build (r : Source σ) (total : Nat) (field : String) : Asking σ Table := do
  let w ← Walk.visitAll r total field {} 0 total
  return w.table total field

namespace Table

/-- The entry of a term. -/
def lookup (t : Table) (term : String) : Option Entry :=
  t.positions[term]?.bind (t.entries[·]?)

/-- How many entries there are. -/
def size (t : Table) : Nat := t.entries.length

/-- The first entries, all of them if there are fewer. -/
def top (t : Table) (n : Nat) : List Entry := t.entries.take (min n t.size)

end Table

end Concordance.Statistics
