import Concordance.Index.Entry
import Concordance.Lexicon.Fixed

/-!
# Concordance.Index.View

What the published segments say about a field, by document.  The postings of each segment are
walked term by term in byte order, and what they say about a document is gathered in the slot of its
ordinal; an ordinal for which there is no slot spoils the view of the field.

Document frequencies are counted apart from the view and do not suffer from that.

* `size_add` — gathering a posting adds no slot.
-/

namespace Concordance.Index

open FixedLexicon (increase tally)

/-- A term in a document of a segment. -/
structure Posting where
  term : String
  ordinal : Nat
  frequency : UInt64
  deriving DecidableEq, Repr

/-- The postings of a field of one document. -/
def entryPostings (field : TextField) (e : Entry) : List Posting :=
  (tally (e.terms field)).map fun c => ⟨c.term, e.ordinal, c.frequency⟩

/-- The postings of a field of a segment: by term, and for each term in the order in which the
documents were added. -/
def postings (field : TextField) (s : Segment) : List Posting :=
  (s.flatMap (entryPostings field)).mergeSort fun a b => !(b.term < a.term)

/-- The terms of each document by ordinal, and how often each term occurs in all of them. -/
structure View where
  slots : Array (Option (Array TermCount))
  collection : Std.HashMap String UInt64 := ∅
  deriving Repr

namespace View

/-- Gather one posting.  The array of a slot is taken out while it grows. -/
def add (v : View) (p : Posting) : Except Fault View :=
  match v.slots[p.ordinal]? with
  | none => .error (.lexicon (.ordinalBeyond p.ordinal v.slots.size))
  | some slot =>
    let slots := v.slots.setIfInBounds p.ordinal none
    .ok
      { slots := slots.setIfInBounds p.ordinal
          (some ((slot.getD #[]).push ⟨p.term, p.frequency⟩))
        collection := increase v.collection p.term p.frequency }

/-- Gathering a posting adds no slot. -/
theorem size_add {v w : View} {p : Posting} (h : v.add p = .ok w) :
    w.slots.size = v.slots.size := by
  unfold add at h
  split at h
  · contradiction
  · obtain rfl := Except.ok.inj h
    simp

/-- Gather postings, up to one without a slot. -/
def addAll : View → List Posting → Except Fault View
  | v, [] => .ok v
  | v, p :: ps =>
    match v.add p with
    | .error e => .error e
    | .ok v => v.addAll ps

/-- The view of a field of all segments. -/
def ofSegments (segments : List Segment) (field : TextField) : Except Fault View :=
  addAll { slots := Array.replicate segments.flatten.length none }
    (segments.flatMap (postings field))

/-- The terms of a document. -/
def bag (v : View) (ordinal : Nat) : Except Fault (Option Bag) :=
  match v.slots[ordinal]? with
  | none => .error (.lexicon (.noDocument ordinal))
  | some slot => .ok (slot.map Array.toList)

end View

/-- In how many documents of the segments a term occurs. -/
def documentFrequency (segments : List Segment) (field : TextField) (term : String) : UInt64 :=
  (segments.flatten.countP fun e => (e.tokens field).any (·.text == term)).toUInt64

/-- The field of a name, which must be a text field. -/
def textField (name : String) : Except Fault TextField :=
  match TextField.ofName? name with
  | some f => .ok f
  | none => .error (.lexicon (.unknownField name))

end Concordance.Index
