import Concordance.Corpus.Listing
import Concordance.Growth.Files
import Concordance.Indexing.Sink

/-!
# Concordance.Indexing.Feed

Feeding documents into a sink and, if asked, the growth of their vocabulary into a tracker.
Documents are fed one after the other, and the sink is asked to commit after the last one only.
-/

namespace Concordance.Indexing

open Files Growth

/-- What was done with a list of documents. -/
structure Summary where
  /-- How many documents the sink took. -/
  documents : Nat := 0
  /-- How many tokens the tracker was given. -/
  tokens : UInt64 := 0
  /-- The growth files written. -/
  growthFiles : List String := []
  deriving DecidableEq, Repr

/-- How far the feeding has come. -/
structure Progress (σ : Type) where
  sink : σ
  tracker : Option Tracker
  summary : Summary := {}

/-- A step of the feeding; what it changed stays where it fails. -/
abbrev Feeding (σ α : Type) := ExceptT Fault (StateM (Progress σ)) α

/-- Call the sink. -/
def call (f : σ → Except Fault α × σ) : Feeding σ α :=
  ExceptT.mk fun p =>
    let (answer, sink) := f p.sink
    (answer, { p with sink := sink })

/-- The terms that a document adds to the growth: those of its field. -/
def growthTerms (sink : Sink σ) (field : String) (d : Document) : Feeding σ (List String) :=
  match d.field? field with
  | some text => call (sink.tokenize field text)
  | none => return []

/-- Track the growth of one more document. -/
def track (sink : Sink σ) (field : String) (d : Document) (tracker : Tracker) :
    Feeding σ Unit := do
  let (ordinal, tracker) := tracker.addDocument
  modify fun p => { p with tracker := some tracker }
  let terms ← growthTerms sink field d
  match tracker.addTokens ordinal terms with
  | .error e => throw e
  | .ok tracker =>
    modify fun p =>
      { p with
        tracker := some tracker
        summary := { p.summary with tokens := p.summary.tokens + terms.length.toUInt64 } }

/-- Feed one document, whose ordinal must be its position. -/
def feed (sink : Sink σ) (field : String) (position : Nat) (d : Document) : Feeding σ Unit := do
  if d.ordinal ≠ position then throw (.document d.ordinal position)
  match (← get).tracker with
  | none => pure ()
  | some tracker => track sink field d tracker
  call (sink.add d)
  modify fun p => { p with summary := { p.summary with documents := p.summary.documents + 1 } }

/-- Feed documents from a position on. -/
def feedAll (sink : Sink σ) (field : String) : Nat → List Document → Feeding σ Unit
  | _, [] => return ()
  | position, d :: rest => do
    feed sink field position d
    feedAll sink field (position + 1) rest

/-- Feed documents and commit. -/
def feedAndCommit (sink : Sink σ) (field : String) (documents : List Document) :
    Feeding σ Summary := do
  feedAll sink field 0 documents
  call sink.commit
  return (← get).summary

/-- Where the files are that a sink's state holds. -/
structure Desk (σ : Type) where
  files : σ → Tree
  setFiles : σ → Tree → σ

/-- Write the growth that was tracked to a folder; also the paths of the files. -/
def save (desk : Desk σ) (folder : String) (tracker : Tracker) : Feeding σ (List String) :=
  call fun s =>
    let (t, answer) := tracker.save (desk.files s) folder
    (answer, desk.setFiles s t)

/-- Load a corpus, feed its documents and write their growth if it is tracked.  The growth files
come last, when everything is committed. -/
def feedCorpus (sink : Sink σ) (desk : Desk σ) (corpus : String) (c : Config) :
    Feeding σ Summary := do
  let documents ← call fun s => (Corpus.load (desk.files s) corpus, s)
  modify fun p => { p with tracker := if c.recordsGrowth then some {} else none }
  let summary ← feedAndCommit sink c.field documents
  match (← get).tracker, c.growthFolder with
  | some tracker, some folder =>
    let paths ← save desk folder tracker
    return { summary with growthFiles := paths }
  | _, _ => return summary

/-- The files of the workspace that an index is in. -/
def indexDesk : Desk Sink.Indexed where
  files s := s.workspace.files
  setFiles s t := { s with workspace := { s.workspace with files := t } }

end Concordance.Indexing
