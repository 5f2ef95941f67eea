import Concordance.Index.View

/-!
# Concordance.Index.Basic

An index: the segments stored, those of them that reads see, and a writer with the documents added
since the last commit.  A commit stores them as one more segment; then the segments are read anew,
which starts a new generation.

The view of a field is made when a read first needs it, and kept until the segments are read anew.

* `generation_commit` — every commit starts a new generation;
* `views_commit` — no view outlives a commit.
-/

namespace Concordance

namespace Index

/-- The documents added since the writer was opened, the last one first, and the segments they will
be published after. -/
structure Writer where
  base : List Segment
  queue : List Entry := []
  deriving Repr

/-- The segments after a writer's commit.  Without documents there is no new segment. -/
def Writer.segments (w : Writer) : List Segment :=
  if w.queue.isEmpty then w.base else w.base ++ [w.queue.reverse]

/-- The memory in bytes at which a writer's budget is too large. -/
def writerMemoryLimit : Nat := 4293967295

/-- Check the memory of a writer. -/
def checkMemory (memory : Nat) : Except Fault Unit :=
  if memory < leastWriterMemory then .error (.index .tooLittleMemory)
  else if writerMemoryLimit ≤ memory then .error (.index .tooMuchMemory)
  else .ok ()

end Index

/-- An index of documents. -/
structure Index where
  analyzer : Analyzer
  /-- The memory that a writer is given. -/
  writerMemory : Nat
  /-- The segments that are stored. -/
  stored : List Index.Segment := []
  /-- The segments that reads see. -/
  published : List Index.Segment := []
  writer : Option Index.Writer := none
  /-- How often the stored segments have been read anew. -/
  generation : Nat := 0
  /-- The views that have been made of the published segments, by the name of the field. -/
  views : Std.HashMap String Index.View := ∅
  deriving Repr

namespace Index

/-- An empty index in memory. -/
def empty (c : Config) : Index :=
  { analyzer := Analyzer.ofConfig c, writerMemory := c.writerMemory }

/-- The index with a writer, opened on the stored segments if there is none. -/
def withWriter (i : Index) : Except Fault Index :=
  match i.writer with
  | some _ => .ok i
  | none =>
    match checkMemory i.writerMemory with
    | .error e => .error e
    | .ok () => .ok { i with writer := some { base := i.stored } }

/-- Queue a document in an open writer. -/
def enqueue (i : Index) (d : Document) : Index :=
  { i with
    writer := i.writer.map fun w => { w with queue := Entry.ofDocument i.analyzer d :: w.queue } }

/-- Add a document, opening a writer if needed. -/
def add (i : Index) (d : Document) : Except Fault Index :=
  match i.withWriter with
  | .error e => .error e
  | .ok i => .ok (i.enqueue d)

/-- The index with its writer closed and what was added stored. -/
def store (i : Index) : Index :=
  match i.writer with
  | none => i
  | some w => { i with stored := w.segments, writer := none }

/-- The index with the stored segments read anew. -/
def reload (i : Index) : Index :=
  { i with published := i.stored, generation := i.generation + 1, views := ∅ }

/-- Publish what was added. -/
def commit (i : Index) : Index := i.store.reload

/-- The terms of a text in a field, in order. -/
def tokenize (i : Index) (field text : String) : Except Fault (List String) :=
  match textField field with
  | .error e => .error e
  | .ok f => .ok (i.analyzer.terms f text)

/-! ## reading -/

/-- The view of the field of a name, which is made if there is none. -/
def view (name : String) (i : Index) : Except Fault View × Index :=
  match i.views[name]? with
  | some v => (.ok v, i)
  | none =>
    match textField name with
    | .error e => (.error e, i)
    | .ok field =>
      match View.ofSegments i.published field with
      | .error e => (.error e, i)
      | .ok v => (.ok v, { i with views := i.views.insert name v })

/-- Answer from the view of a field. -/
def ofView (name : String) (f : View → Except Fault α) (i : Index) : Except Fault α × Index :=
  let (v, i) := i.view name
  (v.bind f, i)

/-- The published documents as a source of term statistics. -/
def source : Source Index where
  generation i := (i.generation, i)
  total i := (.ok i.published.flatten.length, i)
  documentFrequency name term i :=
    ((textField name).map fun field => documentFrequency i.published field term, i)
  collectionFrequency name term := ofView name fun v => .ok (v.collection.getD term 0)
  bag document name := ofView name fun v => v.bag document

/-- The description of an index. -/
def describe (i : Index) : String :=
  "TantivyBackend \x7b generation: " ++ Decimal.numeral i.generation ++ ", writer_open: " ++
    (if i.writer.isSome then "true" else "false") ++ " \x7d"

/-- Every commit starts a new generation. -/
theorem generation_commit (i : Index) : i.commit.generation = i.generation + 1 := by
  unfold commit reload store
  cases i.writer <;> rfl

/-- No view outlives a commit. -/
theorem views_commit (i : Index) : i.commit.views = ∅ := rfl

end Index

end Concordance
