import Concordance.Proofs.Index.Arranged
import Concordance.Proofs.Statistics.Session

/-!
# Concordance.Proofs.Index.History

What reads see in the course of adding and committing documents to an index in memory, with one
session that is asked for tables all along.

The invariant has a part for the index, which is `Holds`, and one for the session: a table of the
present generation is the one that the published segments give.

* `Keeps.commit`, `Keeps.table_eq` — what a commit does to a table kept, and what a session answers;
* `Read.run_eq` — a read answers what the published segments say;
* `read_after_steps` — every read answers as on an index that was given the committed
  documents only.
-/

namespace Concordance.Index

open Statistics (Session Table buildAll)

/-! ## reads and steps -/

/-- An index and the session that is asked for its tables. -/
structure Reader where
  index : Index
  session : Session

/-- A read. -/
inductive Read
  | total
  | documentFrequency (field term : String)
  | collectionFrequency (field term : String)
  | bag (document : Nat) (field : String)
  | table

/-- What a read gives. -/
abbrev Read.Result : Read → Type
  | .total => Nat
  | .documentFrequency _ _ => UInt64
  | .collectionFrequency _ _ => UInt64
  | .bag _ _ => Option Bag
  | .table => Table

/-- The reader after an answer of the index. -/
def Reader.keep (w : Reader) (answer : Except Fault α × Index) : Except Fault α × Reader :=
  (answer.1, { w with index := answer.2 })

/-- The answer of a read, and the reader afterwards. -/
def Read.run (w : Reader) : (r : Read) → Except Fault r.Result × Reader
  | .total => w.keep (source.total w.index)
  | .documentFrequency field term => w.keep (source.documentFrequency field term w.index)
  | .collectionFrequency field term => w.keep (source.collectionFrequency field term w.index)
  | .bag document field => w.keep (source.bag document field w.index)
  | .table =>
    let ((answer, session), index) := w.session.table source w.index
    (answer, { index := index, session := session })

/-- A step in the course of an index. -/
inductive Step
  | add (d : Document)
  | commit
  | read (r : Read)

/-- The reader after a step.  A document that is refused leaves it as it was. -/
def Reader.step (w : Reader) : Step → Reader
  | .add d =>
    match w.index.add d with
    | .ok i => { w with index := i }
    | .error _ => w
  | .commit => { w with index := w.index.commit }
  | .read r => (r.run w).2

/-- The reader of an index in memory after steps. -/
def after (c : Config) (field : String) (steps : List Step) : Reader :=
  steps.foldl Reader.step { index := Index.empty c, session := { field := field } }

/-- The document that a step adds. -/
def Step.document? : Step → Option Document
  | .add d => some d
  | _ => none

/-- Whether a step is a commit. -/
def Step.isCommit : Step → Bool
  | .commit => true
  | _ => false

/-- The documents added, in order. -/
def added (steps : List Step) : List Document := steps.filterMap Step.document?

/-- The steps up to the last commit. -/
def untilLastCommit (steps : List Step) : List Step :=
  (steps.reverse.dropWhile (!·.isCommit)).reverse

/-- The documents added before the last commit, in order. -/
def committed (steps : List Step) : List Document := added (untilLastCommit steps)

theorem added_append_singleton (steps : List Step) (s : Step) :
    added (steps ++ [s]) = added steps ++ s.document?.toList := by
  rw [added, List.filterMap_append]
  cases h : s.document? <;> simp [added, h]

/-- A commit commits all documents added; no other step commits any. -/
theorem committed_append_singleton (steps : List Step) (s : Step) :
    committed (steps ++ [s]) = if s.isCommit then added (steps ++ [s]) else committed steps := by
  unfold committed untilLastCommit
  rw [List.reverse_append, List.reverse_singleton, List.singleton_append, List.dropWhile_cons]
  cases s.isCommit <;> simp

theorem committed_prefix_added (steps : List Step) : committed steps <+: added steps := by
  have hsteps : untilLastCommit steps <+: steps := by
    rw [← List.reverse_suffix, untilLastCommit, List.reverse_reverse]
    exact List.dropWhile_suffix _
  exact hsteps.filterMap _

/-! ## the table of a session -/

/-- What a session keeps that has been asked for tables of an index: a table of the present
generation is the one that the published segments give. -/
structure Keeps (field : String) (i : Index) (s : Session) : Prop where
  about : s.field = field
  generation : ∀ g t, s.kept = some (g, t) → g ≤ i.generation
  table : ∀ t, s.kept = some (i.generation, t) →
    (buildAll (visible i.published i.generation).recorded field).answer = .ok t

namespace Keeps

variable {field : String} {i j : Index} {s : Session}

theorem new (field : String) (i : Index) : Keeps field i { field := field } where
  about := rfl
  generation g t h := by cases h
  table t h := by cases h

/-- What is kept stays right while the published segments are the same. -/
theorem of_same (h : Keeps field i s) (hpublished : j.published = i.published)
    (hgeneration : j.generation = i.generation) : Keeps field j s := by
  refine ⟨h.about, ?_, ?_⟩
  · rw [hgeneration]
    exact h.generation
  · rw [hgeneration, hpublished]
    exact h.table

/-- No table kept is of the generation that comes next. -/
theorem later (h : Keeps field i s) (hgeneration : j.generation = i.generation + 1) :
    Keeps field j s := by
  refine ⟨h.about, fun g t hkept => ?_, fun t hkept => ?_⟩
  · rw [hgeneration]
    exact Nat.le_succ_of_le (h.generation g t hkept)
  · rw [hgeneration] at hkept
    exact absurd (h.generation _ t hkept) (Nat.not_succ_le_self _)

theorem commit (h : Keeps field i s) : Keeps field i.commit s := h.later (generation_commit i)

/-- The table built of the published segments may be kept. -/
theorem settle (hfield : s.field = field) :
    Keeps field i (s.settle i.generation
      (buildAll (visible i.published i.generation).recorded field).answer).2 where
  about := (s.field_settle _ _).trans hfield
  generation g t hkept := by
    obtain ⟨rfl, -⟩ := Session.kept_settle.mp hkept
    exact Nat.le_refl _
  table t hkept := (Session.kept_settle.mp hkept).2

/-- A table that is not kept is built of the published segments. -/
theorem table_of_stale (hfield : s.field = field) (hi : i.Coherent)
    (hfresh : s.fresh? i.generation = none) :
    (s.table source i).1.1 =
        (buildAll (visible i.published i.generation).recorded field).answer ∧
      i.AfterReads (s.table source i).2 ∧ Keeps field i (s.table source i).1.2 := by
  obtain ⟨halike, hafter⟩ :=
    Statistics.buildAll_agrees (fun _ => rfl) (agree_source i i.generation) s.field i []
      hi.afterReads
  -- the index answers the build as the segments do, whichever views it has made before
  have hbuilt : (ExceptT.run (buildAll source s.field) i).1 =
      (buildAll (visible i.published i.generation).recorded field).answer := by
    rw [halike.eq, hfield]
    rfl
  rw [Session.table_of_stale (r := source) hfresh, Session.settle_answer]
  change (ExceptT.run (buildAll source s.field) i).1 = _ ∧ i.AfterReads
    (ExceptT.run (buildAll source s.field) i).2 ∧ Keeps field i (s.settle i.generation
      (ExceptT.run (buildAll source s.field) i).1).2
  rw [hbuilt]
  exact ⟨rfl, hafter, settle hfield⟩

/-- A table is what the published segments give, kept or not. -/
theorem table_eq (h : Keeps field i s) (hi : i.Coherent) :
    (s.table source i).1.1 =
        (buildAll (visible i.published i.generation).recorded field).answer ∧
      i.AfterReads (s.table source i).2 ∧ Keeps field i (s.table source i).1.2 := by
  cases hfresh : s.fresh? i.generation with
  | some t =>
      rw [Session.table_of_fresh (r := source) hfresh]
      exact ⟨(h.table t (Session.fresh?_eq_some.mp hfresh)).symm, hi.afterReads, h⟩
  | none => exact table_of_stale h.about hi hfresh

end Keeps

/-! ## runs of steps -/

/-- What a lexicon answers to a read. -/
def Read.expected (l : Lexicon) (field : String) : (r : Read) → Except Fault r.Result
  | .total => l.total
  | .documentFrequency name term => l.documentFrequency name term
  | .collectionFrequency name term => l.collectionFrequency name term
  | .bag document name => l.bag document name
  | .table => (buildAll l.recorded field).answer

variable {c : Config} {field : String}

/-- A read answers what the published segments say, and leaves them. -/
theorem Read.run_eq {w : Reader} (hi : w.index.Coherent) (hs : Keeps field w.index w.session)
    (r : Read) :
    (r.run w).1 = r.expected (visible w.index.published w.index.generation) field ∧
      w.index.AfterReads (r.run w).2.index ∧ Keeps field w.index (r.run w).2.session := by
  have hsource := agree_source w.index w.index.generation
  cases r with
  | total =>
      obtain ⟨halike, hafter⟩ := hsource.total w.index [] hi.afterReads
      exact ⟨halike.eq, hafter, hs⟩
  | documentFrequency name term =>
      obtain ⟨halike, hafter⟩ := hsource.documentFrequency name term w.index [] hi.afterReads
      exact ⟨halike.eq, hafter, hs⟩
  | collectionFrequency name term =>
      obtain ⟨halike, hafter⟩ := hsource.collectionFrequency name term w.index [] hi.afterReads
      exact ⟨halike.eq, hafter, hs⟩
  | bag document name =>
      obtain ⟨halike, hafter⟩ := hsource.bag document name w.index [] hi.afterReads
      exact ⟨halike.eq, hafter, hs⟩
  | table => exact hs.table_eq hi

theorem Read.expected_alike {E : Fault → Fault → Prop} (hE : ∀ e, E e e) {l m : Lexicon}
    (h : Source.Agree E (fun _ _ => True) l.recorded m.recorded) (r : Read) :
    Alike E (r.expected l field) (r.expected m field) := by
  cases r with
  | total => exact (h.total [] [] trivial).1
  | documentFrequency name term => exact (h.documentFrequency name term [] [] trivial).1
  | collectionFrequency name term => exact (h.collectionFrequency name term [] [] trivial).1
  | bag document name => exact (h.bag document name [] [] trivial).1
  | table => exact (Statistics.buildAll_agrees hE h field [] [] trivial).1

/-- One more step keeps both parts of the invariant. -/
theorem Reader.step_invariant {steps : List Step} {w : Reader}
    (hi : Holds c (committed steps) (added steps) w.index)
    (hs : Keeps field w.index w.session) (s : Step) :
    Holds c (committed (steps ++ [s])) (added (steps ++ [s])) (w.step s).index ∧
      Keeps field (w.step s).index (w.step s).session := by
  rw [committed_append_singleton, added_append_singleton]
  cases s with
  | add d =>
      cases hadd : w.index.add d with
      | error e =>
          simp only [step, hadd]
          exact ⟨hi.add_refused hadd, hs⟩
      | ok i =>
          obtain ⟨writer, hsame, -⟩ := add_ok hadd
          simp only [step, hadd]
          exact ⟨hi.add hadd, hs.of_same (by rw [hsame]) (by rw [hsame])⟩
  | commit =>
      have hcommit := hi.commit
      rw [← List.append_nil (added steps)] at hcommit
      exact ⟨hcommit, hs.commit⟩
  | read r =>
      obtain ⟨-, hafter, hsession⟩ := r.run_eq hi.coherent hs
      have hindex := hi.afterReads hafter
      rw [← List.append_nil (added steps)] at hindex
      exact ⟨hindex, hsession.of_same hafter.published hafter.generation⟩

/-- After any steps the index holds the documents of the steps, and the session a table of them. -/
theorem after_invariant (c : Config) (field : String) (steps : List Step) :
    Holds c (committed steps) (added steps) (after c field steps).index ∧
      Keeps field (after c field steps).index (after c field steps).session := by
  induction steps using List.reverseRecOn with
  | nil => exact ⟨.empty c, .new field _⟩
  | append_singleton steps s ih =>
      rw [after, List.foldl_append]
      exact Reader.step_invariant ih.1 ih.2 s

/-- The steps that give an index its documents and commit them once. -/
def once (documents : List Document) : List Step := documents.map .add ++ [.commit]

theorem committed_once (documents : List Document) : committed (once documents) = documents := by
  rw [once, committed_append_singleton]
  simp [added, Step.isCommit, Step.document?, List.filterMap_map, Function.comp_def]

/-- **Visibility**: after any steps a read answers as on an index that was given, once, the
documents added before the last commit, or fails on both. -/
theorem read_after_steps (c : Config) (field : String) (steps : List Step)
    (h : ((added steps).map Document.ordinal).Nodup) (r : Read) :
    (r.run (after c field steps)).1.toOption =
      (r.run (after c field (once (committed steps)))).1.toOption := by
  obtain ⟨hi, hs⟩ := after_invariant c field steps
  obtain ⟨hi', hs'⟩ := after_invariant c field (once (committed steps))
  rw [committed_once] at hi'
  -- two documents of one ordinal would stand in another order in other segments
  have hnodup : ((after c field steps).index.published.flatten.map Entry.ordinal).Nodup := by
    rw [hi.published]
    refine .sublist (ordinals_entries c _) (.sublist ?_ h)
    exact (committed_prefix_added steps).sublist.map Document.ordinal
  have hagree := agree_visible (hi.published.trans hi'.published.symm) hnodup
    (after c field steps).index.generation
    (after c field (once (committed steps))).index.generation
  rw [(r.run_eq hi.coherent hs).1, (r.run_eq hi'.coherent hs').1]
  exact (r.expected_alike (fun _ => trivial) hagree).toOption_eq

/-- One document is committed, read and followed by another one, which is not committed. -/
def halfCommitted : List Step :=
  [.add { ordinal := 0, content := some "cat" }, .commit, .read .total, .read .table,
    .add { ordinal := 1, content := some "dog" }]

/-- The document that is not committed is not counted, and the table built before it was added is
that of the other document alone. -/
theorem read_after_halfCommitted :
    ((added halfCommitted).map Document.ordinal).Nodup ∧
      (Read.total.run (after {} "content" halfCommitted)).1.toOption = some 1 ∧
      ∃ t : Table, (Read.table.run (after {} "content" halfCommitted)).1.toOption = some t ∧
        t.entries.map Statistics.Entry.term = ["cat"] := by
  have hnodup : ((added halfCommitted).map Document.ordinal).Nodup := by decide
  refine ⟨hnodup, ?_, ?_⟩
  · rw [read_after_steps {} "content" halfCommitted hnodup .total]
    rfl
  rw [read_after_steps {} "content" halfCommitted hnodup .table]
  obtain ⟨hi, hs⟩ := after_invariant {} "content" (once (committed halfCommitted))
  rw [committed_once] at hi
  have harranges : Arranges .content [["cat"]]
      (after {} "content" (once (committed halfCommitted))).index.published.flatten := by
    have hterms : fieldTerms (Analyzer.ofConfig {}) .content
        { ordinal := 0, content := some "cat" } = ["cat"] := by cbv
    rw [hi.published]
    refine arranges_ofDocument (a := Analyzer.ofConfig {}) (by decide) (fun d hd => ?_) (by decide)
    obtain rfl := List.mem_singleton.mp hd
    rw [hterms]
    rfl
  obtain ⟨t, e, htable, -, hentries, hterm⟩ := exists_table_singleton harranges
    (after {} "content" (once (committed halfCommitted))).index.generation
  refine ⟨t, ?_, by rw [hentries, List.map_singleton, hterm]⟩
  rw [(Read.table.run_eq hi.coherent hs).1]
  exact congrArg Except.toOption htable

end Concordance.Index
