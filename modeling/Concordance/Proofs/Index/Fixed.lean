import Concordance.Proofs.Index.History
import Mathlib

/-!
# Concordance.Proofs.Index.Fixed

An index in memory against a lexicon of fixed documents, over the course of adding and committing
them.

* `arranges_published` — the documents of steps stand by their ordinals once they are committed;
* `read_as_ofTokens` — every read of a field gives the same, tables included.
-/

namespace Concordance.Index

open FixedLexicon (ofTokens)
open Statistics (Table buildAll)

/-! ## the course of an index -/

/-- Whether a read is about a field. -/
def Read.IsAbout (field : String) : Read → Prop
  | .total => True
  | .documentFrequency name _ => name = field
  | .collectionFrequency name _ => name = field
  | .bag _ name => name = field
  | .table => True

theorem Read.expected_eq {field : String} {l m : Lexicon}
    (h : Source.AgreeOn Eq (fun _ _ => True) field l.recorded m.recorded) {r : Read}
    (hr : r.IsAbout field) : r.expected l field = r.expected m field := by
  cases r with
  | total => exact (h.total [] [] trivial).1.eq
  | documentFrequency name term =>
      obtain rfl := hr
      exact (h.documentFrequency term [] [] trivial).1.eq
  | collectionFrequency name term =>
      obtain rfl := hr
      exact (h.collectionFrequency term [] [] trivial).1.eq
  | bag document name =>
      obtain rfl := hr
      exact (h.bag document [] [] trivial).1.eq
  | table => exact (Statistics.buildAll_agrees_on (fun _ => rfl) h [] [] trivial).1.eq

/-- The documents of steps, once they are committed, by their ordinals. -/
theorem arranges_published {c : Config} {field : TextField} {steps : List Step}
    {documents : List (List String)} {i : Index} (hi : Holds c (committed steps) (added steps) i)
    (hmemory : checkMemory c.writerMemory = .ok ())
    (hordinals : ((added steps).map Document.ordinal).Perm (List.range documents.length))
    (hcommitted : committed steps = added steps)
    (hdocuments : ∀ d ∈ added steps,
      documents[d.ordinal]? = some (fieldTerms (Analyzer.ofConfig c) field d))
    (hshort : ∀ terms ∈ documents, ∀ term ∈ terms, term.utf8ByteSize ≤ longestToken) :
    Arranges field documents i.published.flatten := by
  have hpublished : i.published.flatten =
      (added steps).map (Entry.ofDocument (Analyzer.ofConfig c)) := by
    rw [hi.published, hcommitted, entries, hmemory]
  rw [hpublished]
  exact arranges_ofDocument hordinals hdocuments hshort

/-- **Agreement with fixed documents**: documents may be added in any order, with commits anywhere
between them.  Once all are committed, every read of a field answers as the lexicon that was given
the terms of that field by ordinal, and so does the table of a session. -/
theorem read_as_ofTokens (c : Config) (field : TextField) (steps : List Step)
    (documents : List (List String)) (hmemory : checkMemory c.writerMemory = .ok ())
    (hordinals : ((added steps).map Document.ordinal).Perm (List.range documents.length))
    (hcommitted : committed steps = added steps)
    (hdocuments : ∀ d ∈ added steps,
      documents[d.ordinal]? = some (fieldTerms (Analyzer.ofConfig c) field d))
    (hshort : ∀ terms ∈ documents, ∀ term ∈ terms, term.utf8ByteSize ≤ longestToken) :
    (∀ r : Read, r.IsAbout field.name → (r.run (after c field.name steps)).1 =
      r.expected (ofTokens field.name documents).lexicon field.name) ∧
    (Read.total.run (after c field.name steps)).1 = .ok documents.length ∧
    (∀ d, documents.length ≤ d → ((Read.bag d field.name).run (after c field.name steps)).1 =
      .error (.lexicon (.noDocument d))) ∧
    (documents.length < Decimal.wordLimit →
      ∃ t : Table, (Read.table.run (after c field.name steps)).1 = .ok t) ∧
    ∀ text, (after c field.name steps).index.tokenize field.name text =
      .ok ((Analyzer.ofConfig c).terms field text) := by
  obtain ⟨hi, hs⟩ := after_invariant c field.name steps
  have harranges := arranges_published hi hmemory hordinals hcommitted hdocuments hshort
  have hread : ∀ r : Read, r.IsAbout field.name → (r.run (after c field.name steps)).1 =
      r.expected (ofTokens field.name documents).lexicon field.name := fun r hr => by
    rw [(r.run_eq hi.coherent hs).1]
    exact Read.expected_eq (agreeOn_ofTokens harranges _) hr
  refine ⟨hread, ?_, fun d hd => ?_, fun hword => ?_, fun text => ?_⟩
  · rw [hread .total trivial]
    exact FixedLexicon.total_ofTokens field.name documents
  · rw [hread (.bag d field.name) rfl, Read.expected, FixedLexicon.bag_ofTokens,
      List.getElem?_eq_none hd]
  · obtain ⟨t, ht⟩ := exists_table_ofTokens field.name hword
    exact ⟨t, (hread .table trivial).trans ht⟩
  · rw [Index.tokenize, textField, TextField.ofName?_name, hi.analyzer]

/-- Three documents in another order than that of their ordinals, two of them committed together and
one of them without content. -/
def outOfOrder : List Step :=
  [.add { ordinal := 1, content := some "Dog dog cat" }, .commit,
    .add { ordinal := 2, title := some "cat" }, .add { ordinal := 0, content := some "cat" }, .commit]

/-- The terms of their content by ordinal. -/
def inOrder : List (List String) := [["cat"], ["dog", "dog", "cat"], []]

theorem terms_outOfOrder : ∀ d ∈ added outOfOrder,
    inOrder[d.ordinal]? = some (fieldTerms (Analyzer.ofConfig {}) .content d) := by
  have hdog : fieldTerms (Analyzer.ofConfig {}) .content
      { ordinal := 1, content := some "Dog dog cat" } = ["dog", "dog", "cat"] := by cbv
  have hcat : fieldTerms (Analyzer.ofConfig {}) .content
      { ordinal := 0, content := some "cat" } = ["cat"] := by cbv
  intro d hd
  simp only [added, outOfOrder, Step.document?, List.filterMap_cons, List.filterMap_nil,
    List.mem_cons, List.not_mem_nil, or_false] at hd
  obtain rfl | rfl | rfl := hd
  · rw [hdog]
    rfl
  · rfl
  · rw [hcat]
    rfl

/-- A document without content has no terms, and two of the three documents have the other term. -/
theorem read_as_ofTokens_outOfOrder :
    (Read.total.run (after {} "content" outOfOrder)).1 = .ok 3 ∧
      ((Read.documentFrequency "content" "cat").run (after {} "content" outOfOrder)).1 = .ok 2 ∧
      ((Read.bag 2 "content").run (after {} "content" outOfOrder)).1 = .ok none ∧
      ∃ t : Table, (Read.table.run (after {} "content" outOfOrder)).1 = .ok t := by
  obtain ⟨hread, htotal, -, htable, -⟩ := read_as_ofTokens {} .content outOfOrder inOrder rfl
    (by decide) (by decide) terms_outOfOrder (by decide)
  refine ⟨htotal, ?_, ?_, htable (by decide)⟩
  · refine (hread (.documentFrequency "content" "cat") rfl).trans ?_
    exact FixedLexicon.documentFrequency_ofTokens "content" inOrder "cat"
  · refine (hread (.bag 2 "content") rfl).trans ?_
    exact FixedLexicon.bag_ofTokens "content" inOrder 2

end Concordance.Index
