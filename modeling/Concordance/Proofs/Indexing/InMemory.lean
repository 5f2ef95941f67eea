import Concordance.Proofs.Index.Fixed
import Concordance.Proofs.Indexing.Course
import Concordance.Proofs.Statistics.Tokens
import Mathlib

/-!
# Concordance.Proofs.Indexing.InMemory

Documents that are fed into an index in memory while their growth is tracked.  The growth is read
from the tokens as they pass, and the table from the postings of the index; both count the same.

* `Keeping.fed` — the index holds what was fed, and its terms were those of the tracker;
* `table_agrees_with_growth` — sums over the table against the points of the tracker.
-/

namespace Concordance.Indexing

open FixedLexicon (ofTokens)
open Growth (Tracker growthPoints)
open Index (Holds checkMemory fieldTerms longestToken)
open Sink (Course)
open Statistics (Table build buildAll)

/-- The sink is an index in memory that was given documents, some of them committed. -/
structure Keeping (c : Config) (done all : List Document) (s : Sink.Indexed) : Prop where
  folder : s.index.folder = none
  holds : Holds c done all s.index.index

namespace Keeping

variable {c : Config} {field : TextField} {done all : List Document} {s u : Sink.Indexed}

theorem inMemory (c : Config) (w : Workspace) : Keeping c [] [] ⟨w, .inMemory c⟩ :=
  ⟨rfl, Holds.empty c⟩

theorem terms_eq (h : Keeping c done all s) {text : String} {terms : List String}
    (hcall : Sink.ofIndex.Answers s (.tokenized field.name text (.ok terms)) u) :
    u = s ∧ terms = (Analyzer.ofConfig c).terms field text := by
  obtain ⟨hterms, rfl⟩ := Prod.mk.inj hcall
  refine ⟨rfl, ?_⟩
  rw [Index.tokenize, Index.textField, TextField.ofName?_name, h.holds.analyzer] at hterms
  exact (Except.ok.inj hterms).symm

/-- A document that is taken is held, and shows that a writer can be opened. -/
theorem add (h : Keeping c done all s) {d : Document}
    (hcall : Sink.ofIndex.Answers s (.added d (.ok ())) u) :
    Keeping c done (all ++ [d]) u ∧ checkMemory c.writerMemory = .ok () := by
  obtain ⟨hfolder, hholds⟩ := h
  obtain ⟨w, i, folder⟩ := s
  obtain rfl : folder = none := hfolder
  have hstep : Sink.step id (·.add d) ⟨w, i, none⟩ = (.ok (), u) := hcall
  have hrun : ExceptT.run (OpenIndex.add ⟨i, none⟩ d) w =
      ((i.add d).map fun i => ⟨i, none⟩, w) := by
    rw [OpenIndex.add]
    cases i.add d <;> rfl
  rw [Sink.step, hrun] at hstep
  cases hadd : i.add d with
  | error e =>
      rw [hadd] at hstep
      cases hstep
  | ok j =>
      rw [hadd] at hstep
      obtain ⟨-, rfl⟩ := Prod.mk.inj hstep
      obtain ⟨writer, rfl, -, hwriter⟩ := Index.add_ok hadd
      refine ⟨⟨rfl, hholds.add hadd⟩, ?_⟩
      exact hwriter.elim hholds.writer fun hmemory => hholds.writerMemory ▸ hmemory

theorem commit (h : Keeping c done all s)
    (hcall : Sink.ofIndex.commit s = (.ok (), u)) : Keeping c all all u := by
  obtain ⟨hfolder, hholds⟩ := h
  obtain ⟨w, i, folder⟩ := s
  obtain rfl : folder = none := hfolder
  obtain ⟨-, rfl⟩ := Prod.mk.inj hcall
  exact ⟨rfl, hholds.commit⟩

theorem field?_name (d : Document) (field : TextField) : d.field? field.name = d.text? field := by
  rw [Document.field?, TextField.ofName?_name, Option.bind_some]

/-- The terms that the index gives for a document are those that it will hold of it. -/
theorem analyzed (h : Keeping c done all s) {d : Document} {terms : List String}
    (hreads : Reads true field.name d terms)
    (hcourse : Course Sink.ofIndex s (analyzing true field.name d terms) u) :
    u = s ∧ terms = fieldTerms (Analyzer.ofConfig c) field d := by
  have hlacking := hreads.lacking
  rw [field?_name] at hlacking
  unfold analyzing fieldTerms at *
  cases htext : d.text? field with
  | none =>
      simp only [field?_name, htext] at hcourse
      cases hcourse
      exact ⟨rfl, hlacking htext⟩
  | some text =>
      simp only [field?_name, htext] at hcourse
      exact h.terms_eq hcourse.of_single

/-- All documents that were fed are held, with the terms that the index gave for them. -/
theorem fed (h : Keeping c done all s) {fed : List (Document × List String)}
    (hreads : ∀ x ∈ fed, Reads true field.name x.1 x.2)
    (hcourse : Course Sink.ofIndex s (fed.flatMap (feeding true field.name)) u) :
    Keeping c done (all ++ fed.map Prod.fst) u ∧
      (fed ≠ [] → checkMemory c.writerMemory = .ok ()) ∧
        ∀ x ∈ fed, x.2 = fieldTerms (Analyzer.ofConfig c) field x.1 := by
  induction fed generalizing all s with
  | nil =>
      cases hcourse
      rw [List.map_nil, List.append_nil]
      exact ⟨h, fun hne => absurd rfl hne, by simp⟩
  | cons x rest ih =>
      rw [List.flatMap_cons] at hcourse
      obtain ⟨v, hfirst, hrest⟩ := hcourse.of_append
      obtain ⟨s', hanalyzing, hadding⟩ := hfirst.of_append
      obtain ⟨rfl, hterms⟩ := h.analyzed (hreads x List.mem_cons_self) hanalyzing
      obtain ⟨hv, hmemory⟩ := h.add hadding.of_single
      obtain ⟨hu, -, hall⟩ := ih hv (fun y hy => hreads y (List.mem_cons_of_mem x hy)) hrest
      rw [List.append_assoc] at hu
      exact ⟨hu, fun _ => hmemory, List.forall_mem_cons.mpr ⟨hterms, hall⟩⟩

end Keeping

/-! ## the table -/

/-- An index whose documents stand by ordinal gives the table that counts their terms. -/
theorem exists_counts {field : TextField} {termss : List (List String)} {i : Index}
    (hi : i.Coherent) (h : Index.Arranges field termss i.published.flatten)
    (hword : ∀ term, termss.countP (term ∈ ·) < Decimal.wordLimit) :
    ∃ t : Table, (ExceptT.run (buildAll Index.source field.name) i).1 = .ok t ∧ t.Counts termss := by
  obtain ⟨t, ht⟩ := Index.exists_table_of_countP field.name hword
  have hsource := Statistics.buildAll_agrees (fun _ => rfl) (Index.agree_source i i.generation)
    field.name i [] hi.afterReads
  have hfixed := Statistics.buildAll_agrees_on (fun _ => rfl)
    (Index.agreeOn_ofTokens h i.generation) [] [] trivial
  have hbuilt : (build (ofTokens field.name termss).lexicon.recorded termss.length
      field.name).answer = .ok t := by
    rw [← Statistics.buildAll_eq_build (FixedLexicon.total_ofTokens field.name termss)]
    exact ht
  refine ⟨t, ?_, Statistics.counts_ofTokens (Table.isBuilt_of_build hbuilt)⟩
  exact hsource.1.eq.trans (hfixed.1.eq.trans ht)

/-- Where the ordinals count up from zero, each document stands at its own. -/
theorem getElem?_ordinal {documents : List Document}
    (h : documents.map (·.ordinal) = List.range documents.length) {d : Document}
    (hd : d ∈ documents) : documents[d.ordinal]? = some d := by
  obtain ⟨i, hi, rfl⟩ := List.mem_iff_getElem.mp hd
  have hordinal := List.getElem_of_eq h (i := i) (by simpa using hi)
  rw [List.getElem_map, List.getElem_range] at hordinal
  rw [hordinal]
  exact List.getElem?_eq_getElem hi

/-- What an index in memory and a tracker hold after all documents were fed and committed. -/
theorem keeping_of_run {c : Config} {field : TextField} {documents : List Document} {w : Workspace}
    {summary : Summary} {q : Progress Sink.Indexed}
    (hrun : (feedAndCommit Sink.ofIndex field.name documents).run ⟨⟨w, .inMemory c⟩, some {}, {}⟩ =
      (.ok summary, q)) :
    Keeping c documents documents q.sink ∧
      (documents ≠ [] → checkMemory c.writerMemory = .ok ()) ∧
      documents.map (·.ordinal) = List.range documents.length ∧
      q.tracker = some (Tracker.extend {} (documents.map (fieldTerms (Analyzer.ofConfig c) field))) ∧
      summary.tokens =
        (documents.flatMap (fieldTerms (Analyzer.ofConfig c) field)).length.toUInt64 := by
  obtain ⟨fed, r, hdocuments, hfed, hcommit, hq, rfl⟩ :=
    (feedAndCommit_fed Sink.ofIndex field.name documents _).of_ok hrun
  obtain ⟨hkeeping, hmemory, hterms⟩ := (Keeping.inMemory c w).fed hfed.reads hfed.course
  have hsnd : fed.map Prod.snd = documents.map (fieldTerms (Analyzer.ofConfig c) field) := by
    rw [← hdocuments, List.map_map]
    exact List.map_congr_left hterms
  have hflat : fed.flatMap Prod.snd =
      documents.flatMap (fieldTerms (Analyzer.ofConfig c) field) := by
    rw [List.flatMap, hsnd]
    rfl
  rw [List.nil_append, hdocuments] at hkeeping
  refine ⟨hkeeping.commit hcommit, fun hne => hmemory ?_, ?_, ?_, ?_⟩
  · rintro rfl
    exact hne hdocuments.symm
  · rw [← hdocuments, List.map_map, List.length_map]
    exact hfed.received.numbered
  · rw [hq, ← hsnd]
    exact hfed.tracker
  · rw [hfed.tokens, hflat]
    exact UInt64.zero_add _

/-- **Growth and table agree**: where documents were fed into a new index in memory with a new
tracker, the table of the field is built.  For each document the frequencies of all terms add up to
the number of its points, and as many terms have one as the last point counts; over all documents
they add up to the tokens of the summary.  The index passes over tokens that are too long, and
numbers are words. -/
theorem table_agrees_with_growth (c : Config) (field : TextField) (documents : List Document)
    (w : Workspace) {summary : Summary} {q : Progress Sink.Indexed}
    (hrun : (feedAndCommit Sink.ofIndex field.name documents).run ⟨⟨w, .inMemory c⟩, some {}, {}⟩ =
      (.ok summary, q))
    (hshort : ∀ d ∈ documents, ∀ term ∈ fieldTerms (Analyzer.ofConfig c) field d,
      term.utf8ByteSize ≤ longestToken)
    (hword : (documents.flatMap (fieldTerms (Analyzer.ofConfig c) field)).length <
      Decimal.wordLimit) :
    ∃ (t : Table) (tracker : Tracker),
      (ExceptT.run (buildAll Index.source field.name) q.sink.index.index).1 = .ok t ∧
      q.tracker = some tracker ∧ tracker.count = documents.length ∧
      (∀ e ∈ t.entries, e.termFrequencies.length = documents.length) ∧
      (∀ d < documents.length, ∃ points, tracker.points d = .ok points ∧
        points.length = (t.entries.map fun e => (e.termFrequencies[d]?.getD 0).toNat).sum ∧
        ((points.getLast?.map Growth.Point.vocabulary).getD 0).toNat =
          t.entries.countP fun e => decide (0 < e.termFrequencies[d]?.getD 0)) ∧
      summary.tokens.toNat = (t.entries.map fun e => e.collectionFrequency.toNat).sum := by
  obtain ⟨hkeeping, hmemory, hnumbered, htracker, htokens⟩ := keeping_of_run hrun
  set termss := documents.map (fieldTerms (Analyzer.ofConfig c) field) with htermss
  have hlength : termss.length = documents.length := List.length_map _
  have hflat : documents.flatMap (fieldTerms (Analyzer.ofConfig c) field) = termss.flatten := rfl
  have hpublished : q.sink.index.index.published.flatten =
      documents.map (Index.Entry.ofDocument (Analyzer.ofConfig c)) := by
    rw [hkeeping.holds.published, Index.entries]
    by_cases hne : documents = []
    · rw [hne]
      split <;> rfl
    · rw [hmemory hne]
  have harranges : Index.Arranges field termss q.sink.index.index.published.flatten := by
    rw [hpublished]
    refine Index.arranges_ofDocument ?_ (fun d hd => ?_) ?_
    · rw [hnumbered, hlength]
    · rw [htermss, List.getElem?_map, getElem?_ordinal hnumbered hd, Option.map_some]
    · simpa [htermss] using hshort
  have hcounted : ∀ tokens ∈ termss, tokens.length < Decimal.wordLimit := fun tokens htokens =>
    Nat.lt_of_le_of_lt (List.Sublist.length_le (List.sublist_flatten_of_mem htokens)) hword
  have hdocuments : ∀ term, termss.countP (term ∈ ·) < Decimal.wordLimit := fun term =>
    Nat.lt_of_le_of_lt (FixedLexicon.countP_le_length_flatten term termss) hword
  obtain ⟨t, ht, hcounts⟩ := exists_counts hkeeping.holds.coherent harranges hdocuments
  have hgained := Tracker.gained_extend {} termss
  -- of each document both sides are given its terms
  refine ⟨t, _, ht, htracker, ?_, fun e he => ?_, fun d hd => ?_, ?_⟩
  · rw [hgained.count, hlength]
    exact Nat.zero_add _
  · rw [hcounts.frequencies e he, List.length_map, hlength]
  · have hd' : termss[d]? = some termss[d] := List.getElem?_eq_getElem (hlength.symm ▸ hd)
    have hshorter := hcounted _ (List.mem_of_getElem? hd')
    refine ⟨growthPoints termss[d], ?_, ?_, ?_⟩
    · have hpoints := hgained.points d _ hd'
      rwa [show Tracker.count {} + d = d from Nat.zero_add d] at hpoints
    · rw [Growth.length_growthPoints, hcounts.sum_frequencies hd' hshorter]
    · rw [Growth.vocabulary_getLast?_growthPoints, hcounts.countP_frequencies hd' hshorter]
      refine UInt64.toNat_ofNat_of_lt' (Nat.lt_of_le_of_lt ?_ hshorter)
      exact List.toFinset_card_le _
  · rw [htokens, hcounts.sum_collection hword]
    exact UInt64.toNat_ofNat_of_lt' hword

/-- Two documents, one of them without content. -/
def catAndDog : List Document :=
  [{ ordinal := 0, content := some "Dog dog cat" }, { ordinal := 1, title := some "cat" }]

theorem fieldTerms_catAndDog :
    catAndDog.map (fieldTerms (Analyzer.ofConfig {}) .content) = [["dog", "dog", "cat"], []] := by
  cbv

theorem flatMap_fieldTerms_catAndDog :
    catAndDog.flatMap (fieldTerms (Analyzer.ofConfig {}) .content) = ["dog", "dog", "cat"] := by
  rw [List.flatMap, fieldTerms_catAndDog]
  rfl

/-- A run without files. -/
def bare : Workspace := { files := { home := [], nodes := [] } }

theorem exists_run_catAndDog : ∃ q, (feedAndCommit Sink.ofIndex "content" catAndDog).run
    ⟨⟨bare, .inMemory {}⟩, some {}, {}⟩ = (.ok ⟨2, 3, []⟩, q) := by
  have hanswer : ((feedAndCommit Sink.ofIndex "content" catAndDog).run
      ⟨⟨bare, .inMemory {}⟩, some {}, {}⟩).1 = .ok ⟨2, 3, []⟩ := by cbv
  exact exists_run hanswer

/-- They have three tokens, in the summary as in the table, and the other one has no growth. -/
theorem table_agrees_with_growth_catAndDog :
    ∃ (q : Progress Sink.Indexed) (t : Table) (tracker : Tracker),
      (feedAndCommit Sink.ofIndex "content" catAndDog).run
        ⟨⟨bare, .inMemory {}⟩, some {}, {}⟩ = (.ok ⟨2, 3, []⟩, q) ∧
      (ExceptT.run (buildAll Index.source "content") q.sink.index.index).1 = .ok t ∧
      q.tracker = some tracker ∧
      3 = (t.entries.map fun e => e.collectionFrequency.toNat).sum ∧
      ∃ points, tracker.points 1 = .ok points ∧
        points.length = (t.entries.map fun e => (e.termFrequencies[1]?.getD 0).toNat).sum := by
  obtain ⟨q, hrun⟩ := exists_run_catAndDog
  have hshort : ∀ d ∈ catAndDog, ∀ term ∈ fieldTerms (Analyzer.ofConfig {}) .content d,
      term.utf8ByteSize ≤ longestToken := by
    have hall : ∀ term ∈ ["dog", "dog", "cat"], term.utf8ByteSize ≤ longestToken := by decide
    intro d hd term hterm
    rw [← flatMap_fieldTerms_catAndDog] at hall
    exact hall term (List.mem_flatMap.mpr ⟨d, hd, hterm⟩)
  have hword : (catAndDog.flatMap (fieldTerms (Analyzer.ofConfig {}) .content)).length <
      Decimal.wordLimit := by
    rw [flatMap_fieldTerms_catAndDog]
    decide
  obtain ⟨t, tracker, ht, htracker, -, -, hpoints, htokens⟩ :=
    table_agrees_with_growth {} .content catAndDog bare hrun hshort hword
  obtain ⟨points, hpoint, hlength, -⟩ := hpoints 1 (by decide)
  exact ⟨q, t, tracker, hrun, ht, htracker, htokens, points, hpoint, hlength⟩

end Concordance.Indexing
