import Concordance.Proofs.Index.Documents
import Concordance.Proofs.Index.Source
import Concordance.Proofs.Statistics.Tokens
import Mathlib

/-!
# Concordance.Proofs.Index.Arranged

An index against a lexicon of fixed documents.  However the documents of an index are ordered and
divided into segments, it answers about a field as the lexicon does that was given the tokens of
that field by ordinal.

* `Arranges` — the documents of an index stand by their ordinals in a list;
* `agreeOn_ofTokens` — the two sources agree on the field;
* `arranges_ofDocument` — documents that were added stand by their ordinals.
-/

namespace Concordance.Index

open FixedLexicon (ofTokens tally)
open Statistics (Table buildAll)

/-! ## documents by ordinal -/

/-- The documents of an index are those of a list: each stands there at its ordinal, by the terms of
a field. -/
structure Arranges (field : TextField) (documents : List (List String)) (es : List Entry) :
    Prop where
  ordinals : (es.map Entry.ordinal).Perm (List.range documents.length)
  terms : ∀ e ∈ es, documents[e.ordinal]? = some (e.terms field)

namespace Arranges

variable {field : TextField} {documents : List (List String)} {es : List Entry}
  (h : Arranges field documents es)
include h

theorem length_eq : es.length = documents.length := by
  have hlength := h.ordinals.length_eq
  rwa [List.length_map, List.length_range] at hlength

theorem nodup : (es.map Entry.ordinal).Nodup := h.ordinals.nodup_iff.mpr List.nodup_range

theorem exists_mem {d : Nat} (hd : d < documents.length) : ∃ e ∈ es, e.ordinal = d :=
  List.mem_map.mp (h.ordinals.mem_iff.mpr (List.mem_range.mpr hd))

/-- The documents in the order in which they were added. -/
theorem perm : (es.map (Entry.terms · field)).Perm documents := by
  have hterms : es.map (Entry.terms · field) =
      (es.map Entry.ordinal).map fun d => documents[d]?.getD [] := by
    rw [List.map_map]
    refine List.map_congr_left fun e he => ?_
    rw [Function.comp_apply, h.terms e he, Option.getD_some]
  have hperm := h.ordinals.map fun d => documents[d]?.getD []
  rwa [← hterms, FixedLexicon.map_getD_range] at hperm

end Arranges

/-! ## answers -/

section Segments

variable {field : TextField} {documents : List (List String)} {segments : List Segment}
  (h : Arranges field documents segments.flatten)
include h

theorem documentFrequency_eq (term : String) :
    documentFrequency segments field term = (documents.countP (term ∈ ·)).toUInt64 := by
  rw [documentFrequency_eq_countP, ← h.perm.countP_eq, List.countP_map]
  rfl

/-- Every posting has its slot. -/
theorem exists_view : ∃ v, View.ofSegments segments field = .ok v := by
  refine View.exists_of_ordinal_lt fun e he => ?_
  rw [h.length_eq]
  exact (List.getElem?_eq_some_iff.mp (h.terms e he)).1

theorem bag_eq {v : View} (hv : View.ofSegments segments field = .ok v) (d : Nat) :
    v.bag d = (ofTokens field.name documents).lexicon.bag d field.name := by
  rw [(View.holds_ofSegments hv).bag, FixedLexicon.bag_ofTokens, h.length_eq]
  by_cases hd : d < documents.length
  · obtain ⟨e, he, rfl⟩ := h.exists_mem hd
    rw [if_pos hd, h.terms e he, bagFrom_postings h.nodup he]
  · rw [if_neg hd, List.getElem?_eq_none (Nat.not_lt.mp hd)]

theorem collection_eq {v : View} (hv : View.ofSegments segments field = .ok v) (term : String) :
    v.collection.getD term 0 = FixedLexicon.occurring (documents.flatMap tally) term := by
  have hcounts : (segments.flatten.flatMap (entryPostings field)).map Posting.count =
      (segments.flatten.map (Entry.terms · field)).flatMap tally := by
    rw [List.map_flatMap, List.flatMap_map]
    congr 1
    funext e
    rw [entryPostings, List.map_map]
    exact List.map_id' _
  rw [(View.holds_ofSegments hv).collection, occurrences_perm (perm_postings segments field),
    occurrences_eq, hcounts]
  exact FixedLexicon.occurring_perm (h.perm.flatMap_right tally) term

/-- The index and the lexicon agree on the field. -/
theorem agreeOn_ofTokens (generation : Nat) :
    Source.AgreeOn Eq (fun _ _ => True) field.name (visible segments generation).recorded
      (ofTokens field.name documents).lexicon.recorded := by
  obtain ⟨v, hv⟩ := exists_view h
  have hname : textField field.name = .ok field := by
    rw [textField, TextField.ofName?_name]
  have hview : viewOf segments field.name = .ok v := by
    rw [viewOf, hname]
    exact hv
  have hdocuments : ∀ term, (visible segments generation).documentFrequency field.name term =
      (ofTokens field.name documents).lexicon.documentFrequency field.name term := fun term => by
    rw [FixedLexicon.documentFrequency_ofTokens, ← documentFrequency_eq h]
    simp [visible, hname, Except.map]
  have hcollection : ∀ term, (visible segments generation).collectionFrequency field.name term =
      (ofTokens field.name documents).lexicon.collectionFrequency field.name term := fun term => by
    rw [FixedLexicon.collectionFrequency_ofTokens, ← collection_eq h hv]
    simp [visible, hview, Except.bind]
  have hbag : ∀ d, (visible segments generation).bag d field.name =
      (ofTokens field.name documents).lexicon.bag d field.name := fun d => by
    rw [← bag_eq h hv]
    simp [visible, hview, Except.bind]
  have htotal : (visible segments generation).total =
      (ofTokens field.name documents).lexicon.total := by
    rw [FixedLexicon.total_ofTokens, ← h.length_eq]
    rfl
  have hrefl : ∀ {α : Type} (x y : Except Fault α), x = y → Alike Eq x y := by
    rintro α x _ rfl
    exact .refl (fun _ => rfl) x
  exact ⟨fun _ _ _ => ⟨hrefl _ _ htotal, trivial⟩,
    fun term _ _ _ => ⟨hrefl _ _ (hdocuments term), trivial⟩,
    fun term _ _ _ => ⟨hrefl _ _ (hcollection term), trivial⟩,
    fun d _ _ _ => ⟨hrefl _ _ (hbag d), trivial⟩⟩

end Segments

/-- Documents of tokens have a table, if those with a term can be counted in a word. -/
theorem exists_table_of_countP (field : String) {documents : List (List String)}
    (h : ∀ term, documents.countP (term ∈ ·) < Decimal.wordLimit) :
    ∃ t, (buildAll (ofTokens field documents).lexicon.recorded field).answer = .ok t := by
  rw [Statistics.buildAll_eq_build (FixedLexicon.total_ofTokens field documents)]
  exact Statistics.exists_build_ofTokens field h

theorem exists_table_ofTokens (field : String) {documents : List (List String)}
    (h : documents.length < Decimal.wordLimit) :
    ∃ t, (buildAll (ofTokens field documents).lexicon.recorded field).answer = .ok t :=
  exists_table_of_countP field fun _ => Nat.lt_of_le_of_lt List.countP_le_length h

/-- The table of a single document of a single token. -/
theorem exists_table_singleton {field : TextField} {term : String} {segments : List Segment}
    (h : Arranges field [[term]] segments.flatten) (generation : Nat) :
    ∃ (t : Table) (e : Statistics.Entry),
      (buildAll (visible segments generation).recorded field.name).answer = .ok t ∧
        t.IsBuilt (ofTokens field.name [[term]]).lexicon 1 field.name ∧
        t.entries = [e] ∧ e.term = term := by
  have hlength : [[term]].length < Decimal.wordLimit := by
    rw [List.length_singleton]
    decide
  obtain ⟨t, ht⟩ := exists_table_ofTokens field.name hlength
  have hagree := Statistics.buildAll_agrees_on (fun _ => rfl) (agreeOn_ofTokens h generation) [] []
    trivial
  have hvisible := hagree.1.eq.trans ht
  rw [Statistics.buildAll_eq_build (FixedLexicon.total_ofTokens _ _)] at ht
  have hbuilt := Statistics.Table.isBuilt_of_build ht
  have hcounts := Statistics.counts_ofTokens hbuilt
  have hterms : t.entries.map Statistics.Entry.term = [term] := by
    refine List.perm_singleton.mp ?_
    refine (List.perm_ext_iff_of_nodup hcounts.nodup (List.nodup_singleton _)).mpr fun term' => ?_
    rw [hcounts.mem_terms]
    simp
  obtain ⟨e, hentries, hterm⟩ := List.map_eq_singleton_iff.mp hterms
  exact ⟨t, e, hvisible, hbuilt, hentries, hterm⟩

/-! ## documents that were added -/

/-- The terms of a field of a document, which has none where it lacks the field. -/
def fieldTerms (a : Analyzer) (field : TextField) (d : Document) : List String :=
  match d.text? field with
  | none => []
  | some text => a.terms field text

/-- The index leaves out no term that is short enough. -/
theorem terms_ofDocument {a : Analyzer} {field : TextField} {d : Document}
    (h : ∀ term ∈ fieldTerms a field d, term.utf8ByteSize ≤ longestToken) :
    (Entry.ofDocument a d).terms field = fieldTerms a field d := by
  rw [Entry.terms, Entry.tokens_ofDocument]
  unfold indexed fieldTerms at *
  cases htext : d.text? field with
  | none => rfl
  | some text =>
      simp only [htext] at h ⊢
      have hall : (a.tokens field text).filter
          (fun t => decide (t.text.utf8ByteSize ≤ longestToken)) = a.tokens field text :=
        List.filter_eq_self.mpr fun t ht => decide_eq_true (h t.text (List.mem_map_of_mem ht))
      rw [hall, Analyzer.terms]

/-- Documents stand by their ordinals where each has its terms at its ordinal. -/
theorem arranges_ofDocument {a : Analyzer} {field : TextField} {all : List Document}
    {documents : List (List String)}
    (hordinals : (all.map Document.ordinal).Perm (List.range documents.length))
    (hdocuments : ∀ d ∈ all, documents[d.ordinal]? = some (fieldTerms a field d))
    (hshort : ∀ terms ∈ documents, ∀ term ∈ terms, term.utf8ByteSize ≤ longestToken) :
    Arranges field documents (all.map (Entry.ofDocument a)) := by
  refine ⟨by rwa [List.map_map], fun e he => ?_⟩
  obtain ⟨d, hd, rfl⟩ := List.mem_map.mp he
  have hterms := hdocuments d hd
  have hmem : fieldTerms a field d ∈ documents := List.mem_of_getElem? hterms
  rw [terms_ofDocument (hshort _ hmem)]
  exact hterms

end Concordance.Index
