import Concordance.Proofs.Statistics.Tokens
import Mathlib.Logic.Equiv.Basic

/-!
# Concordance.Proofs.Statistics.Reordering

The order of the documents does not matter.  It decides in which order a walk meets the terms, so
where their entries are made and how ties are broken, and nothing else.

* `build_ok_iff` — when a table is built, without regard to any order;
* `Table.IsBuilt.reorders` — what the entries of one term say in two tables;
* `build_reordered` — two lexicons with the same documents in different orders.
-/

namespace Concordance.Statistics

variable {l m : Lexicon} {total : Nat} {field : String} {s : Equiv.Perm (Fin total)}

/-! ## when a table is built -/

/-- A table is built exactly where every bag can be read and the frequencies of all its terms are
plausible. -/
theorem build_ok_iff (l : Lexicon) (total : Nat) (field : String) :
    (∃ t, (build l.recorded total field).answer = .ok t) ↔
      (∀ d < total, ∃ bag, l.bag d field = .ok bag) ∧
        ∀ d < total, ∀ c ∈ bagAt l field d, Knows l total field c.term := by
  constructor
  · rintro ⟨t, h⟩
    obtain ⟨hbags, -⟩ := tracks_of_build h
    have ht := Table.isBuilt_of_build h
    refine ⟨hbags, fun d hd c hc => ?_⟩
    have hmem : c.term ∈ t.entries.map Entry.term :=
      (ht.mem_terms c.term).mpr (mem_termsOf_countsBelow.mpr ⟨d, hd, c, hc, rfl⟩)
    obtain ⟨e, he, hterm⟩ := List.mem_map.mp hmem
    have hanswered := ht.answered e he
    rw [← hterm]
    exact ⟨⟨_, hanswered.documentFrequency, hanswered.pos, hanswered.le⟩,
      _, hanswered.collectionFrequency⟩
  · rintro ⟨hbags, hknown⟩
    exact exists_build hbags hknown

/-! ## documents in another order -/

/-- A lexicon has the documents of another one in another order: document `d` of the first is
document `s d` of the second.  The frequencies that they answer for a term are the same. -/
structure Reorders (field : String) (s : Equiv.Perm (Fin total)) (l m : Lexicon) : Prop where
  documentFrequency : ∀ term, m.documentFrequency field term = l.documentFrequency field term
  collectionFrequency : ∀ term, m.collectionFrequency field term = l.collectionFrequency field term
  bag : ∀ d : Fin total, m.bag (s d) field = l.bag d field

namespace Reorders

theorem symm (h : Reorders field s l m) : Reorders field s.symm m l where
  documentFrequency term := (h.documentFrequency term).symm
  collectionFrequency term := (h.collectionFrequency term).symm
  bag d := by rw [← h.bag, Equiv.apply_symm_apply]

theorem bagAt_eq (h : Reorders field s l m) (d : Fin total) :
    bagAt m field (s d) = bagAt l field d := by
  rw [bagAt, bagAt, h.bag]

theorem knows (h : Reorders field s l m) {term : String} (hterm : Knows l total field term) :
    Knows m total field term := by
  rwa [Knows, h.documentFrequency, h.collectionFrequency]

theorem mem_terms_of_mem (h : Reorders field s l m) {term : String}
    (hterm : term ∈ termsOf (countsBelow l field total)) :
    term ∈ termsOf (countsBelow m field total) := by
  obtain ⟨d, hd, c, hc, rfl⟩ := mem_termsOf_countsBelow.mp hterm
  refine mem_termsOf_countsBelow.mpr ⟨s ⟨d, hd⟩, (s ⟨d, hd⟩).isLt, c, ?_, rfl⟩
  rwa [h.bagAt_eq]

theorem mem_terms (h : Reorders field s l m) (term : String) :
    term ∈ termsOf (countsBelow l field total) ↔ term ∈ termsOf (countsBelow m field total) :=
  ⟨h.mem_terms_of_mem, h.symm.mem_terms_of_mem⟩

/-- Where one table is built the other one is. -/
theorem exists_build (h : Reorders field s l m)
    (hl : ∃ t, (build l.recorded total field).answer = .ok t) :
    ∃ u, (build m.recorded total field).answer = .ok u := by
  obtain ⟨hbags, hknown⟩ := (build_ok_iff l total field).mp hl
  -- document `d` of the second lexicon is the one that `s` takes there
  refine (build_ok_iff m total field).mpr ⟨fun d hd => ?_, fun d hd c hc => ?_⟩
  · rw [← h.symm.bag ⟨d, hd⟩]
    exact hbags _ (s.symm ⟨d, hd⟩).isLt
  · rw [← h.symm.bagAt_eq ⟨d, hd⟩] at hc
    exact h.knows (hknown _ (s.symm ⟨d, hd⟩).isLt c hc)

end Reorders

/-! ## two tables -/

/-- Two entries say the same, if document `d` of the first is document `s d` of the second. -/
structure Entry.Reorders (s : Equiv.Perm (Fin total)) (e e' : Entry) : Prop where
  documentFrequency : e'.documentFrequency = e.documentFrequency
  collectionFrequency : e'.collectionFrequency = e.collectionFrequency
  inverseDocumentFrequency : e'.inverseDocumentFrequency = e.inverseDocumentFrequency
  length : e.termFrequencies.length = total
  length' : e'.termFrequencies.length = total
  termFrequencies : ∀ d : Fin total,
    e'.termFrequencies[(s d).val]? = e.termFrequencies[d.val]?

/-- The collection frequency that a lexicon answers for a term, and zero where it answers none. -/
def collectionOf (l : Lexicon) (field term : String) : UInt64 :=
  (l.collectionFrequency field term).toOption.getD 0

theorem Reorders.collectionOf_eq (h : Reorders field s l m) (term : String) :
    collectionOf m field term = collectionOf l field term := by
  rw [collectionOf, collectionOf, h.collectionFrequency]

namespace Table.IsBuilt

variable {t u : Table}

theorem length_frequencies (ht : t.IsBuilt l total field) {e : Entry} (he : e ∈ t.entries) :
    e.termFrequencies.length = total := by
  rw [ht.frequencies e he, List.length_map, List.length_range]

theorem getElem?_frequencies (ht : t.IsBuilt l total field) {e : Entry} (he : e ∈ t.entries)
    (d : Fin total) :
    e.termFrequencies[d.val]? = some (lastFrequency (bagAt l field d) e.term) := by
  rw [ht.frequencies e he, List.getElem?_map, List.getElem?_range d.isLt, Option.map_some]

/-- The entries of one term in two tables. -/
theorem reorders (ht : t.IsBuilt l total field) (hu : u.IsBuilt m total field)
    (h : Reorders field s l m) {e e' : Entry} (he : e ∈ t.entries) (he' : e' ∈ u.entries)
    (hterm : e'.term = e.term) : e.Reorders s e' := by
  have hl := ht.answered e he
  have hm := hu.answered e' he'
  have hdocuments : e'.documentFrequency = e.documentFrequency := by
    have hanswer := hm.documentFrequency
    rw [h.documentFrequency, hterm, hl.documentFrequency] at hanswer
    exact (Except.ok.inj hanswer).symm
  have hcollection : e'.collectionFrequency = e.collectionFrequency := by
    have hanswer := hm.collectionFrequency
    rw [h.collectionFrequency, hterm, hl.collectionFrequency] at hanswer
    exact (Except.ok.inj hanswer).symm
  refine ⟨hdocuments, hcollection, ?_, ht.length_frequencies he, hu.length_frequencies he',
    fun d => ?_⟩
  · rw [hm.inverse, hl.inverse, hdocuments]
  · rw [hu.getElem?_frequencies he', ht.getElem?_frequencies he, h.bagAt_eq, hterm]

theorem perm_terms (ht : t.IsBuilt l total field) (hu : u.IsBuilt m total field)
    (h : Reorders field s l m) : (t.entries.map Entry.term).Perm (u.entries.map Entry.term) := by
  refine (List.perm_ext_iff_of_nodup ht.nodup hu.nodup).mpr fun term => ?_
  rw [ht.mem_terms, hu.mem_terms, h.mem_terms]

theorem collectionFrequency_eq (ht : t.IsBuilt l total field) {e : Entry} (he : e ∈ t.entries) :
    e.collectionFrequency = collectionOf l field e.term := by
  rw [collectionOf, (ht.answered e he).collectionFrequency]
  rfl

theorem map_collectionFrequency (ht : t.IsBuilt l total field) :
    t.entries.map Entry.collectionFrequency =
      (t.entries.map Entry.term).map (collectionOf l field) := by
  rw [List.map_map]
  exact List.map_congr_left fun e he => ht.collectionFrequency_eq he

theorem sorted (ht : t.IsBuilt l total field) :
    (t.entries.map Entry.collectionFrequency).Pairwise (· ≥ ·) :=
  List.pairwise_map.mpr (ht.order.imp fun {a b} hab => by simpa [mayPrecede] using hab.1)

/-- The collection frequencies of two tables are the same, from the highest down. -/
theorem map_collectionFrequency_eq (ht : t.IsBuilt l total field) (hu : u.IsBuilt m total field)
    (h : Reorders field s l m) :
    t.entries.map Entry.collectionFrequency = u.entries.map Entry.collectionFrequency := by
  have hperm : (t.entries.map Entry.collectionFrequency).Perm
      (u.entries.map Entry.collectionFrequency) := by
    rw [ht.map_collectionFrequency, hu.map_collectionFrequency, funext h.collectionOf_eq]
    exact (ht.perm_terms hu h).map _
  exact hperm.eq_of_pairwise (fun a b _ _ hab hba => UInt64.le_antisymm hba hab) ht.sorted hu.sorted

/-- The terms of one collection frequency. -/
theorem filter_terms (ht : t.IsBuilt l total field) (n : UInt64) :
    (t.entries.filter (·.collectionFrequency = n)).map Entry.term =
      (t.entries.map Entry.term).filter (collectionOf l field · = n) := by
  rw [List.filter_map]
  refine congrArg _ (List.filter_congr fun e he => ?_)
  rw [ht.collectionFrequency_eq he, Function.comp_apply]

end Table.IsBuilt

/-- **The order of the documents does not matter**: of two lexicons with the same documents, in
whatever order, both have a table or none has.  The tables have the same terms, the entries of a
term say the same, and the collection frequencies stand in the same order, so that only terms with
equal ones may have changed places. -/
theorem build_reordered (h : Reorders field s l m) :
    ((∃ t, (build l.recorded total field).answer = .ok t) ↔
        ∃ u, (build m.recorded total field).answer = .ok u) ∧
      ∀ t u, (build l.recorded total field).answer = .ok t →
        (build m.recorded total field).answer = .ok u →
          ((t.entries.map Entry.term).Nodup ∧
            (t.entries.map Entry.term).Perm (u.entries.map Entry.term)) ∧
          (∀ e ∈ t.entries, ∀ e' ∈ u.entries, e'.term = e.term → e.Reorders s e') ∧
          t.entries.map Entry.collectionFrequency = u.entries.map Entry.collectionFrequency ∧
          ∀ n, ((t.entries.filter (·.collectionFrequency = n)).map Entry.term).Perm
            ((u.entries.filter (·.collectionFrequency = n)).map Entry.term) := by
  refine ⟨⟨h.exists_build, h.symm.exists_build⟩, fun t u ht hu => ?_⟩
  have ht := Table.isBuilt_of_build ht
  have hu := Table.isBuilt_of_build hu
  have hperm := ht.perm_terms hu h
  refine ⟨⟨ht.nodup, hperm⟩, fun e he e' he' => ht.reorders hu h he he',
    ht.map_collectionFrequency_eq hu h, fun n => ?_⟩
  rw [ht.filter_terms, hu.filter_terms, funext h.collectionOf_eq]
  exact hperm.filter _

/-- The same documents as `threeDocuments`, the last one first. -/
def threeReversed : Lexicon :=
  { threeDocuments with bag := fun d field => threeDocuments.bag (2 - d) field }

theorem reorders_threeReversed :
    Reorders "content" (Equiv.swap (0 : Fin 3) 2) threeDocuments threeReversed where
  documentFrequency _ := rfl
  collectionFrequency _ := rfl
  bag d := by
    match d with
    | 0 => rfl
    | 1 => rfl
    | 2 => rfl

/-- What stood in the first document stands in the last one. -/
theorem build_reordered_threeReversed :
    ∃ t u, (build threeDocuments.recorded 3 "content").answer = .ok t ∧
      (build threeReversed.recorded 3 "content").answer = .ok u ∧
      ∃ e ∈ t.entries, ∃ e' ∈ u.entries, e.term = "cat" ∧ e'.term = "cat" ∧
        e.termFrequencies[0]? = some 5 ∧ e'.termFrequencies[2]? = some 5 := by
  obtain ⟨hbuilt, htables⟩ := build_reordered reorders_threeReversed
  obtain ⟨t, ht⟩ := build_threeDocuments
  obtain ⟨u, hu⟩ := hbuilt.mp ⟨t, ht⟩
  obtain ⟨⟨-, hperm⟩, hentries, -, -⟩ := htables t u ht hu
  have htable := Table.isBuilt_of_build ht
  have hcat : "cat" ∈ t.entries.map Entry.term := by
    rw [htable.mem_terms]
    decide
  obtain ⟨e, he, hterm⟩ := List.mem_map.mp hcat
  obtain ⟨e', he', hterm'⟩ := List.mem_map.mp (hperm.mem_iff.mp hcat)
  have hfrequency : e.termFrequencies[0]? = some 5 := by
    have hfirst := htable.getElem?_frequencies he 0
    rwa [hterm] at hfirst
  have hmoved := (hentries e he e' he' (hterm'.trans hterm.symm)).termFrequencies 0
  refine ⟨t, u, ht, hu, e, he, e', he', hterm, hterm', hfrequency, ?_⟩
  exact hmoved.trans hfrequency

end Concordance.Statistics
