import Concordance.Proofs.Statistics.Tokens
import Concordance.Proofs.Text.Bytes

/-!
# Concordance.Proofs.Statistics.Ranking

The table of documents that were given by their tokens, read off the tokens alone: which terms it
has, what it says of each, and in which order they stand.  Of terms that are equally frequent the
one with the earlier document stands first, and within one document the smaller one does, since the
counts of a document stand by their terms.

* `findIdx_of_idxOf_flatten_lt` — where elements stand in lists that are joined;
* `Table.IsBuilt.ranked` — the order of the entries;
* `ofTokens_congr` — the order of the tokens within a document does not matter;
* `ranking_of_build` — the table in full.
-/

namespace Concordance

/-! ## places in lists that are joined -/

/-- What stands first in a list in strict order is smaller. -/
theorem lt_of_idxOf_lt {xs : List String} (h : xs.Pairwise (· < ·)) {x y : String} (hy : y ∈ xs)
    (hxy : xs.idxOf x < xs.idxOf y) : x < y := by
  have hlast := List.idxOf_lt_length_of_mem hy
  have hlt := List.pairwise_iff_getElem.mp h _ _ (Nat.lt_trans hxy hlast) hlast hxy
  rwa [List.getElem_idxOf, List.getElem_idxOf] at hlt

/-- Of two elements of lists that are joined, each list in strict order, the first one is in an
earlier list, or it is the smaller one of the same list. -/
theorem findIdx_of_idxOf_flatten_lt {xss : List (List String)}
    (h : ∀ xs ∈ xss, xs.Pairwise (· < ·)) {x y : String} (hy : y ∈ xss.flatten)
    (hxy : xss.flatten.idxOf x < xss.flatten.idxOf y) :
    xss.findIdx (x ∈ ·) < xss.findIdx (y ∈ ·) ∨
      xss.findIdx (x ∈ ·) = xss.findIdx (y ∈ ·) ∧ x < y := by
  induction xss with
  | nil => cases hy
  | cons xs rest ih =>
      have hlater := ih (fun ys hys => h ys (List.mem_cons_of_mem xs hys))
      rw [List.flatten_cons, List.idxOf_append, List.idxOf_append] at hxy
      rw [List.findIdx_cons, List.findIdx_cons]
      by_cases hxs : x ∈ xs <;> by_cases hys : y ∈ xs <;>
        simp only [hxs, hys, if_true, if_false, decide_true, decide_false, cond_true, cond_false]
          at hxy ⊢
      · exact .inr ⟨trivial, lt_of_idxOf_lt (h xs List.mem_cons_self) hys hxy⟩
      · exact .inl (Nat.zero_lt_succ _)
      · have hlast := List.idxOf_lt_length_of_mem hys
        omega
      · have hrest : y ∈ rest.flatten := (List.mem_append.mp hy).resolve_left hys
        obtain hlt | ⟨heq, hless⟩ := hlater hrest (by omega)
        · exact .inl (Nat.succ_lt_succ hlt)
        · exact .inr ⟨congrArg (· + 1) heq, hless⟩

namespace FixedLexicon

open Statistics (termsOf countsBelow countsAt)

/-- A walk meets the terms of the documents one after the other. -/
theorem termsOf_countsBelow_ofTokens (field : String) (documents : List (List String)) :
    termsOf (countsBelow (ofTokens field documents).lexicon field documents.length) =
      (documents.map fun tokens => (tally tokens).map TermCount.term).flatten := by
  rw [← List.flatMap_def]
  conv_rhs => rw [← map_getD_range documents]
  simp [termsOf, countsBelow, countsAt, bagAt_ofTokens, List.map_flatMap, List.flatMap_map,
    Function.comp_def]

/-! ## the order of the tokens -/

/-- The counts of tokens do not depend on their order. -/
theorem tally_congr {tokens others : List String} (h : tokens.Perm others) :
    tally tokens = tally others := by
  have hterms : ((tally tokens).map TermCount.term).Perm ((tally others).map TermCount.term) :=
    (List.perm_ext_iff_of_nodup (nodup_terms_tally tokens) (nodup_terms_tally others)).mpr
      fun term => by rw [mem_terms_tally, mem_terms_tally, h.mem_iff]
  have hcount : ∀ ts : List String, tally ts =
      ((tally ts).map TermCount.term).map fun term => ⟨term, (ts.count term).toUInt64⟩ :=
    fun ts => by
      rw [List.map_map]
      refine (List.map_id _).symm.trans (List.map_congr_left fun c hc => ?_)
      show c = ⟨c.term, (ts.count c.term).toUInt64⟩
      rw [← frequency_of_mem_tally hc]
  have hsorted : (tally tokens).Pairwise fun a b => a.term ≤ b.term :=
    (pairwise_tally tokens).imp fun hlt => String.not_lt.mp (String.lt_asymm hlt)
  refine eq_of_perm_of_pairwise_key ?_ hsorted (pairwise_tally others)
  rw [hcount tokens, hcount others]
  simp only [h.count_eq]
  exact hterms.map _

theorem map_bagOf_congr {documents others : List (List String)}
    (h : List.Forall₂ List.Perm documents others) : documents.map bagOf = others.map bagOf := by
  induction h with
  | nil => rfl
  | @cons tokens ts rest others hperm _ ih =>
      rw [List.map_cons, List.map_cons, ih, bagOf, bagOf, hperm.isEmpty_eq, tally_congr hperm]

/-- The order of the tokens within a document does not matter. -/
theorem ofTokens_congr (field : String) {documents others : List (List String)}
    (h : List.Forall₂ List.Perm documents others) :
    ofTokens field documents = ofTokens field others := by
  rw [ofTokens, ofTokens, map_bagOf_congr h]

end FixedLexicon

/-! ## the table -/

namespace Statistics

open Files (Tree)
open FixedLexicon (ofTokens tally)

/-- An entry stands before another one: its term is more frequent, or as frequent and first found in
an earlier document, or in the same one and it has the smaller bytes. -/
def Entry.Precedes (documents : List (List String)) (a b : Entry) : Prop :=
  b.collectionFrequency < a.collectionFrequency ∨
    a.collectionFrequency = b.collectionFrequency ∧
      (documents.findIdx (a.term ∈ ·) < documents.findIdx (b.term ∈ ·) ∨
        documents.findIdx (a.term ∈ ·) = documents.findIdx (b.term ∈ ·) ∧
          Tree.bytesOf a.term < Tree.bytesOf b.term)

theorem Entry.Precedes.asymm {documents : List (List String)} {a b : Entry}
    (hab : a.Precedes documents b) : ¬b.Precedes documents a := by
  unfold Precedes at *
  rw [UInt64.lt_iff_toNat_lt, ← UInt64.toNat_inj, Tree.bytesOf_lt_iff] at *
  have hterms : a.term < b.term → ¬b.term < a.term := String.lt_asymm
  grind

namespace Table.IsBuilt

variable {field : String} {documents : List (List String)} {t : Table}
  (h : t.IsBuilt (ofTokens field documents).lexicon documents.length field)

include h

/-- The order of the entries. -/
theorem ranked : t.entries.Pairwise (Entry.Precedes documents) := by
  have hmet := FixedLexicon.termsOf_countsBelow_ofTokens field documents
  have hfind : ∀ term, (documents.map fun tokens => (tally tokens).map TermCount.term).findIdx
      (term ∈ ·) = documents.findIdx (term ∈ ·) := fun term => by
    rw [List.findIdx_map]
    congr 1
    funext tokens
    exact decide_eq_decide.mpr FixedLexicon.mem_terms_tally
  have hsorted : ∀ xs ∈ documents.map fun tokens => (tally tokens).map TermCount.term,
      xs.Pairwise (· < ·) := by
    intro xs hxs
    obtain ⟨tokens, -, rfl⟩ := List.mem_map.mp hxs
    exact List.pairwise_map.mpr (FixedLexicon.pairwise_tally tokens)
  refine h.order.imp_of_mem fun {a b} _ hb hab => ?_
  obtain ⟨hle, htie⟩ := hab
  simp only [mayPrecede, decide_eq_true_eq] at hle htie
  obtain hlt | heq := UInt64.lt_or_eq_of_le hle
  · exact .inl hlt
  · -- the terms of a tie stand as the walk meets them
    have hbmet := (h.mem_terms b.term).mp (List.mem_map_of_mem hb)
    have hfirst := htie (UInt64.le_of_eq heq.symm)
    rw [hmet] at hbmet hfirst
    have hplaces := findIdx_of_idxOf_flatten_lt hsorted hbmet hfirst
    rw [hfind, hfind, ← Tree.bytesOf_lt_iff] at hplaces
    exact .inr ⟨heq.symm, hplaces⟩

/-- What an entry says, in numbers that do not wrap around. -/
theorem counted (hword : documents.flatten.length < Decimal.wordLimit) {e : Entry}
    (he : e ∈ t.entries) :
    e.termFrequencies.map UInt64.toNat = documents.map (List.count e.term) ∧
      e.documentFrequency.toNat = documents.countP (e.term ∈ ·) ∧
      e.collectionFrequency.toNat = documents.flatten.count e.term := by
  have hcounts := counts_ofTokens h
  have hflat : ∀ tokens ∈ documents, tokens.count e.term ≤ documents.flatten.length := by
    intro tokens htokens
    refine Nat.le_trans ?_ (List.count_le_length (a := e.term) (l := documents.flatten))
    exact (List.sublist_flatten_of_mem htokens).count_le _
  refine ⟨?_, ?_, ?_⟩
  · rw [hcounts.frequencies e he, List.map_map]
    refine List.map_congr_left fun tokens htokens => ?_
    exact UInt64.toNat_ofNat_of_lt' (Nat.lt_of_le_of_lt (hflat tokens htokens) hword)
  · have hanswer := (h.answered e he).documentFrequency
    rw [FixedLexicon.documentFrequency_ofTokens] at hanswer
    rw [← Except.ok.inj hanswer]
    exact UInt64.toNat_ofNat_of_lt'
      (Nat.lt_of_le_of_lt (FixedLexicon.countP_le_length_flatten e.term documents) hword)
  · rw [hcounts.collection e he]
    exact UInt64.toNat_ofNat_of_lt' (Nat.lt_of_le_of_lt List.count_le_length hword)

end Table.IsBuilt

/-- **The table of documents of tokens**: it is built, and has one entry for each distinct token.
The frequencies of an entry count its term in each document, the document frequency counts those
that are not zero, and the collection frequency is their sum.  The entries stand by collection
frequency, then by the first document with the term, then by the bytes of the term; no other order
of them does, and the order of the tokens within a document does not matter. -/
theorem ranking_of_build (field : String) (documents : List (List String))
    (hword : documents.flatten.length < Decimal.wordLimit) :
    ∃ t : Table,
      (build (ofTokens field documents).lexicon.recorded documents.length field).answer = .ok t ∧
      ((t.entries.map Entry.term).Nodup ∧
        ∀ term, term ∈ t.entries.map Entry.term ↔ term ∈ documents.flatten) ∧
      (∀ e ∈ t.entries,
        e.termFrequencies.map UInt64.toNat = documents.map (List.count e.term) ∧
          e.documentFrequency.toNat = e.termFrequencies.countP (0 < ·) ∧
          e.collectionFrequency.toNat = (e.termFrequencies.map UInt64.toNat).sum ∧
          1 ≤ e.documentFrequency.toNat ∧
          e.documentFrequency.toNat ≤ e.collectionFrequency.toNat) ∧
      t.entries.Pairwise (Entry.Precedes documents) ∧
      (∀ es : List Entry, es.Perm t.entries → es.Pairwise (Entry.Precedes documents) →
        es = t.entries) ∧
      ∀ others : List (List String), List.Forall₂ List.Perm documents others →
        (build (ofTokens field others).lexicon.recorded others.length field).answer = .ok t := by
  obtain ⟨t, ht⟩ := exists_build_ofTokens field fun term =>
    Nat.lt_of_le_of_lt (FixedLexicon.countP_le_length_flatten term documents) hword
  have hbuilt := Table.isBuilt_of_build ht
  have hcounts := counts_ofTokens hbuilt
  have hranked := hbuilt.ranked
  refine ⟨t, ht, ⟨hcounts.nodup, fun term => ?_⟩, fun e he => ?_, hranked, fun es hperm hes => ?_,
    fun others hothers => ?_⟩
  · rw [hcounts.mem_terms, List.mem_flatten]
  · obtain ⟨hfrequencies, hdocuments, hcollection⟩ := hbuilt.counted hword he
    have hpositive : e.termFrequencies.countP (0 < ·) = documents.countP (e.term ∈ ·) := by
      have hcount : (e.termFrequencies.map UInt64.toNat).countP (0 < ·) =
          documents.countP (e.term ∈ ·) := by
        rw [hfrequencies, List.countP_map]
        exact List.countP_congr fun tokens _ => by simp
      rw [← hcount, List.countP_map]
      exact List.countP_congr fun n _ => by simp [UInt64.lt_iff_toNat_lt]
    have hpos : 0 < e.documentFrequency.toNat :=
      Nat.pos_of_ne_zero fun hzero => (hbuilt.answered e he).pos (UInt64.toNat_inj.mp hzero)
    refine ⟨hfrequencies, by rw [hdocuments, hpositive], ?_, hpos, ?_⟩
    · rw [hcollection, hfrequencies, List.count_flatten]
    · rw [hdocuments, hcollection]
      exact FixedLexicon.countP_le_count_flatten e.term documents
  · exact hperm.eq_of_pairwise (fun a b _ _ hab hba => absurd hba hab.asymm) hes hranked
  · rw [← FixedLexicon.ofTokens_congr field hothers, ← hothers.length_eq]
    exact ht

/-- Two documents that share one term, and an empty one between them. -/
def severalOnce : List (List String) := [["owl", "cat", "dog"], [], ["ant", "dog"]]

/-- The most frequent term stands first.  Of those that occur once an earlier document counts more
than the letters, and within a document the letters do. -/
theorem ranking_of_build_severalOnce :
    ∃ t : Table, (build (ofTokens "content" severalOnce).lexicon.recorded 3 "content").answer =
        .ok t ∧ t.entries.map Entry.term = ["dog", "cat", "owl", "ant"] := by
  obtain ⟨t, ht, ⟨hnodup, hterms⟩, hentries, hranked, -, -⟩ :=
    ranking_of_build "content" severalOnce (by decide)
  refine ⟨t, ht, ?_⟩
  have hperm : (t.entries.map Entry.term).Perm ["dog", "cat", "owl", "ant"] :=
    (List.perm_ext_iff_of_nodup hnodup (by decide)).mpr fun term => by
      rw [hterms]
      simp [severalOnce]
      grind
  have hfrequency : ∀ e ∈ t.entries,
      e.collectionFrequency.toNat = (severalOnce.map (List.count e.term)).sum := fun e he => by
    obtain ⟨hfrequencies, -, hcollection, -⟩ := hentries e he
    rw [hcollection, hfrequencies]
  have hplace : ∀ x ∈ ["dog", "cat", "owl", "ant"], ∀ y ∈ ["dog", "cat", "owl", "ant"],
      ((severalOnce.map (List.count y)).sum < (severalOnce.map (List.count x)).sum ∨
        (severalOnce.map (List.count x)).sum = (severalOnce.map (List.count y)).sum ∧
          (severalOnce.findIdx (x ∈ ·) < severalOnce.findIdx (y ∈ ·) ∨
            severalOnce.findIdx (x ∈ ·) = severalOnce.findIdx (y ∈ ·) ∧ x < y)) →
      ["dog", "cat", "owl", "ant"].idxOf x < ["dog", "cat", "owl", "ant"].idxOf y := by
    decide
  have hplaces : (t.entries.map Entry.term).Pairwise fun x y =>
      ["dog", "cat", "owl", "ant"].idxOf x < ["dog", "cat", "owl", "ant"].idxOf y := by
    refine List.pairwise_map.mpr (hranked.imp_of_mem fun {a b} ha hb hab => ?_)
    unfold Entry.Precedes at hab
    rw [UInt64.lt_iff_toNat_lt, ← UInt64.toNat_inj, hfrequency a ha, hfrequency b hb,
      Tree.bytesOf_lt_iff] at hab
    exact hplace a.term (hperm.mem_iff.mp (List.mem_map_of_mem ha)) b.term
      (hperm.mem_iff.mp (List.mem_map_of_mem hb)) hab
  exact hperm.eq_of_pairwise (fun x y _ _ hxy hyx => absurd hyx (Nat.lt_asymm hxy)) hplaces
    (by decide)

end Statistics

end Concordance
