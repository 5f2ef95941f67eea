import Concordance.Proofs.Lexicon.Fixed
import Concordance.Proofs.Statistics.Agreement
import Concordance.Proofs.Statistics.Table
import Mathlib.Algebra.BigOperators.Group.Finset.Basic
import Mathlib.Algebra.GroupWithZero.Nat

/-!
# Concordance.Proofs.Statistics.Tokens

The table of documents that were given by their tokens: its frequencies count the tokens, of one
document or of all.

* `counts_ofTokens` — what the entries of such a table say;
* `Table.Counts.sum_frequencies`, `Table.Counts.sum_collection` — all frequencies together count
  every token once.
-/

namespace Concordance

/-! ## counts of tokens -/

theorem Statistics.lastFrequency_of_mem {bag : Bag} (h : (bag.map TermCount.term).Nodup)
    {c : TermCount} (hc : c ∈ bag) : lastFrequency bag c.term = c.frequency := by
  induction bag using List.reverseRecOn with
  | nil => cases hc
  | append_singleton bag b ih =>
      rw [List.map_append, List.nodup_append] at h
      obtain ⟨hbag, -, hnew⟩ := h
      rw [lastFrequency_append_singleton]
      obtain hc | hc := List.mem_append.mp hc
      · have hne : b.term ≠ c.term := fun heq => hnew _ (List.mem_map_of_mem hc) _ (by simp) heq.symm
        rw [if_neg hne]
        exact ih hbag hc
      · rw [List.mem_singleton.mp hc, if_pos rfl]

namespace FixedLexicon

open Statistics (lastFrequency)

theorem getD_foldl_increase (tokens : List String) (table : Std.HashMap String UInt64)
    (term : String) :
    (tokens.foldl (fun table token => increase table token 1) table).getD term 0 =
      table.getD term 0 + (tokens.count term).toUInt64 := by
  induction tokens generalizing table with
  | nil => simp
  | cons token rest ih =>
      rw [List.foldl_cons, ih, getD_increase, List.count_cons]
      by_cases h : token = term
      · simp [h, UInt64.ofNat_add, UInt64.add_assoc, UInt64.add_comm 1]
      · simp [h]

/-- A count says how often its term stands among the tokens. -/
theorem frequency_of_mem_tally {tokens : List String} {c : TermCount} (h : c ∈ tally tokens) :
    c.frequency = (tokens.count c.term).toUInt64 := by
  have hcount := getD_foldl_increase tokens ∅ c.term
  rw [tally, List.mem_mergeSort, List.mem_map] at h
  obtain ⟨⟨term, n⟩, hmem, rfl⟩ := h
  have hn := Std.HashMap.mem_toList_iff_getElem?_eq_some.mp hmem
  rw [Std.HashMap.getD_eq_getD_getElem?, hn] at hcount
  simpa using hcount

theorem nodup_terms_tally (tokens : List String) :
    ((tally tokens).map TermCount.term).Nodup :=
  (perm_terms_tally tokens).nodup_iff.mpr Std.HashMap.nodup_keys

theorem lastFrequency_tally (tokens : List String) (term : String) :
    lastFrequency (tally tokens) term = (tokens.count term).toUInt64 := by
  by_cases h : ∃ c ∈ tally tokens, c.term = term
  · obtain ⟨c, hc, rfl⟩ := h
    rw [← frequency_of_mem_tally hc]
    exact Statistics.lastFrequency_of_mem (nodup_terms_tally tokens) hc
  · have hnone : term ∉ tokens := by
      rwa [← mem_terms_tally, List.mem_map]
    rw [Statistics.lastFrequency_of_not_mem (by simpa using h), List.count_eq_zero.mpr hnone]
    rfl

/-- Where no term is counted twice, a term occurs as often as its count says. -/
theorem occurring_of_nodup {counts : List TermCount} (h : (counts.map TermCount.term).Nodup)
    (term : String) : occurring counts term = lastFrequency counts term := by
  induction counts using List.reverseRecOn with
  | nil => rfl
  | append_singleton counts c ih =>
      rw [List.map_append, List.nodup_append] at h
      obtain ⟨hcounts, -, hnew⟩ := h
      rw [occurring_append_singleton, Statistics.lastFrequency_append_singleton]
      split
      · next hterm =>
        have hnone : ∀ b ∈ counts, b.term ≠ term := fun b hb =>
          hterm ▸ hnew _ (List.mem_map_of_mem hb) _ (by simp)
        rw [ih hcounts, Statistics.lastFrequency_of_not_mem hnone, UInt64.zero_add]
      · exact ih hcounts

theorem occurring_append (xs ys : List TermCount) (term : String) :
    occurring (xs ++ ys) term = occurring xs term + occurring ys term := by
  induction ys using List.reverseRecOn with
  | nil => simp [occurring]
  | append_singleton ys c ih =>
      rw [← List.append_assoc, occurring_append_singleton, occurring_append_singleton, ih]
      split
      · rw [UInt64.add_assoc]
      · rfl

theorem occurring_flatMap_tally (documents : List (List String)) (term : String) :
    occurring (documents.flatMap tally) term = (documents.flatten.count term).toUInt64 := by
  induction documents with
  | nil => rfl
  | cons tokens rest ih =>
      rw [List.flatMap_cons, occurring_append, ih, occurring_of_nodup (nodup_terms_tally tokens),
        lastFrequency_tally, List.flatten_cons, List.count_append]
      simp [UInt64.ofNat_add]

theorem bagAt_ofTokens (field : String) (documents : List (List String)) (d : Nat) :
    Statistics.bagAt (ofTokens field documents).lexicon field d =
      tally (documents[d]?.getD []) := by
  have hbag := bag_ofTokens field documents d
  have hempty : tally [] = [] := tally_eq_nil_iff.mpr rfl
  cases hd : documents[d]? with
  | none =>
      rw [hd] at hbag
      rw [Statistics.bagAt, hbag]
      exact hempty.symm
  | some tokens =>
      rw [hd] at hbag
      rw [Statistics.bagAt_of_ok hbag, Option.getD_some, bagOf]
      split
      · next h => rw [List.isEmpty_iff.mp h, hempty]; rfl
      · rfl

theorem map_getD_range (documents : List (List String)) :
    (List.range documents.length).map (fun d => documents[d]?.getD []) = documents := by
  refine List.ext_getElem (by simp) fun d hd hd' => ?_
  simp [hd']

theorem bag_of_lt (field : String) {documents : List (List String)} {d : Nat}
    (hd : d < documents.length) :
    (ofTokens field documents).lexicon.bag d field = .ok (bagOf documents[d]) := by
  rw [bag_ofTokens, List.getElem?_eq_getElem hd]

/-- The terms of documents are known where those with a term can be counted in a word. -/
theorem knows_ofTokens (field : String) {documents : List (List String)} {term : String}
    (hterm : ∃ tokens ∈ documents, term ∈ tokens)
    (hword : documents.countP (term ∈ ·) < Decimal.wordLimit) :
    Statistics.Knows (ofTokens field documents).lexicon documents.length field term := by
  have hpos : 0 < documents.countP (term ∈ ·) := by
    simpa [List.countP_pos_iff] using hterm
  have hcount : (documents.countP (term ∈ ·)).toUInt64.toNat = documents.countP (term ∈ ·) :=
    UInt64.toNat_ofNat_of_lt' hword
  refine ⟨⟨_, documentFrequency_ofTokens field documents term, fun hzero => ?_, ?_⟩,
    _, collectionFrequency_ofTokens field documents term⟩
  · rw [hzero] at hcount
    exact absurd hcount (Nat.ne_of_lt hpos)
  · rw [hcount]
    exact List.countP_le_length

/-- A term occurs at least once in each document that has it. -/
theorem countP_le_count_flatten (term : String) (documents : List (List String)) :
    documents.countP (term ∈ ·) ≤ documents.flatten.count term := by
  induction documents with
  | nil => exact Nat.le_refl 0
  | cons tokens rest ih =>
      rw [List.countP_cons, List.flatten_cons, List.count_append, Nat.add_comm (tokens.count term)]
      refine Nat.add_le_add ih ?_
      split
      · next hmem => exact List.count_pos_iff.mpr (of_decide_eq_true hmem)
      · exact Nat.zero_le _

theorem countP_le_length_flatten (term : String) (documents : List (List String)) :
    documents.countP (term ∈ ·) ≤ documents.flatten.length :=
  Nat.le_trans (countP_le_count_flatten term documents) List.count_le_length

end FixedLexicon

/-! ## the table -/

namespace Statistics

open FixedLexicon (ofTokens tally)

/-- Documents of tokens have a table, if those with a term can be counted in a word. -/
theorem exists_build_ofTokens (field : String) {documents : List (List String)}
    (h : ∀ term, documents.countP (term ∈ ·) < Decimal.wordLimit) :
    ∃ t, (build (ofTokens field documents).lexicon.recorded documents.length field).answer =
      .ok t := by
  refine exists_build (fun d hd => ⟨_, FixedLexicon.bag_of_lt field hd⟩) fun d hd c hc => ?_
  rw [FixedLexicon.bagAt_ofTokens, List.getElem?_eq_getElem hd, Option.getD_some] at hc
  have hterm : c.term ∈ documents[d] :=
    FixedLexicon.mem_terms_tally.mp (List.mem_map_of_mem hc)
  exact FixedLexicon.knows_ofTokens field ⟨_, List.getElem_mem hd, hterm⟩ (h c.term)

/-- The table over all documents is the one that is built of as many as there are. -/
theorem buildAll_eq_build {l : Lexicon} {total : Nat} (htotal : l.total = .ok total)
    (field : String) :
    (buildAll l.recorded field).answer = (build l.recorded total field).answer := by
  have hask : ExceptT.run (Asking.ask l.recorded.total) [] = (.ok total, [.total]) :=
    Prod.ext htotal rfl
  rw [Asking.answer, buildAll, Asking.run_bind, hask]
  exact (build_agrees (fun _ => rfl) (l.agree_self.on field) total [] [.total] trivial).1.eq.symm

theorem Table.isBuilt_of_build {l : Lexicon} {total : Nat} {field : String} {t : Table}
    (h : (build l.recorded total field).answer = .ok t) : t.IsBuilt l total field := by
  obtain ⟨-, w, rfl, hw⟩ := tracks_of_build h
  exact hw.isBuilt

/-- A table whose frequencies count the tokens of documents. -/
structure Table.Counts (documents : List (List String)) (t : Table) : Prop where
  nodup : (t.entries.map Entry.term).Nodup
  mem_terms : ∀ term, term ∈ t.entries.map Entry.term ↔ ∃ tokens ∈ documents, term ∈ tokens
  frequencies : ∀ e ∈ t.entries,
    e.termFrequencies = documents.map fun tokens => (tokens.count e.term).toUInt64
  collection : ∀ e ∈ t.entries, e.collectionFrequency = (documents.flatten.count e.term).toUInt64

/-- What a table that was built of documents of tokens says. -/
theorem counts_ofTokens {field : String} {documents : List (List String)} {t : Table}
    (h : t.IsBuilt (ofTokens field documents).lexicon documents.length field) :
    t.Counts documents where
  nodup := h.nodup
  mem_terms term := by
    rw [h.mem_terms, mem_termsOf_countsBelow]
    simp only [FixedLexicon.bagAt_ofTokens, ← List.mem_map, FixedLexicon.mem_terms_tally]
    constructor
    · rintro ⟨d, hd, hterm⟩
      rw [List.getElem?_eq_getElem hd, Option.getD_some] at hterm
      exact ⟨documents[d], List.getElem_mem hd, hterm⟩
    · rintro ⟨tokens, htokens, hterm⟩
      obtain ⟨d, hd, rfl⟩ := List.mem_iff_getElem.mp htokens
      refine ⟨d, hd, ?_⟩
      rwa [List.getElem?_eq_getElem hd, Option.getD_some]
  frequencies e he := by
    rw [h.frequencies e he]
    refine List.ext_getElem (by simp) fun d hd hd' => ?_
    have hlt : d < documents.length := by simpa using hd
    simp [FixedLexicon.bagAt_ofTokens, FixedLexicon.lastFrequency_tally, hlt]
  collection e he := by
    have hanswered := (h.answered e he).collectionFrequency
    rw [FixedLexicon.collectionFrequency_ofTokens, FixedLexicon.occurring_flatMap_tally] at hanswered
    exact (Except.ok.inj hanswered).symm

/-! ## sums over the table -/

section Sums

variable {terms tokens : List String} (hterms : terms.Nodup) (h : ∀ term ∈ tokens, term ∈ terms)

include hterms h

theorem sum_map_count : (terms.map tokens.count).sum = tokens.length := by
  have hsum := Multiset.sum_count_eq_card (s := terms.toFinset) (m := (tokens : Multiset String))
    fun term hterm => List.mem_toFinset.mpr (h term hterm)
  rw [← List.sum_toFinset _ hterms]
  simpa using hsum

theorem countP_mem : terms.countP (· ∈ tokens) = tokens.toFinset.card := by
  have hset : (terms.filter (· ∈ tokens)).toFinset = tokens.toFinset := by
    ext term
    simpa using h term
  rw [List.countP_eq_length_filter, ← hset, List.toFinset_card_of_nodup (hterms.filter _)]

end Sums

namespace Table.Counts

variable {documents : List (List String)} {t : Table} (h : t.Counts documents)

include h

/-- The number of a term of a document, as the table has it. -/
theorem getElem?_termFrequencies {e : Entry} (he : e ∈ t.entries) {d : Nat} {tokens : List String}
    (hd : documents[d]? = some tokens) :
    e.termFrequencies[d]? = some (tokens.count e.term).toUInt64 := by
  rw [h.frequencies e he, List.getElem?_map, hd, Option.map_some]

theorem mem_of_mem {tokens : List String} (htokens : tokens ∈ documents) :
    ∀ term ∈ tokens, term ∈ t.entries.map Entry.term :=
  fun term hterm => (h.mem_terms term).mpr ⟨tokens, htokens, hterm⟩

/-- The frequencies of all terms in a document count its tokens. -/
theorem sum_frequencies {d : Nat} {tokens : List String} (hd : documents[d]? = some tokens)
    (hword : tokens.length < Decimal.wordLimit) :
    (t.entries.map fun e => (e.termFrequencies[d]?.getD 0).toNat).sum = tokens.length := by
  have hentries : t.entries.map (fun e => (e.termFrequencies[d]?.getD 0).toNat) =
      (t.entries.map Entry.term).map tokens.count := by
    rw [List.map_map]
    refine List.map_congr_left fun e he => ?_
    rw [h.getElem?_termFrequencies he hd, Option.getD_some]
    exact UInt64.toNat_ofNat_of_lt' (Nat.lt_of_le_of_lt List.count_le_length hword)
  rw [hentries, sum_map_count h.nodup (h.mem_of_mem (List.mem_of_getElem? hd))]

/-- The terms that stand in a document are its distinct tokens. -/
theorem countP_frequencies {d : Nat} {tokens : List String} (hd : documents[d]? = some tokens)
    (hword : tokens.length < Decimal.wordLimit) :
    t.entries.countP (fun e => decide (0 < e.termFrequencies[d]?.getD 0)) = tokens.toFinset.card := by
  have hentries : t.entries.countP (fun e => decide (0 < e.termFrequencies[d]?.getD 0)) =
      (t.entries.map Entry.term).countP (· ∈ tokens) := by
    rw [List.countP_map]
    refine List.countP_congr fun e he => ?_
    have hcount : (tokens.count e.term).toUInt64.toNat = tokens.count e.term :=
      UInt64.toNat_ofNat_of_lt' (Nat.lt_of_le_of_lt List.count_le_length hword)
    rw [h.getElem?_termFrequencies he hd, Option.getD_some, Function.comp_apply, decide_eq_true_iff,
      decide_eq_true_iff, UInt64.lt_iff_toNat_lt, hcount]
    exact List.count_pos_iff
  rw [hentries, countP_mem h.nodup (h.mem_of_mem (List.mem_of_getElem? hd))]

/-- The frequencies of all terms in the collection count the tokens of all documents. -/
theorem sum_collection (hword : documents.flatten.length < Decimal.wordLimit) :
    (t.entries.map fun e => e.collectionFrequency.toNat).sum = documents.flatten.length := by
  have hentries : t.entries.map (fun e => e.collectionFrequency.toNat) =
      (t.entries.map Entry.term).map documents.flatten.count := by
    rw [List.map_map]
    refine List.map_congr_left fun e he => ?_
    rw [h.collection e he]
    exact UInt64.toNat_ofNat_of_lt' (Nat.lt_of_le_of_lt List.count_le_length hword)
  have hmem : ∀ term ∈ documents.flatten, term ∈ t.entries.map Entry.term := fun term hterm => by
    obtain ⟨tokens, htokens, hterm⟩ := List.mem_flatten.mp hterm
    exact h.mem_of_mem htokens term hterm
  rw [hentries, sum_map_count h.nodup hmem]

end Table.Counts

end Statistics

end Concordance
