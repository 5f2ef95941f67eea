import Concordance.Index.Search
import Concordance.Proofs.Index.Fixed
import Concordance.Proofs.Index.Visits
import Concordance.Proofs.Query.Hits
import Concordance.Proofs.Query.Word

/-!
# Concordance.Proofs.Index.Search

Which documents have a word: searching for it, explaining a score and the statistics of its term say
the same, wherever commits divide the documents into segments.

* `lists_iff` — the term vector of a document lists the terms that the document has;
* `finds_matching` — hits and explanations are about the documents that match;
* `word_found` — the three agree on a word.
-/

namespace Concordance.Index

open Analyzer (IsWord)
open OpenIndex (Reached)
open Query (Hit matching)

/-! ## the statistics -/

/-- The ordinals are the numbers below that of the documents, each once. -/
def IsNumbered (i : Index) : Prop :=
  (i.published.flatten.map Entry.ordinal).Perm (List.range i.published.flatten.length)

/-- The term vector of a document lists a term. -/
def Lists (i : Index) (field : TextField) (term : String) (d : Nat) : Prop :=
  ∃ bag, (source.bag d field.name i).1 = .ok (some bag) ∧ term ∈ bag.map TermCount.term

theorem mem_bagOf_iff {tokens : List String} {term : String} :
    (∃ bag, FixedLexicon.bagOf tokens = some bag ∧ term ∈ bag.map TermCount.term) ↔
      term ∈ tokens := by
  unfold FixedLexicon.bagOf
  cases tokens with
  | nil => simp
  | cons token tokens =>
      have htally : term ∈ (FixedLexicon.tally (token :: tokens)).map TermCount.term ↔
          term ∈ token :: tokens := FixedLexicon.mem_terms_tally
      simp [← htally]

namespace IsNumbered

variable {i : Index} (hi : i.IsNumbered)
include hi

theorem nodup : (i.published.flatten.map Entry.ordinal).Nodup :=
  hi.nodup_iff.mpr List.nodup_range

theorem ordinal_lt {e : Entry} (he : e ∈ i.published.flatten) :
    e.ordinal < i.published.flatten.length :=
  List.mem_range.mp (hi.mem_iff.mp (List.mem_map_of_mem he))

theorem exists_mem {d : Nat} (hd : d < i.published.flatten.length) :
    ∃ e ∈ i.published.flatten, e.ordinal = d :=
  List.mem_map.mp (hi.mem_iff.mpr (List.mem_range.mpr hd))

/-- The term vector of a document lists the terms that the document has. -/
theorem lists_iff (hcoherent : i.Coherent) {field : TextField} {term : String} {d : Nat} :
    i.Lists field term d ↔ ∃ e ∈ i.published.flatten, e.ordinal = d ∧ term ∈ e.terms field := by
  obtain ⟨v, hv⟩ : ∃ v, View.ofSegments i.published field = .ok v :=
    View.exists_of_ordinal_lt fun _ he => hi.ordinal_lt he
  have hview : viewOf i.published field.name = .ok v := by
    rw [viewOf, textField, TextField.ofName?_name]
    exact hv
  have hbag : (source.bag d field.name i).1 = v.bag d := by
    refine ((agree_source i 0).bag d field.name i [] hcoherent.afterReads).1.eq.trans ?_
    simp [Lexicon.recorded, visible, hview, Except.bind]
  unfold Lists
  rw [hbag, (View.holds_ofSegments hv).bag]
  by_cases hd : d < i.published.flatten.length
  · obtain ⟨e, he, rfl⟩ := hi.exists_mem hd
    rw [if_pos hd, bagFrom_postings hi.nodup he]
    simp only [Except.ok.injEq]
    rw [mem_bagOf_iff]
    constructor
    · intro hterm
      exact ⟨e, he, rfl, hterm⟩
    · rintro ⟨e', he', hordinal, hterm⟩
      rwa [← List.inj_on_of_nodup_map hi.nodup he' he hordinal]
  · rw [if_neg hd]
    constructor
    · rintro ⟨bag, hbag, -⟩
      cases hbag
    · rintro ⟨e, he, rfl, -⟩
      exact absurd (hi.ordinal_lt he) hd

end IsNumbered

/-! ## searching and explaining -/

/-- A query finds documents, given by their ordinals, and explains the scores of just these. -/
structure Finds (i : Index) (q : Query) (ds : List Nat) : Prop where
  distinct : ds.Nodup
  once : ∀ limit, 0 < limit → ((i.search q limit).map Hit.ordinal).Nodup
  length : ∀ limit, 0 < limit → (i.search q limit).length = min limit ds.length
  mem : ∀ limit, 0 < limit → ∀ hit ∈ i.search q limit, hit.ordinal ∈ ds
  all : ∀ limit, 0 < limit → i.published.flatten.length ≤ limit →
    ∀ d ∈ ds, d ∈ (i.search q limit).map Hit.ordinal
  explained : ∀ d, (∃ text, i.explain q d = .ok text) ↔ d ∈ ds

theorem finds_matching {i : Index} (hi : i.IsNumbered) {q : Query}
    (hexplain : ∀ e, (Query.explain e (Query.weigh i.published.flatten q)).isSome =
      (Query.score e 1.0 (Query.weigh i.published.flatten q)).isSome) :
    i.Finds q ((matching i.published q).map Entry.ordinal) := by
  obtain ⟨hits, hsearch, hperm⟩ := Query.search_hits i.published q
  have hsearch : ∀ limit, i.search q limit = hits.take limit := hsearch
  have hordinals : (hits.map Hit.ordinal).Perm ((matching i.published q).map Entry.ordinal) := by
    simpa [Function.comp_def] using hperm.map Prod.fst
  have hlength : hits.length = ((matching i.published q).map Entry.ordinal).length := by
    simpa using hordinals.length_eq
  have hdistinct : ((matching i.published q).map Entry.ordinal).Nodup :=
    (List.filter_sublist.map _).nodup hi.nodup
  refine ⟨hdistinct, fun limit _ => ?_, fun limit _ => ?_, fun limit _ hit hhit => ?_,
    fun limit _ hlimit d hd => ?_, fun d => ?_⟩
  · rw [hsearch]
    exact ((List.take_sublist limit hits).map _).nodup (hordinals.nodup_iff.mpr hdistinct)
  · rw [hsearch, List.length_take, hlength]
  · rw [hsearch] at hhit
    exact hordinals.mem_iff.mp (List.mem_map_of_mem (List.mem_of_mem_take hhit))
  · have hall : hits.length ≤ limit := by
      have hle := List.length_filter_le (fun e =>
        (Query.score e 1.0 (Query.weigh i.published.flatten q)).isSome) i.published.flatten
      rw [hlength, List.length_map]
      exact Nat.le_trans hle hlimit
    rw [hsearch, List.take_of_length_le hall]
    exact hordinals.mem_iff.mpr hd
  · refine (Query.explainAt_ok_iff hi.nodup q d).trans ?_
    simp only [matching, List.mem_map, List.mem_filter, hexplain]
    exact exists_congr fun e => by tauto

/-- A hit has the title with which its document was committed. -/
theorem Committed.exists_document {i : Index} {documents : List Document}
    (h : Committed i documents) {q : Query} {limit : Nat} {hit : Hit}
    (hhit : hit ∈ i.search q limit) :
    ∃ d ∈ documents, d.ordinal = hit.ordinal ∧ d.title = hit.title := by
  obtain ⟨hits, hsearch, hperm⟩ := Query.search_hits i.published q
  have hsearch : i.search q limit = hits.take limit := hsearch limit
  rw [hsearch] at hhit
  have hmem := hperm.mem_iff.mp (List.mem_map_of_mem (List.mem_of_mem_take hhit))
  obtain ⟨e, he, heq⟩ := List.mem_map.mp hmem
  have hentry := (List.mem_filter.mp he).1
  rw [h.published] at hentry
  obtain ⟨d, hd, rfl⟩ := List.mem_map.mp hentry
  obtain ⟨hordinal, htitle⟩ := Prod.mk.inj heq
  exact ⟨d, hd, hordinal, htitle⟩

/-! ## words -/

section Word

variable {word : String} (hword : IsWord word.toList)
include hword

/-- A word has one token, or it is left out. -/
theorem tokens_word (a : Analyzer) (field : TextField) :
    (∃ t, a.tokens field word = [t]) ∨ a.tokens field word = [] := by
  have htokenize : (∃ t, a.tokenize word = [t]) ∨ a.tokenize word = [] := by
    rw [Analyzer.tokenize, Analyzer.runs_of_isWord hword]
    cases h : a.token? word.toList 0 <;> simp [h]
  cases field with
  | bib => exact .inl ⟨_, rfl⟩
  | title | author | content => exact htokenize

/-- A word is read in either style, without a warning. -/
theorem run_parse_word (i : Index) (style : Query.Style) (field : TextField)
    (hreserved : word ∉ Query.Classic.reserved) (w : Workspace) :
    ExceptT.run (i.parse style field.name word) w =
      (.ok (Query.ofTokens field (i.analyzer.tokens field word)), w) := by
  have hfield : textField field.name = .ok field := by rw [textField, TextField.ofName?_name]
  unfold parse
  rw [hfield, Job.run_ofExcept_bind]
  cases style with
  | classic =>
      dsimp only
      rw [Query.parseClassic_word hword i.analyzer field hreserved]
      rfl
  | lenient =>
      dsimp only
      rw [Query.parseLenient_word hword i.analyzer field]
      rfl

end Word

/-- What a query for one term of a field finds. -/
theorem finds_term {i : Index} (hi : i.IsNumbered) (hcoherent : i.Coherent) (field : TextField)
    (term : String) :
    ∃ ds, i.Finds (.term (.text field term)) ds ∧
      (source.documentFrequency field.name term i).1 = .ok ds.length.toUInt64 ∧
      ∀ d, d ∈ ds ↔ i.Lists field term d := by
  have hfound := finds_matching hi (q := .term (.text field term)) fun e => by
    rw [Bool.eq_iff_iff, Query.isSome_explain_term, Query.isSome_score_term]
  rw [Query.matching_text] at hfound
  refine ⟨_, hfound, ?_, fun d => ?_⟩
  · rw [List.length_map, ← List.countP_eq_length_filter, ← documentFrequency_eq_countP]
    simp [source, textField, Except.map]
  · rw [hi.lists_iff hcoherent]
    simp only [List.mem_map, List.mem_filter, decide_eq_true_eq]
    exact exists_congr fun e => by tauto

/-- The query for nothing finds nothing. -/
theorem finds_nothing {i : Index} (hi : i.IsNumbered) : i.Finds Query.nothing [] := by
  have hfound := finds_matching hi (q := Query.nothing) fun e => by
    rw [Query.explain_nothing, Query.score_nothing]
    rfl
  rwa [Query.matching_nothing] at hfound

/-- **Search, explanation and statistics agree**: a word is read in either style, and what it finds
are the documents whose term vectors list its token, or none where it has no token.  As many are
found as the document frequency says and the limit allows, each once and with its title, and scores
are explained for just these documents. -/
theorem word_found {o : OpenIndex} (ho : o.Reached) (hnumbered : o.index.IsNumbered)
    {word : String} (hword : IsWord word.toList) (hreserved : word ∉ Query.Classic.reserved)
    (style : Query.Style) (field : TextField) (w : Workspace) :
    ∃ q ds, ExceptT.run (o.index.parse style field.name word) w = (.ok q, w) ∧
      o.index.Finds q ds ∧
      ((∃ t, o.index.tokenize field.name word = .ok [t] ∧
          (source.documentFrequency field.name t o.index).1 = .ok ds.length.toUInt64 ∧
          ∀ d, d ∈ ds ↔ o.index.Lists field t d) ∨
        o.index.tokenize field.name word = .ok [] ∧ ds = []) ∧
      ∀ documents, Committed o.index documents → ∀ limit, ∀ hit ∈ o.index.search q limit,
        ∃ d ∈ documents, d.ordinal = hit.ordinal ∧ d.title = hit.title := by
  have hparse := run_parse_word hword o.index style field hreserved w
  have htitles : ∀ q documents, Committed o.index documents → ∀ limit,
      ∀ hit ∈ o.index.search q limit,
        ∃ d ∈ documents, d.ordinal = hit.ordinal ∧ d.title = hit.title :=
    fun _ _ hdocuments _ _ hhit => hdocuments.exists_document hhit
  have htokenize := Analyzer.tokenize_name o.index field word
  obtain ⟨t, htokens⟩ | htokens := tokens_word hword o.index.analyzer field
  · obtain ⟨ds, hfinds, hfrequency, hlists⟩ :=
      finds_term hnumbered ho.coherent field t.text
    rw [htokens] at hparse
    rw [Analyzer.terms, htokens] at htokenize
    exact ⟨_, ds, hparse, hfinds, .inl ⟨t.text, htokenize, hfrequency, hlists⟩, htitles _⟩
  · rw [htokens] at hparse
    rw [Analyzer.terms, htokens] at htokenize
    exact ⟨_, [], hparse, finds_nothing hnumbered, .inr ⟨htokenize, rfl⟩, htitles _⟩

/-- An index of three documents in two segments. -/
def threeTexts : OpenIndex where
  index := (after {} "content" outOfOrder).index

theorem published_threeTexts : threeTexts.index.published.flatten =
    [{ ordinal := 1, content := some "Dog dog cat" }, { ordinal := 2, title := some "cat" },
      { ordinal := 0, content := some "cat" }].map (Entry.ofDocument (Analyzer.ofConfig {})) := by
  have hanalyzer : threeTexts.index.analyzer = Analyzer.ofConfig {} :=
    (after_invariant {} "content" outOfOrder).1.analyzer
  rw [← hanalyzer]
  exact (Committed.inMemory {} "content" outOfOrder).published

theorem isNumbered_threeTexts : threeTexts.index.IsNumbered := by
  rw [IsNumbered, published_threeTexts]
  decide

/-- Two of the three documents have the word in their content, and a hit for it is asked for. -/
theorem word_found_threeTexts :
    threeTexts.Reached ∧ IsWord "Cat".toList ∧ "Cat" ∉ Query.Classic.reserved ∧
      ∃ q, ExceptT.run (threeTexts.index.parse .lenient "content" "Cat") OpenIndex.emptyDesk =
          (.ok q, OpenIndex.emptyDesk) ∧
        (∃ text, threeTexts.index.explain q 0 = .ok text) ∧
        (¬∃ text, threeTexts.index.explain q 2 = .ok text) ∧
        (threeTexts.index.search q 1).length = 1 := by
  have hreached : threeTexts.Reached := reached_after {} "content" outOfOrder OpenIndex.emptyDesk
  have hword : IsWord "Cat".toList := ⟨by decide, by simp; decide⟩
  have hreserved : "Cat" ∉ Query.Classic.reserved := by decide
  obtain ⟨q, ds, hparse, hfinds, hterm, -⟩ := word_found hreached isNumbered_threeTexts hword
    hreserved .lenient .content OpenIndex.emptyDesk
  have htokenize : threeTexts.index.tokenize "content" "Cat" = .ok ["cat"] := by
    have hanalyzer : threeTexts.index.analyzer = Analyzer.ofConfig {} :=
      (after_invariant {} "content" outOfOrder).1.analyzer
    have hterms : (Analyzer.ofConfig {}).terms .content "Cat" = ["cat"] := by decide +kernel
    rw [← hterms, ← hanalyzer]
    exact Analyzer.tokenize_name threeTexts.index .content "Cat"
  obtain ⟨t, ht, -, hlists⟩ | ⟨hnone, -⟩ := hterm
  · obtain rfl : "cat" = t := by simpa using Except.ok.inj (htokenize.symm.trans ht)
    have hmem : ∀ d, d ∈ ds ↔ ∃ e ∈ threeTexts.index.published.flatten,
        e.ordinal = d ∧ "cat" ∈ e.terms .content := fun d =>
      (hlists d).trans (isNumbered_threeTexts.lists_iff hreached.coherent)
    rw [published_threeTexts] at hmem
    have hfirst : 0 ∈ ds := (hmem 0).mpr ⟨Entry.ofDocument (Analyzer.ofConfig {})
      { ordinal := 0, content := some "cat" }, by simp, rfl, by decide +kernel⟩
    have hthird : 2 ∉ ds := by
      intro h
      obtain ⟨e, he, hordinal, hterm⟩ := (hmem 2).mp h
      simp only [List.map_cons, List.map_nil, List.mem_cons, List.not_mem_nil, or_false] at he
      obtain rfl | rfl | rfl := he
      · cases hordinal
      · cases hterm
      · cases hordinal
    refine ⟨hreached, hword, hreserved, q, hparse, (hfinds.explained 0).mpr hfirst,
      fun h => hthird ((hfinds.explained 2).mp h), ?_⟩
    have hpositive := List.length_pos_of_mem hfirst
    rw [hfinds.length 1 (by decide)]
    omega
  · cases htokenize.symm.trans hnone

end Concordance.Index
