import Concordance.Index.Basic

/-!
# Concordance.Proofs.Analyzer.Runs

The longest runs of letters and digits in a text, and the terms that are made of them.

`HasRuns` divides a text into runs with gaps between them and does not know how the analyzer takes a
text apart; every text is divided in one way only, and the runs are those of the analyzer.

* `runs_of_hasRuns`, `hasRuns_runs` — the runs of a text;
* `terms_eq` — the terms of a text: its runs in lowercase, without the long ones and the stop words;
* `tokenize_short` — without stop words the terms are the runs that stay below the token length;
* `not_kept_at_limit` — a run of just the token length is left out as well.
-/

namespace Concordance.Analyzer

open Text

/-! ## runs and gaps -/

/-- A text and its longest runs of letters and digits, in order.  The gaps have none of them, and no
run goes on behind its end. -/
inductive HasRuns : List Char → List (List Char) → Prop
  | gap {gap : List Char} (hgap : ∀ c ∈ gap, isAlphanumeric c = false) : HasRuns gap []
  | run {gap run rest : List Char} {rs : List (List Char)}
      (hgap : ∀ c ∈ gap, isAlphanumeric c = false) (hne : run ≠ [])
      (hrun : ∀ c ∈ run, isAlphanumeric c = true)
      (hend : ∀ c, rest.head? = some c → isAlphanumeric c = false) (hrest : HasRuns rest rs) :
      HasRuns (gap ++ (run ++ rest)) (run :: rs)

/-- A word: letters and digits only, and at least one of them. -/
structure IsWord (word : List Char) : Prop where
  ne_nil : word ≠ []
  alphanumeric : ∀ c ∈ word, isAlphanumeric c = true

/-- A character more in front of a text is one more in its gap, one more of its first run, or a run
of its own. -/
theorem HasRuns.cons {cs : List Char} {rs : List (List Char)} (h : HasRuns cs rs) (c : Char) :
    ∃ rs, HasRuns (c :: cs) rs := by
  cases hc : isAlphanumeric c with
  | false =>
      cases h with
      | gap hgap => exact ⟨[], .gap (by simpa [hc] using hgap)⟩
      | @run gap run rest rs hgap hne hrun hend hrest =>
          refine ⟨run :: rs, ?_⟩
          show HasRuns ((c :: gap) ++ (run ++ rest)) (run :: rs)
          exact .run (by simpa [hc] using hgap) hne hrun hend hrest
  | true =>
      -- whatever begins with a gap does not go on with the run of this character
      have hown (hend : ∀ d, cs.head? = some d → isAlphanumeric d = false) :
          ∃ rs, HasRuns (c :: cs) rs := by
        refine ⟨[c] :: rs, ?_⟩
        show HasRuns ([] ++ ([c] ++ cs)) ([c] :: rs)
        exact .run (by simp) (by simp) (by simpa) hend h
      cases h with
      | gap hgap =>
          refine hown fun d hd => hgap d ?_
          exact List.mem_of_head? hd
      | @run gap run rest rs hgap hne hrun hend hrest =>
          cases gap with
          | nil =>
              refine ⟨(c :: run) :: rs, ?_⟩
              show HasRuns ([] ++ ((c :: run) ++ rest)) ((c :: run) :: rs)
              exact .run (by simp) (by simp) (by simpa [hc] using hrun) hend hrest
          | cons d gap =>
              refine hown fun e he => ?_
              obtain rfl : d = e := by simpa using he
              exact hgap d (by simp)

theorem exists_hasRuns (cs : List Char) : ∃ rs, HasRuns cs rs := by
  induction cs with
  | nil => exact ⟨[], .gap (by simp)⟩
  | cons c cs ih =>
      obtain ⟨rs, h⟩ := ih
      exact h.cons c

theorem runs_cons_gap {c : Char} (h : isAlphanumeric c = false) (cs : List Char) :
    runs (c :: cs) = runs cs := by
  simp [runs, List.splitOnP_cons_eq_if_modifyHead, h]

theorem runs_gap_append {gap : List Char} (h : ∀ c ∈ gap, isAlphanumeric c = false)
    (cs : List Char) : runs (gap ++ cs) = runs cs := by
  induction gap with
  | nil => rfl
  | cons c gap ih =>
      rw [List.cons_append, runs_cons_gap (h c (by simp))]
      exact ih fun d hd => h d (by simp [hd])

theorem runs_of_isWord {word : List Char} (h : IsWord word) : runs word = [word] := by
  rw [runs, List.splitOnP_eq_singleton fun c hc => by simp [h.alphanumeric c hc]]
  simp [h.ne_nil]

/-- A run ends where a gap begins. -/
theorem runs_word_append {word rest : List Char} (h : IsWord word)
    (hend : ∀ c, rest.head? = some c → isAlphanumeric c = false) :
    runs (word ++ rest) = word :: runs rest := by
  cases rest with
  | nil =>
      rw [List.append_nil, runs_of_isWord h]
      rfl
  | cons c rest =>
      have hc : isAlphanumeric c = false := hend c rfl
      have hword : (word.splitOnP (!isAlphanumeric ·)).filter (!·.isEmpty) = [word] :=
        runs_of_isWord h
      rw [runs_cons_gap hc, runs, List.splitOnP_append_cons word rest (by simp [hc]),
        List.filter_append, hword]
      rfl

/-- A text is divided in one way only, which is how the analyzer takes it apart. -/
theorem runs_of_hasRuns {cs : List Char} {rs : List (List Char)} (h : HasRuns cs rs) :
    runs cs = rs := by
  induction h with
  | gap hgap => simpa [runs, List.splitOnP_nil] using runs_gap_append hgap []
  | run hgap hne hrun hend _ ih => rw [runs_gap_append hgap, runs_word_append ⟨hne, hrun⟩ hend, ih]

theorem hasRuns_runs (cs : List Char) : HasRuns cs (runs cs) := by
  obtain ⟨rs, h⟩ := exists_hasRuns cs
  rwa [runs_of_hasRuns h]

/-! ## terms -/

/-- A run as a term. -/
def termOf (run : List Char) : String := String.ofList (lowerChars run)

/-- The runs of a text that are short enough, as terms. -/
def shortTerms (limit : Nat) (rs : List (List Char)) : List String :=
  (rs.filter fun r => decide (byteLength r < limit)).map termOf

theorem map_text_token? (a : Analyzer) (run : List Char) (position : Nat) :
    (a.token? run position).map Token.text =
      if byteLength run < a.maxTokenLength ∧ termOf run ∉ a.stopWords then some (termOf run)
      else none := by
  unfold token?
  by_cases hlength : byteLength run < a.maxTokenLength
  · by_cases hstop : termOf run ∈ a.stopWords
    · simp_all [termOf, Nat.not_le.mpr hlength]
    · simp_all [termOf, Nat.not_le.mpr hlength]
  · simp [hlength, Nat.not_lt.mp hlength]

/-- The terms of a text that is taken apart: its short runs in lowercase, without the stop words. -/
theorem terms_eq (a : Analyzer) {field : TextField} (hfield : field ≠ .bib) (text : String) :
    a.terms field text =
      (shortTerms a.maxTokenLength (runs text.toList)).filter fun t => t ∉ a.stopWords := by
  have htokens : a.tokens field text = a.tokenize text := by
    cases field <;> first | rfl | exact absurd rfl hfield
  -- where a run stands makes no difference to its term
  have hruns : ∀ rs : List (List Char),
      rs.filterMap (fun r => if byteLength r < a.maxTokenLength ∧ termOf r ∉ a.stopWords
        then some (termOf r) else none) =
      (shortTerms a.maxTokenLength rs).filter fun t => t ∉ a.stopWords := by
    intro rs
    induction rs with
    | nil => rfl
    | cons r rs ih => grind [shortTerms]
  calc
    a.terms field text = (a.tokenize text).map Token.text := by rw [terms, htokens]
    _ = (runs text.toList).zipIdx.filterMap fun x => (a.token? x.1 x.2).map Token.text :=
      List.map_filterMap
    _ = ((runs text.toList).zipIdx.map Prod.fst).filterMap
        (fun r => if byteLength r < a.maxTokenLength ∧ termOf r ∉ a.stopWords
          then some (termOf r) else none) := by
      simp only [map_text_token?, List.filterMap_map, Function.comp_def]
    _ = _ := by rw [List.zipIdx_map_fst, hruns]

/-- An index takes a text of a field apart as its analyzer does. -/
theorem tokenize_name (i : Index) (field : TextField) (text : String) :
    i.tokenize field.name text = .ok (i.analyzer.terms field text) := by
  rw [Index.tokenize, Index.textField, TextField.ofName?_name]

/-- **Which runs become terms**: without stop words the terms of a text are its longest runs of
letters and digits, in lowercase and in order, as far as they are shorter than the token length. -/
theorem tokenize_short {c : Config} (hstop : c.stopWords = []) {i : Index}
    (hi : i.analyzer = ofConfig c) {field : TextField} (hfield : field ≠ .bib) (text : String) :
    ∃ rs, (∀ rs', HasRuns text.toList rs' ↔ rs' = rs) ∧
      i.tokenize field.name text = .ok (shortTerms c.maxTokenLength rs) := by
  refine ⟨runs text.toList, fun rs' => ⟨fun h => (runs_of_hasRuns h).symm, ?_⟩, ?_⟩
  · rintro rfl
    exact hasRuns_runs text.toList
  · have hnone : (ofConfig c).stopWords = [] := by rw [ofConfig, hstop, List.map_nil]
    have hlimit : (ofConfig c).maxTokenLength = c.maxTokenLength := rfl
    rw [tokenize_name, hi, terms_eq _ hfield, hnone, hlimit]
    simp

/-- The bytes of a run are counted and not its characters, of which the second run has four. -/
theorem tokenize_short_pets :
    ({ maxTokenLength := 5 } : Config).stopWords = [] ∧
      (Index.empty { maxTokenLength := 5 }).analyzer = ofConfig { maxTokenLength := 5 } ∧
      TextField.content ≠ .bib ∧
      (Index.empty { maxTokenLength := 5 }).tokenize "content" "Cats, naïf dog" =
        .ok ["cats", "dog"] := by
  have hcontent : TextField.content ≠ .bib := by decide
  obtain ⟨rs, hrs, hterms⟩ := tokenize_short (c := { maxTokenLength := 5 }) rfl
    (i := Index.empty { maxTokenLength := 5 }) rfl hcontent "Cats, naïf dog"
  obtain rfl := (hrs _).mp (hasRuns_runs "Cats, naïf dog".toList)
  have hshort : shortTerms 5 (runs "Cats, naïf dog".toList) = ["cats", "dog"] := by decide +kernel
  exact ⟨rfl, rfl, hcontent, hterms.trans (congrArg Except.ok hshort)⟩

/-- A run of just the token length is left out as well: it is not so that only longer ones are. -/
theorem not_kept_at_limit :
    ¬∀ (c : Config) (text : String) (rs : List (List Char)), c.check = .ok () → c.stopWords = [] →
      HasRuns text.toList rs → (Index.empty c).tokenize "content" text =
        .ok ((rs.filter fun r => decide (byteLength r ≤ c.maxTokenLength)).map termOf) := by
  intro h
  have hruns := hasRuns_runs "cat".toList
  have hkept := (tokenize_name _ .content "cat").symm.trans
    (h { maxTokenLength := 3 } "cat" _ rfl rfl hruns)
  have hthree : ((runs "cat".toList).filter fun r => decide (byteLength r ≤ 3)).map termOf =
      ["cat"] := by decide +kernel
  have hleft : (Analyzer.ofConfig { maxTokenLength := 3 }).terms .content "cat" = [] := by
    decide +kernel
  exact absurd ((hleft.symm.trans (Except.ok.inj hkept)).trans hthree) (by decide)

end Concordance.Analyzer
