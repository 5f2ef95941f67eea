import Concordance.Proofs.Analyzer.Runs
import Concordance.Proofs.Text.Lowercase
import Mathlib.Data.List.Basic

/-!
# Concordance.Proofs.Analyzer.StopWords

What stop words do to the terms of a text.  A stop word is lowercased as a whole and a run of the
text one character at a time, so that a word which ends in a capital sigma does not meet its own
term.

* `terms_filter` — stop words only leave terms out;
* `lowercase_eq_term_iff` — in lowercase a word is its own term unless a capital sigma ends it;
* `stopWords_left_out` — what a list of stop words leaves of the terms of a text;
* `not_left_out_sigma` — a word in the list that stays in the text.
-/

namespace Concordance.Analyzer

open Text

/-- The analyzer that settings would ask for without their stop words. -/
def unfiltered (c : Config) : Analyzer := ofConfig { c with stopWords := [] }

section Taken

variable {c : Config} {field : TextField} (hfield : field ≠ .bib)
include hfield

theorem terms_unfiltered (text : String) :
    (unfiltered c).terms field text = shortTerms c.maxTokenLength (runs text.toList) := by
  have hstop : (unfiltered c).stopWords = [] := rfl
  rw [terms_eq _ hfield, hstop]
  simp [unfiltered, ofConfig]

/-- Stop words only leave terms out, and they leave out those that they are in lowercase. -/
theorem terms_filter (text : String) :
    (ofConfig c).terms field text =
      ((unfiltered c).terms field text).filter fun t => t ∉ c.stopWords.map lowercase := by
  rw [terms_eq _ hfield, terms_unfiltered hfield]
  rfl

/-- A word has one term or, if it is too long, none. -/
theorem terms_unfiltered_word {word : String} (h : IsWord word.toList) :
    (unfiltered c).terms field word =
      if byteLength word.toList < c.maxTokenLength then [termOf word.toList] else [] := by
  rw [terms_unfiltered hfield, runs_of_isWord h]
  by_cases hlength : byteLength word.toList < c.maxTokenLength <;> simp [shortTerms, hlength]

theorem eq_termOf {word t : String} (h : IsWord word.toList)
    (ht : (unfiltered c).terms field word = [t]) : t = termOf word.toList := by
  rw [terms_unfiltered_word hfield h] at ht
  split at ht
  · exact (List.singleton_inj.mp ht).symm
  · cases ht

/-- In lowercase a word is its own term unless a capital sigma ends it. -/
theorem lowercase_eq_term_iff {word t : String} (h : IsWord word.toList)
    (ht : (unfiltered c).terms field word = [t]) :
    lowercase word = t ↔ ¬HasFinalSigma word.toList := by
  rw [eq_termOf hfield h ht]
  exact lowercase_eq_iff word

/-- **Stop words**: the term of a word in the list is left out of every text, unless a capital sigma
ends the word.  Where the list has only words that are not ended by a capital sigma, the terms of a
text are those without any list less the terms of the listed words.  A word that is the only one in
the list is left out exactly if no capital sigma ends it. -/
theorem stopWords_left_out {i : Index} (hi : i.analyzer = ofConfig c) :
    (∀ word ∈ c.stopWords, IsWord word.toList → ¬HasFinalSigma word.toList →
      ∀ t, (unfiltered c).terms field word = [t] →
        ∀ text, ∃ terms, i.tokenize field.name text = .ok terms ∧ t ∉ terms) ∧
    ((∀ word ∈ c.stopWords, IsWord word.toList ∧ ¬HasFinalSigma word.toList ∧
        ∃ t, (unfiltered c).terms field word = [t]) →
      ∀ text, i.tokenize field.name text = .ok (((unfiltered c).terms field text).filter
        fun t => t ∉ c.stopWords.flatMap ((unfiltered c).terms field))) ∧
    ∀ word t, c.stopWords = [word] → IsWord word.toList → (unfiltered c).terms field word = [t] →
      (i.tokenize field.name word = .ok [] ↔ ¬HasFinalSigma word.toList) := by
  have htokenize : ∀ text, i.tokenize field.name text = .ok ((ofConfig c).terms field text) := by
    intro text
    rw [tokenize_name, hi]
  refine ⟨fun word hword hisWord hsigma t ht text => ⟨_, htokenize text, ?_⟩,
    fun hlist text => ?_, fun word t hstop hword ht => ?_⟩
  · have hlower := (lowercase_eq_term_iff hfield hisWord ht).mpr hsigma
    have hlisted : t ∈ c.stopWords.map lowercase := hlower ▸ List.mem_map_of_mem hword
    rw [terms_filter hfield]
    intro hmem
    exact of_decide_eq_true (List.mem_filter.mp hmem).2 hlisted
  · -- the words in lowercase are just their terms
    have hwords : c.stopWords.map lowercase =
        c.stopWords.flatMap ((unfiltered c).terms field) := by
      rw [List.map_eq_flatMap]
      refine List.flatMap_congr fun word hword => ?_
      obtain ⟨hisWord, hsigma, t, ht⟩ := hlist word hword
      rw [ht, (lowercase_eq_term_iff hfield hisWord ht).mpr hsigma]
    rw [htokenize, terms_filter hfield, hwords]
  · rw [htokenize, terms_filter hfield, ht, hstop, ← lowercase_eq_term_iff hfield hword ht]
    by_cases heq : t = lowercase word
    · simp [← heq]
    · simp [heq, Ne.symm heq]

end Taken

/-- Settings with two stop words.  The capital sigma of the second one begins the word. -/
def stopping : Config where
  stopWords := ["The", "ΣΟΦΙΑ"]

/-- Both words are left out, in any case. -/
theorem stopWords_left_out_sofia :
    (∀ word ∈ stopping.stopWords, IsWord word.toList ∧ ¬HasFinalSigma word.toList ∧
        ∃ t, (unfiltered stopping).terms .content word = [t]) ∧
      TextField.content ≠ .bib ∧ (Index.empty stopping).analyzer = ofConfig stopping ∧
      (Index.empty stopping).tokenize "content" "the Σοφια, The cat" = .ok ["cat"] := by
  have hthe : IsWord "The".toList := ⟨by decide, by simp; decide⟩
  have hsofia : IsWord "ΣΟΦΙΑ".toList := ⟨by decide, by simp; decide⟩
  have hlist : ∀ word ∈ stopping.stopWords, IsWord word.toList ∧ ¬HasFinalSigma word.toList ∧
      ∃ t, (unfiltered stopping).terms .content word = [t] := by
    simp only [stopping, List.forall_mem_cons]
    refine ⟨⟨hthe, ?_, _, terms_unfiltered_word (by decide) hthe⟩,
      ⟨hsofia, ?_, _, terms_unfiltered_word (by decide) hsofia⟩, by simp⟩
    all_goals
      rw [← lowercase_eq_iff]
      decide +kernel
  have hcontent : TextField.content ≠ .bib := by decide
  refine ⟨hlist, hcontent, rfl, ((stopWords_left_out hcontent rfl).2.1 hlist _).trans ?_⟩
  have hterms : ((unfiltered stopping).terms .content "the Σοφια, The cat").filter
      (fun t => t ∉ stopping.stopWords.flatMap ((unfiltered stopping).terms .content)) =
        ["cat"] := by
    decide +kernel
  exact congrArg Except.ok hterms

/-- A word that a capital sigma ends stays in the text, although it is in the list. -/
theorem not_left_out_sigma :
    ¬∀ (c : Config) (word t : String), word ∈ c.stopWords → IsWord word.toList →
      (unfiltered c).terms .content word = [t] →
        ∀ text terms, (Index.empty c).tokenize "content" text = .ok terms → t ∉ terms := by
  intro h
  have hodos : IsWord "ΟΔΟΣ".toList := ⟨by decide, by simp; decide⟩
  have hterm : (unfiltered { stopWords := ["ΟΔΟΣ"] }).terms .content "ΟΔΟΣ" = ["οδοσ"] := by
    decide +kernel
  have hstays : (ofConfig { stopWords := ["ΟΔΟΣ"] }).terms .content "ΟΔΟΣ" = ["οδοσ"] := by
    decide +kernel
  refine h { stopWords := ["ΟΔΟΣ"] } "ΟΔΟΣ" "οδοσ" (by decide) hodos hterm "ΟΔΟΣ" ["οδοσ"] ?_
    (List.mem_singleton_self _)
  exact (tokenize_name _ .content "ΟΔΟΣ").trans (congrArg Except.ok hstays)

end Concordance.Analyzer
