import Concordance.Proofs.Lexicon.Tally
import Mathlib.Data.List.Nodup

/-!
# Concordance.Proofs.Lexicon.Fixed

What a lexicon of fixed documents answers: its frequencies are those of the counts of all documents.

* `documentFrequency_ofTokens` — a term occurs in the documents that have it among their tokens;
* `collectionFrequency_ofTokens` — a term occurs as often as the counts of the documents say.
-/

namespace Concordance.FixedLexicon

/-- How often a term occurs by counts. -/
def occurring (counts : List TermCount) (term : String) : UInt64 :=
  ((counts.filter (·.term == term)).map TermCount.frequency).foldl (· + ·) 0

theorem occurring_append_singleton (counts : List TermCount) (c : TermCount) (term : String) :
    occurring (counts ++ [c]) term =
      if c.term = term then occurring counts term + c.frequency else occurring counts term := by
  by_cases h : c.term = term <;> simp [occurring, h]

theorem occurring_perm {xs ys : List TermCount} (h : xs.Perm ys) (term : String) :
    occurring xs term = occurring ys term := by
  refine ((h.filter _).map TermCount.frequency).foldl_eq' (fun a _ b _ n => ?_) 0
  rw [UInt64.add_assoc, UInt64.add_assoc, UInt64.add_comm b a]

/-- What a lexicon holds that has counted. -/
structure Counted (field : String) (bags : List (Option Bag)) (counts : List TermCount)
    (s : FixedLexicon) : Prop where
  field : s.field = field
  bags : s.bags = bags
  unreadable : s.unreadable = none
  documents : ∀ term, s.documentFrequencies.getD term 0 =
    (counts.countP (·.term == term)).toUInt64
  collection : ∀ term, s.collectionFrequencies.getD term 0 = occurring counts term

namespace Counted

variable {field : String} {bags : List (Option Bag)} {counts : List TermCount} {s : FixedLexicon}

theorem count (h : Counted field bags counts s) (c : TermCount) :
    Counted field bags (counts ++ [c]) (s.count c) where
  field := h.field
  bags := h.bags
  unreadable := h.unreadable
  documents term := by
    have hbefore := h.documents term
    rw [FixedLexicon.count, getD_increase, hbefore, List.countP_append]
    by_cases hterm : c.term = term <;> simp [hterm]
  collection term := by
    rw [FixedLexicon.count, getD_increase, h.collection, occurring_append_singleton]

theorem foldl_count (h : Counted field bags counts s) (more : List TermCount) :
    Counted field bags (counts ++ more) (more.foldl FixedLexicon.count s) := by
  induction more generalizing s counts with
  | nil => rwa [List.append_nil]
  | cons c rest ih =>
      rw [List.append_cons]
      exact ih (h.count c)

end Counted

variable (field : String) (documents : List (List String))

/-- The counts of documents one after the other. -/
theorem flatten_bags :
    ((documents.map bagOf).filterMap id).flatten = documents.flatMap tally := by
  induction documents with
  | nil => rfl
  | cons tokens rest ih =>
      rw [List.map_cons, List.flatMap_cons, ← ih]
      by_cases h : tokens = []
      · have htally : tally [] = [] := tally_eq_nil_iff.mpr rfl
        simp [bagOf, h, htally]
      · simp [bagOf, h]

theorem counted_ofTokens :
    Counted field (documents.map bagOf) (documents.flatMap tally) (ofTokens field documents) := by
  have hstart : Counted field (documents.map bagOf) []
      { field := field, bags := documents.map bagOf } :=
    ⟨rfl, rfl, rfl, fun term => by simp, fun term => by simp [occurring]⟩
  rw [ofTokens, ofBags, flatten_bags]
  exact hstart.foldl_count _

/-- A term has one count in each document that has it. -/
theorem countP_tally (tokens : List String) (term : String) :
    (tally tokens).countP (·.term == term) = if term ∈ tokens then 1 else 0 := by
  have hnodup : ((tally tokens).map TermCount.term).Nodup :=
    (perm_terms_tally tokens).nodup_iff.mpr Std.HashMap.nodup_keys
  have hcount : (tally tokens).countP (·.term == term) =
      ((tally tokens).map TermCount.term).count term := by
    rw [List.count, List.countP_map]
    rfl
  rw [hcount]
  split
  · next h => exact List.count_eq_one_of_mem hnodup (mem_terms_tally.mpr h)
  · next h => exact List.count_eq_zero.mpr fun hmem => h (mem_terms_tally.mp hmem)

theorem countP_flatMap_tally (term : String) :
    (documents.flatMap tally).countP (·.term == term) = documents.countP (term ∈ ·) := by
  induction documents with
  | nil => rfl
  | cons tokens rest ih =>
      rw [List.flatMap_cons, List.countP_append, ih, countP_tally, List.countP_cons]
      by_cases h : term ∈ tokens <;> simp [h, Nat.add_comm]

/-! ## answers -/

theorem documentFrequency_ofTokens (term : String) :
    (ofTokens field documents).lexicon.documentFrequency field term =
      .ok (documents.countP (term ∈ ·)).toUInt64 := by
  have h := counted_ofTokens field documents
  simp only [lexicon, frequency, h.field, if_true, h.documents, countP_flatMap_tally]

theorem collectionFrequency_ofTokens (term : String) :
    (ofTokens field documents).lexicon.collectionFrequency field term =
      .ok (occurring (documents.flatMap tally) term) := by
  have h := counted_ofTokens field documents
  simp only [lexicon, frequency, h.field, if_true, h.collection]

theorem bag_ofTokens (d : Nat) :
    (ofTokens field documents).lexicon.bag d field =
      match documents[d]? with
      | some tokens => .ok (bagOf tokens)
      | none => .error (.lexicon (.noDocument d)) := by
  have h := counted_ofTokens field documents
  simp only [lexicon, bag, h.unreadable, h.bags, h.field, List.getElem?_map]
  cases documents[d]? <;> rfl

theorem total_ofTokens : (ofTokens field documents).lexicon.total = .ok documents.length := by
  rw [lexicon, length_ofTokens]

end Concordance.FixedLexicon
