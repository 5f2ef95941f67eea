import Concordance.Lexicon.Fixed
import Concordance.Proofs.Sorting

/-!
# Concordance.Proofs.Lexicon.Tally

The counts of tokens.

* `mem_terms_tally` — which terms are counted;
* `pairwise_tally` — the terms stand in strict order, so that none is counted twice.
-/

namespace Concordance.FixedLexicon

theorem mem_increase {table : Std.HashMap String UInt64} {term t : String} {n : UInt64} :
    t ∈ increase table term n ↔ term = t ∨ t ∈ table := by
  simp [increase]

theorem getD_increase (table : Std.HashMap String UInt64) (term t : String) (n : UInt64) :
    (increase table term n).getD t 0 = if term = t then table.getD t 0 + n else table.getD t 0 := by
  by_cases h : term = t <;> simp [increase, Std.HashMap.getD_insert, h]

/-- Counting tokens gives each of them a count. -/
theorem mem_foldl_increase (tokens : List String) (table : Std.HashMap String UInt64)
    (term : String) :
    term ∈ tokens.foldl (fun table token => increase table token 1) table ↔
      term ∈ tokens ∨ term ∈ table := by
  induction tokens generalizing table with
  | nil => simp
  | cons token rest ih =>
      rw [List.foldl_cons, ih, mem_increase, List.mem_cons]
      grind

/-- The terms counted are the keys of a table. -/
theorem perm_terms_tally (tokens : List String) :
    ((tally tokens).map TermCount.term).Perm
      (tokens.foldl (fun table token => increase table token 1) ∅).keys := by
  refine ((List.mergeSort_perm _ _).map TermCount.term).trans ?_
  rw [List.map_map, ← Std.HashMap.map_fst_toList_eq_keys]
  exact .refl _

theorem mem_terms_tally {tokens : List String} {term : String} :
    term ∈ (tally tokens).map TermCount.term ↔ term ∈ tokens := by
  rw [(perm_terms_tally tokens).mem_iff, Std.HashMap.mem_keys, mem_foldl_increase]
  simp

/-- The terms stand in strict order. -/
theorem pairwise_tally (tokens : List String) :
    (tally tokens).Pairwise fun a b => a.term < b.term :=
  pairwise_lt_of_nodup_key (pairwise_mergeSort_key TermCount.term _)
    ((perm_terms_tally tokens).nodup_iff.mpr Std.HashMap.nodup_keys)

theorem tally_eq_nil_iff {tokens : List String} : tally tokens = [] ↔ tokens = [] := by
  rw [← List.map_eq_nil_iff (f := TermCount.term), List.eq_nil_iff_forall_not_mem,
    List.eq_nil_iff_forall_not_mem]
  simp only [mem_terms_tally]

end Concordance.FixedLexicon
