import Concordance.Lexicon.Basic

/-!
# Concordance.Proofs.Statistics.Counts

What there is to meet in the documents of a lexicon: the counts of all bags, each with its document,
by document and then by their place in the bag.

* `bagIn_countsBelow` — the counts of one document are its bag;
* `mem_termsOf_countsBelow` — their terms are those of the bags.
-/

namespace Concordance.Statistics

/-- The frequency of a term in a bag: where it is listed twice the last one, and none where it is
not listed. -/
def lastFrequency (bag : Bag) (term : String) : UInt64 :=
  ((bag.reverse.find? (·.term == term)).map (·.frequency)).getD 0

/-- The terms of a field of a document.  A document without a bag has none. -/
def bagAt (l : Lexicon) (field : String) (document : Nat) : Bag :=
  match l.bag document field with
  | .ok (some bag) => bag
  | _ => []

theorem bagAt_of_ok {l : Lexicon} {field : String} {d : Nat} {bag : Option Bag}
    (h : l.bag d field = .ok bag) : bagAt l field d = bag.getD [] := by
  cases bag <;> simp [bagAt, h]

theorem mem_bagAt {l : Lexicon} {field : String} {d : Nat} {c : TermCount} :
    c ∈ bagAt l field d ↔ ∃ bag, l.bag d field = .ok (some bag) ∧ c ∈ bag := by
  unfold bagAt
  split
  · next bag h => simp [h]
  · next h =>
    simp only [List.not_mem_nil, false_iff]
    rintro ⟨bag, hbag, -⟩
    exact h bag hbag

/-- The counts of a document with the document. -/
def countsAt (l : Lexicon) (field : String) (document : Nat) : List (Nat × TermCount) :=
  (bagAt l field document).map (document, ·)

/-- All counts of the first documents, by document and then by their place in the bag. -/
def countsBelow (l : Lexicon) (field : String) (total : Nat) : List (Nat × TermCount) :=
  (List.range total).flatMap (countsAt l field)

/-- The terms of counts. -/
def termsOf (counts : List (Nat × TermCount)) : List String := counts.map (·.2.term)

/-- The counts of one document. -/
def bagIn (counts : List (Nat × TermCount)) (document : Nat) : Bag :=
  (counts.filter (·.1 == document)).map (·.2)

theorem lastFrequency_append_singleton (bag : Bag) (c : TermCount) (term : String) :
    lastFrequency (bag ++ [c]) term =
      if c.term = term then c.frequency else lastFrequency bag term := by
  unfold lastFrequency
  rw [List.reverse_append, List.reverse_singleton, List.singleton_append, List.find?_cons]
  by_cases h : c.term = term
  · simp [h]
  · simp [h, beq_eq_false_iff_ne.mpr h]

theorem lastFrequency_of_not_mem {bag : Bag} {term : String} (h : ∀ c ∈ bag, c.term ≠ term) :
    lastFrequency bag term = 0 := by
  have hnone : bag.reverse.find? (·.term == term) = none := by simpa using h
  rw [lastFrequency, hnone]
  rfl

theorem bagIn_append (xs ys : List (Nat × TermCount)) (document : Nat) :
    bagIn (xs ++ ys) document = bagIn xs document ++ bagIn ys document := by
  simp [bagIn]

theorem bagIn_singleton (d document : Nat) (c : TermCount) :
    bagIn [(d, c)] document = if d = document then [c] else [] := by
  by_cases h : d = document <;> simp [bagIn, h]

theorem lastFrequency_bagIn_of_not_mem {counts : List (Nat × TermCount)} {term : String}
    (h : term ∉ termsOf counts) (document : Nat) :
    lastFrequency (bagIn counts document) term = 0 := by
  refine lastFrequency_of_not_mem fun c hc he => h ?_
  obtain ⟨⟨d, c'⟩, hmem, rfl⟩ := List.mem_map.mp hc
  exact List.mem_map.mpr ⟨(d, c'), (List.mem_filter.mp hmem).1, he⟩

/-- One more count is the last one of its term in its document and leaves all others. -/
theorem lastFrequency_bagIn_append_singleton (counts : List (Nat × TermCount)) (d document : Nat)
    (c : TermCount) (term : String) :
    lastFrequency (bagIn (counts ++ [(d, c)]) document) term =
      if d = document ∧ c.term = term then c.frequency
      else lastFrequency (bagIn counts document) term := by
  rw [bagIn_append, bagIn_singleton]
  by_cases h : d = document
  · simp [h, lastFrequency_append_singleton]
  · simp [h]

theorem bagIn_countsAt (l : Lexicon) (field : String) (d document : Nat) :
    bagIn (countsAt l field d) document = if d = document then bagAt l field d else [] := by
  by_cases h : d = document <;> simp [bagIn, countsAt, List.filter_map, Function.comp_def, h]

theorem countsBelow_succ (l : Lexicon) (field : String) (n : Nat) :
    countsBelow l field (n + 1) = countsBelow l field n ++ countsAt l field n := by
  simp [countsBelow, List.range_succ]

theorem bagIn_countsBelow (l : Lexicon) (field : String) (document total : Nat) :
    bagIn (countsBelow l field total) document =
      if document < total then bagAt l field document else [] := by
  induction total with
  | zero => simp [countsBelow, bagIn]
  | succ n ih =>
      rw [countsBelow_succ, bagIn_append, ih, bagIn_countsAt]
      by_cases h : n = document
      · simp [h]
      · have hlt : document < n + 1 ↔ document < n := by omega
        simp [h, hlt]

theorem mem_termsOf_countsBelow {l : Lexicon} {field term : String} {total : Nat} :
    term ∈ termsOf (countsBelow l field total) ↔
      ∃ d < total, ∃ c ∈ bagAt l field d, c.term = term := by
  simp [termsOf, countsBelow, countsAt]
  grind

end Concordance.Statistics
