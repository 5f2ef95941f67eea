import Concordance.Lexicon.Fixed
import Concordance.Proofs.Statistics.Questions
import Mathlib.Data.List.Dedup

/-!
# Concordance.Proofs.Statistics.Lookups

How many frequencies are looked up in a lexicon of fixed documents while a table is built.

A step of the walk stands in one place among the steps, so what was asked before the walk stops is
known from where it stops: the steps about all documents before that one and, where it stops at a
term, about the terms before that one.

* `countP_isFrequency_inquiriesFrom` — two lookups for each term that is met;
* `eq_inquiries_of_bag`, `eq_inquiries_of_plausibility` — the steps before a given one;
* `lookups_of_build` — what building looks up until it ends.
-/

namespace Concordance.Statistics

variable {l : Lexicon} {total : Nat} {field : String}

/-! ## terms met -/

/-- The terms of a number of documents, from an ordinal on, in the order in which they are met. -/
def termsFrom (l : Lexicon) (field : String) (document n : Nat) : List String :=
  (List.range' document n).flatMap fun d => (bagAt l field d).map TermCount.term

/-- The terms of the first documents, in the order in which they are met. -/
def termsBelow (l : Lexicon) (field : String) (n : Nat) : List String :=
  termsOf (countsBelow l field n)

theorem termsFrom_zero (n : Nat) : termsFrom l field 0 n = termsBelow l field n := by
  simp [termsFrom, termsBelow, termsOf, countsBelow, countsAt, List.map_flatMap,
    List.range_eq_range', Function.comp_def]

theorem termsFrom_succ (d n : Nat) :
    termsFrom l field d (n + 1) =
      (bagAt l field d).map TermCount.term ++ termsFrom l field (d + 1) n := by
  simp [termsFrom, List.range'_succ]

theorem unmet_append (met xs ys : List String) :
    unmet met (xs ++ ys) = unmet met xs ++ unmet (met ++ xs) ys := by
  induction xs generalizing met with
  | nil => simp [unmet]
  | cons x xs ih => by_cases h : x ∈ met <;> simp [unmet, h, ih]

/-- How many different terms there are. -/
def distinct (terms : List String) : Nat := terms.dedup.length

theorem length_unmet (terms : List String) : (unmet [] terms).length = distinct terms := by
  have hperm : (unmet [] terms).Perm terms.dedup :=
    (List.perm_ext_iff_of_nodup (nodup_unmet [] terms) terms.nodup_dedup).mpr fun t => by
      simp [mem_unmet]
  exact hperm.length_eq

/-! ## steps and lookups -/

namespace Inquiry

/-- Whether a step asks for a frequency. -/
def isFrequency : Inquiry → Bool
  | .documentFrequency _ => true
  | .collectionFrequency _ => true
  | _ => false

end Inquiry

open Inquiry (isFrequency fault? questions)

theorem lookups_questions (field : String) (steps : List Inquiry) :
    FixedLexicon.lookups (questions field steps) = steps.countP isFrequency := by
  rw [FixedLexicon.lookups, questions, List.countP_filterMap]
  refine List.countP_congr fun i _ => ?_
  cases i <;> simp [Inquiry.question?, FixedLexicon.isLookup, isFrequency]

theorem countP_isFrequency_flatMap (terms : List String) :
    (terms.flatMap Inquiry.ofTerm).countP isFrequency = 2 * terms.length := by
  induction terms with
  | nil => rfl
  | cons t terms ih =>
      rw [List.flatMap_cons, List.countP_append, ih, List.length_cons]
      simp only [Inquiry.ofTerm, List.countP_cons, isFrequency, List.countP_nil]
      simp
      omega

/-- Two frequencies are looked up for each term that is met. -/
theorem countP_isFrequency_inquiriesFrom (met : List String) (d n : Nat) :
    (inquiriesFrom l field met d n).countP isFrequency =
      2 * (unmet met (termsFrom l field d n)).length := by
  induction n generalizing met d with
  | zero => rfl
  | succ n ih =>
      rw [inquiriesFrom, termsFrom_succ, unmet_append]
      simp only [List.cons_append, List.countP_cons, List.countP_append, ih,
        countP_isFrequency_flatMap, List.length_append, isFrequency]
      simp
      omega

/-! ## the steps before a given one -/

/-- A step stands in one place, so it tells which steps are before it. -/
theorem before_eq {steps before before' : List Inquiry} {last : Inquiry} (hnodup : steps.Nodup)
    (h : before ++ [last] <+: steps) (h' : before' ++ [last] <+: steps) : before = before' := by
  obtain ⟨rest, rfl⟩ := h
  obtain ⟨rest', hrest⟩ := h'
  simp only [List.append_assoc, List.singleton_append] at hnodup hrest
  obtain ⟨-, hlast, hbefore⟩ := List.nodup_append'.mp hnodup
  have hfirst : last ∉ before := fun hmem => hbefore hmem List.mem_cons_self
  have hthen : last ∉ rest := (List.nodup_cons.mp hlast).1
  exact ((List.append_cons_inj_of_notMem hfirst hthen).mp hrest.symm).1

/-- The steps about some documents and then those about the documents after them. -/
theorem inquiriesFrom_add (met : List String) (d m n : Nat) :
    inquiriesFrom l field met d (m + n) = inquiriesFrom l field met d m ++
      inquiriesFrom l field (met ++ termsFrom l field d m) (d + m) n := by
  induction m generalizing met d with
  | zero => simp [inquiriesFrom, termsFrom]
  | succ m ih =>
      rw [Nat.add_right_comm, inquiriesFrom, ih, inquiriesFrom, termsFrom_succ,
        Nat.add_right_comm d 1 m]
      simp [List.append_assoc, Nat.add_assoc]

/-- A step is about a document, or about a term that is met first in a document. -/
theorem exists_document {met : List String} {d n : Nat} {i : Inquiry}
    (h : i ∈ inquiriesFrom l field met d n) :
    ∃ k < n, i = .bag (d + k) ∨ ∃ term ∈ unmet (met ++ termsFrom l field d k)
      ((bagAt l field (d + k)).map TermCount.term), i ∈ Inquiry.ofTerm term := by
  induction n generalizing met d with
  | zero => cases h
  | succ n ih =>
      simp only [inquiriesFrom, List.cons_append, List.mem_cons, List.mem_append,
        List.mem_flatMap] at h
      obtain rfl | ⟨term, hterm, hi⟩ | hi := h
      · exact ⟨0, Nat.succ_pos n, .inl rfl⟩
      · exact ⟨0, Nat.succ_pos n, .inr ⟨term, by simpa [termsFrom] using hterm, hi⟩⟩
      · obtain ⟨k, hk, hi⟩ := ih hi
        refine ⟨k + 1, Nat.succ_lt_succ hk, ?_⟩
        rwa [termsFrom_succ, ← List.append_assoc, Nat.add_comm k 1, ← Nat.add_assoc]

/-- The steps about the first documents, then the bag of the next one and what is asked about its
terms. -/
theorem prefix_inquiries {d : Nat} (hd : d < total) :
    inquiries l d field ++ .bag d :: (unmet (termsBelow l field d)
      ((bagAt l field d).map TermCount.term)).flatMap Inquiry.ofTerm <+:
        inquiries l total field := by
  obtain ⟨n, rfl⟩ := Nat.exists_eq_add_of_lt hd
  unfold inquiries
  rw [Nat.add_assoc, inquiriesFrom_add, inquiriesFrom, Nat.zero_add, List.nil_append,
    termsFrom_zero, List.prefix_append_right_inj]
  exact List.prefix_append _ _

/-- Before a document are the steps about the documents before it. -/
theorem eq_inquiries_of_bag {before : List Inquiry} {d : Nat}
    (h : before ++ [.bag d] <+: inquiries l total field) :
    d < total ∧ before = inquiries l d field := by
  have hmem : .bag d ∈ inquiries l total field := h.subset (by simp)
  obtain ⟨k, hk, hbag | ⟨term, -, hterm⟩⟩ := exists_document hmem
  · obtain rfl : d = k := by simpa using hbag
    refine ⟨hk, before_eq (nodup_inquiries l total field) h ?_⟩
    refine List.IsPrefix.trans ?_ (prefix_inquiries hk)
    rw [List.prefix_append_right_inj]
    exact List.prefix_append _ _
  · simp [Inquiry.ofTerm] at hterm

/-- Before it is seen whether a document frequency can be right are the steps about the documents
before the one with the term, and those about this one as far as the term is met in it. -/
theorem eq_inquiries_of_plausibility {before : List Inquiry} {term : String}
    (h : before ++ [.plausibility term] <+: inquiries l total field) :
    ∃ d < total, ∃ xs c ys, bagAt l field d = xs ++ c :: ys ∧ c.term = term ∧
      term ∉ termsBelow l field d ++ xs.map TermCount.term ∧
      before = inquiries l d field ++ .bag d :: (unmet (termsBelow l field d)
        (xs.map TermCount.term)).flatMap Inquiry.ofTerm ++ [.documentFrequency term] := by
  have hmem : .plausibility term ∈ inquiries l total field := h.subset (by simp)
  obtain ⟨d, hd, hbag | ⟨term', hterm, hsame⟩⟩ := exists_document hmem
  · cases hbag
  obtain rfl : term = term' := by simpa [Inquiry.ofTerm] using hsame
  rw [Nat.zero_add, List.nil_append, termsFrom_zero] at hterm
  obtain ⟨hlisted, hnew⟩ := mem_unmet.mp hterm
  -- where the term stands first in its bag
  obtain ⟨xs', ys', hterms, hfirst⟩ := List.eq_append_cons_of_mem hlisted
  obtain ⟨xs, zs, hbag, rfl, hzs⟩ := List.map_eq_append_iff.mp hterms
  obtain ⟨c, ys, rfl, rfl, rfl⟩ := List.map_eq_cons_iff.mp hzs
  have hunmet : c.term ∉ termsBelow l field d ++ xs.map TermCount.term := by
    rw [List.mem_append]
    exact fun hmet => hmet.elim hnew hfirst
  refine ⟨d, hd, xs, c, ys, hbag, rfl, hunmet, ?_⟩
  refine before_eq (nodup_inquiries l total field) h (List.IsPrefix.trans ?_ (prefix_inquiries hd))
  rw [hterms, unmet_append, unmet, if_neg hunmet, List.flatMap_append, List.flatMap_cons]
  simp [Inquiry.ofTerm]

/-- Every document has its step. -/
theorem bag_mem_inquiries {d : Nat} (hd : d < total) : .bag d ∈ inquiries l total field :=
  (prefix_inquiries hd).subset (by simp)

/-! ## building from fixed documents -/

variable {s : FixedLexicon}

/-- How building a table of fixed documents ends, and how many frequencies it has looked up. -/
inductive Ends (s : FixedLexicon) (total : Nat) (field : String) : Except Fault Table → Nat → Prop
  /-- Two for each term. -/
  | built {t : Table} (hbags : ∀ d < total, ∃ bag, s.bag d field = .ok bag) :
      Ends s total field (.ok t) (2 * distinct (termsBelow s.lexicon field total))
  /-- A bag cannot be read: two for each term of the documents before it. -/
  | unreadable {d : Nat} {e : Fault} (hd : d < total)
      (hbags : ∀ d' < d, ∃ bag, s.bag d' field = .ok bag) (hbag : s.bag d field = .error e) :
      Ends s total field (.error e) (2 * distinct (termsBelow s.lexicon field d))
  /-- A document frequency cannot be right: two for each term met before that one, and this one. -/
  | inconsistent {d : Nat} {xs ys : Bag} {c : TermCount} {n : UInt64} (hd : d < total)
      (hbags : ∀ d' < d, ∃ bag, s.bag d' field = .ok bag)
      (hbag : s.bag d field = .ok (some (xs ++ c :: ys)))
      (hnew : c.term ∉ termsBelow s.lexicon field d ++ xs.map TermCount.term)
      (hn : s.lexicon.documentFrequency field c.term = .ok n)
      (hwrong : ¬(1 ≤ n.toNat ∧ n.toNat ≤ total)) :
      Ends s total field (.error (.lexicon (.inconsistentFrequency n c.term total)))
        (2 * distinct (termsBelow s.lexicon field d ++ xs.map TermCount.term) + 1)

/-- The bags of the steps that have not failed can be read. -/
theorem exists_bag {steps : List Inquiry} {n : Nat}
    (hpassed : ∀ i ∈ steps, fault? s.lexicon total field i = none)
    (hsteps : inquiries s.lexicon n field ⊆ steps) {d : Nat} (hd : d < n) :
    ∃ bag, s.bag d field = .ok bag := by
  have hfault := hpassed _ (hsteps (bag_mem_inquiries hd))
  cases hbag : s.bag d field with
  | ok bag => exact ⟨bag, rfl⟩
  | error e => simp [fault?, FixedLexicon.lexicon, hbag, Inquiry.faultOf?] at hfault

theorem countP_isFrequency_inquiries (l : Lexicon) (field : String) (n : Nat) :
    (inquiries l n field).countP isFrequency = 2 * distinct (termsBelow l field n) := by
  rw [inquiries, countP_isFrequency_inquiriesFrom, termsFrom_zero, length_unmet]

/-- Where building stops, it ends with the lookups of the steps up to there. -/
theorem StopsAt.ends {before : List Inquiry} {last : Inquiry} {e : Fault}
    (h : StopsAt s.lexicon total field (inquiries s.lexicon total field) before last e) :
    Ends s total field (.error e) ((before ++ [last]).countP isFrequency) := by
  obtain ⟨hsplit, hpassed, hfailed⟩ := h
  cases last with
  | bag d =>
      obtain ⟨hd, rfl⟩ := eq_inquiries_of_bag hsplit
      have hbag : s.bag d field = .error e := by
        cases hbag : s.bag d field with
        | ok bag => simp [fault?, FixedLexicon.lexicon, hbag, Inquiry.faultOf?] at hfailed
        | error e' => simpa [fault?, FixedLexicon.lexicon, hbag, Inquiry.faultOf?] using hfailed
      rw [List.countP_append, countP_isFrequency_inquiries]
      exact .unreadable hd (fun d' hd' => exists_bag hpassed (List.Subset.refl _) hd') hbag
  | plausibility term =>
      obtain ⟨d, hd, xs, c, ys, hbagAt, rfl, hnew, rfl⟩ := eq_inquiries_of_plausibility hsplit
      have hbag : s.bag d field = .ok (some (xs ++ c :: ys)) := by
        obtain ⟨bag, hbag, -⟩ := mem_bagAt.mp (hbagAt ▸ by simp : c ∈ bagAt s.lexicon field d)
        rw [bagAt_of_ok hbag, Option.getD_some] at hbagAt
        exact hbagAt ▸ hbag
      obtain ⟨n, hn, hwrong, -⟩ := fault?_plausibility hfailed
      have he : e = .lexicon (.inconsistentFrequency n c.term total) := by
        simpa [fault?, hn, hwrong] using hfailed.symm
      have hcount : (inquiries s.lexicon d field ++ Inquiry.bag d ::
          (unmet (termsBelow s.lexicon field d) (xs.map TermCount.term)).flatMap Inquiry.ofTerm ++
            [Inquiry.documentFrequency c.term] ++
              [Inquiry.plausibility c.term]).countP isFrequency =
          2 * distinct (termsBelow s.lexicon field d ++ xs.map TermCount.term) + 1 := by
        rw [← length_unmet, unmet_append, List.length_append, List.nil_append, length_unmet]
        simp only [List.countP_append, List.countP_cons, countP_isFrequency_inquiries,
          countP_isFrequency_flatMap, List.countP_nil, isFrequency]
        simp
        omega
      rw [hcount, he]
      refine .inconsistent hd (fun d' hd' => exists_bag hpassed ?_ hd') hbag hnew hn hwrong
      rw [List.append_assoc]
      exact List.subset_append_left _ _
  | documentFrequency term => cases hfailed
  | collectionFrequency term => cases hfailed

theorem nodup_questions {steps : List Inquiry} (h : steps.Nodup) (field : String) :
    (questions field steps).Nodup := by
  refine h.filterMap fun i j q hi hj => ?_
  cases i <;> cases j <;> simp [Inquiry.question?] at hi hj <;> grind

/-- **Lookups**: building a table of fixed documents looks up two frequencies for each different
term that it has met, and one more where it stops at a document frequency that cannot be right,
whatever was asked before.  No question is asked twice. -/
theorem lookups_of_build (s : FixedLexicon) (total : Nat) (field : String)
    (asked : List Question) :
    ∃ answer new count,
      ExceptT.run (build s.lexicon.recorded total field) asked = (answer, new ++ asked) ∧
        Ends s total field answer count ∧
        FixedLexicon.lookups (new ++ asked) = FixedLexicon.lookups asked + count ∧ new.Nodup := by
  have hbuild := pursues_build s.lexicon total field asked
  have hnodup := nodup_inquiries s.lexicon total field
  have hlookups : ∀ steps, FixedLexicon.lookups ((questions field steps).reverse ++ asked) =
      FixedLexicon.lookups asked + steps.countP isFrequency := by
    intro steps
    rw [← lookups_questions field, FixedLexicon.lookups, List.countP_append, List.countP_reverse,
      Nat.add_comm]
    rfl
  cases hrun : ExceptT.run (build s.lexicon.recorded total field) asked with
  | mk answer later =>
      cases answer with
      | ok t =>
          obtain ⟨hpassed, rfl, -⟩ := hbuild.of_ok hrun
          refine ⟨_, _, _, rfl, ?_, hlookups _, List.nodup_reverse.mpr (nodup_questions hnodup _)⟩
          rw [countP_isFrequency_inquiries]
          exact .built fun d hd => exists_bag hpassed (List.Subset.refl _) hd
      | error e =>
          obtain ⟨before, last, hstop, rfl⟩ := hbuild.of_error hrun
          refine ⟨_, _, _, rfl, hstop.ends, hlookups _, List.nodup_reverse.mpr ?_⟩
          exact nodup_questions (hnodup.sublist hstop.split.sublist) field

end Concordance.Statistics
