import Concordance.Index.View
import Concordance.Proofs.Lexicon.Fixed
import Mathlib.Data.List.Perm.Basic

/-!
# Concordance.Proofs.Index.View

The view of a field depends on the documents of the segments and not on how they are divided into
segments.

* `View.holds_ofSegments`, `View.exists_ofSegments` — what a view holds, and when there is one;
* `bagFrom_postings` — the terms of a document are the counts of its tokens;
* `View.ofSegments_congr` — the same documents in other segments give a view that answers alike.
-/

namespace Concordance.Index

open FixedLexicon (increase tally getD_increase)

/-! ## what postings say -/

/-- What a posting says about its document. -/
def Posting.count (p : Posting) : TermCount := ⟨p.term, p.frequency⟩

/-- The terms of a document, which has none where no posting is about it. -/
def bagFrom (ps : List Posting) (ordinal : Nat) : Option Bag :=
  match ps.filter (·.ordinal == ordinal) with
  | [] => none
  | found => some (found.map Posting.count)

/-- How often a term occurs in all documents. -/
def occurrences (ps : List Posting) (term : String) : UInt64 :=
  ((ps.filter (·.term == term)).map Posting.frequency).foldl (· + ·) 0

/-- One more posting is the last one of its document and leaves all others. -/
theorem bagFrom_append_singleton (ps : List Posting) (p : Posting) (ordinal : Nat) :
    bagFrom (ps ++ [p]) ordinal =
      if p.ordinal = ordinal then some ((bagFrom ps ordinal).getD [] ++ [p.count])
      else bagFrom ps ordinal := by
  unfold bagFrom
  by_cases h : p.ordinal = ordinal
  · cases hfound : ps.filter (·.ordinal == ordinal) <;> simp [h, hfound]
  · simp [h]

theorem occurrences_eq (ps : List Posting) (term : String) :
    occurrences ps term = FixedLexicon.occurring (ps.map Posting.count) term := by
  rw [FixedLexicon.occurring, List.filter_map, List.map_map]
  rfl

theorem occurrences_append_singleton (ps : List Posting) (p : Posting) (term : String) :
    occurrences (ps ++ [p]) term =
      if p.term = term then occurrences ps term + p.frequency else occurrences ps term := by
  rw [occurrences_eq, occurrences_eq, List.map_append]
  exact FixedLexicon.occurring_append_singleton _ p.count term

theorem occurrences_perm {ps qs : List Posting} (h : ps.Perm qs) (term : String) :
    occurrences ps term = occurrences qs term := by
  rw [occurrences_eq, occurrences_eq, FixedLexicon.occurring_perm (h.map Posting.count)]

/-! ## gathering -/

namespace View

/-- A view with slots for a number of documents holds postings. -/
structure Holds (total : Nat) (ps : List Posting) (v : View) : Prop where
  size : v.slots.size = total
  slots : ∀ d < total, v.slots[d]?.map (·.map Array.toList) = some (bagFrom ps d)
  collection : ∀ term, v.collection.getD term 0 = occurrences ps term

/-- Gathering one posting holds one more. -/
theorem holds_add {total : Nat} {ps : List Posting} {v w : View} {p : Posting}
    (hv : v.Holds total ps) (h : v.add p = .ok w) : w.Holds total (ps ++ [p]) := by
  have hsize := size_add h
  unfold add at h
  split at h
  · contradiction
  · next slot hslot =>
    obtain rfl := Except.ok.inj h
    have hlt : p.ordinal < v.slots.size := (Array.getElem?_eq_some_iff.mp hslot).1
    refine ⟨hsize.trans hv.size, fun d hd => ?_, fun term => ?_⟩
    · rw [bagFrom_append_singleton]
      have hold := hv.slots d hd
      by_cases hpd : p.ordinal = d
      · subst hpd
        rw [hslot] at hold
        simp only [Option.map_some, Option.some.injEq] at hold
        rw [if_pos rfl, ← hold]
        cases slot <;> simp [hlt, Posting.count]
      · rw [if_neg hpd, ← hold]
        simp [hpd]
    · rw [occurrences_append_singleton, getD_increase, hv.collection]

theorem holds_addAll {total : Nat} {ps qs : List Posting} {v w : View} (hv : v.Holds total ps)
    (h : v.addAll qs = .ok w) : w.Holds total (ps ++ qs) := by
  induction qs generalizing v ps with
  | nil =>
      obtain rfl := Except.ok.inj h
      rwa [List.append_nil]
  | cons p rest ih =>
      unfold addAll at h
      split at h
      · contradiction
      · next u hu =>
        rw [List.append_cons]
        exact ih (holds_add hv hu) h

/-- Postings can be gathered where there is a slot for each of them. -/
theorem exists_addAll {v : View} {ps : List Posting} :
    (∃ w, v.addAll ps = .ok w) ↔ ∀ p ∈ ps, p.ordinal < v.slots.size := by
  induction ps generalizing v with
  | nil => simp [addAll]
  | cons p rest ih =>
      rw [List.forall_mem_cons, addAll]
      cases hadd : v.add p with
      | error e =>
          have hno : ¬p.ordinal < v.slots.size := fun hlt => by
            simp [add, Array.getElem?_eq_getElem hlt] at hadd
          simp [hno]
      | ok w =>
          have hlt : p.ordinal < v.slots.size := by
            by_contra hno
            simp [add, Array.getElem?_eq_none (Nat.le_of_not_lt hno)] at hadd
          simp [hlt, ih, size_add hadd]

theorem holds_replicate (total : Nat) : Holds total [] { slots := Array.replicate total none } where
  size := Array.size_replicate
  slots d hd := by simp [hd, bagFrom]
  collection term := by simp [occurrences]

theorem holds_ofSegments {segments : List Segment} {field : TextField} {v : View}
    (h : ofSegments segments field = .ok v) :
    v.Holds segments.flatten.length (segments.flatMap (postings field)) :=
  holds_addAll (holds_replicate _) h

/-- There is a view where no ordinal is beyond the documents. -/
theorem exists_ofSegments {segments : List Segment} {field : TextField} :
    (∃ v, ofSegments segments field = .ok v) ↔
      ∀ p ∈ segments.flatMap (postings field), p.ordinal < segments.flatten.length := by
  rw [ofSegments, exists_addAll, Array.size_replicate]

theorem Holds.bag {total : Nat} {ps : List Posting} {v : View} (hv : v.Holds total ps) (d : Nat) :
    v.bag d = if d < total then .ok (bagFrom ps d) else .error (.lexicon (.noDocument d)) := by
  unfold View.bag
  by_cases hd : d < total
  · have hslot := hv.slots d hd
    cases hget : v.slots[d]? with
    | none => simp [hget] at hslot
    | some slot =>
        rw [hget, Option.map_some, Option.some.injEq] at hslot
        rw [if_pos hd, ← hslot]
  · rw [if_neg hd, Array.getElem?_eq_none (by rw [hv.size]; omega)]

end View

/-! ## the postings of documents -/

theorem ordinal_of_mem_entryPostings {field : TextField} {e : Entry} {p : Posting}
    (h : p ∈ entryPostings field e) : p.ordinal = e.ordinal := by
  obtain ⟨c, -, rfl⟩ := List.mem_map.mp h
  rfl

theorem pairwise_entryPostings (field : TextField) (e : Entry) :
    (entryPostings field e).Pairwise fun a b => a.term < b.term :=
  List.pairwise_map.mpr (FixedLexicon.pairwise_tally (e.terms field))

/-- The postings of segments are those of their documents. -/
theorem perm_postings (segments : List Segment) (field : TextField) :
    (segments.flatMap (postings field)).Perm
      (segments.flatten.flatMap (entryPostings field)) := by
  rw [← List.flatMap_id, List.flatMap_assoc]
  exact List.Perm.flatMap_left segments fun s _ => List.mergeSort_perm _ _

theorem mem_postings {field : TextField} {s : Segment} {p : Posting} :
    p ∈ postings field s ↔ ∃ e ∈ s, p ∈ entryPostings field e := by
  rw [postings, List.mem_mergeSort, List.mem_flatMap]

variable {segments : List Segment} {field : TextField}

/-- The postings of one document come from one segment, so they stand by term. -/
theorem pairwise_filter_postings (hnodup : (segments.flatten.map Entry.ordinal).Nodup) (d : Nat) :
    ((segments.flatMap (postings field)).filter (·.ordinal == d)).Pairwise
      fun a b => a.term ≤ b.term := by
  rw [List.filter_flatMap, List.pairwise_flatMap]
  refine ⟨fun s _ => (pairwise_mergeSort_key Posting.term _).filter _, ?_⟩
  -- two segments have no ordinal in common, so only one of them has postings of this document
  have hsegments := (List.pairwise_flatten.mp (List.pairwise_map.mp hnodup)).2
  refine hsegments.imp fun {s t} hne p hp q hq => ?_
  simp only [List.mem_filter, mem_postings, beq_iff_eq] at hp hq
  obtain ⟨⟨e, he, hpe⟩, hpd⟩ := hp
  obtain ⟨⟨e', he', hqe⟩, hqd⟩ := hq
  refine absurd ?_ (hne e he e' he')
  rw [← ordinal_of_mem_entryPostings hpe, ← ordinal_of_mem_entryPostings hqe, hpd, hqd]

theorem filter_entryPostings_of_absent {es : List Entry} {d : Nat} (h : ∀ e ∈ es, e.ordinal ≠ d) :
    (es.flatMap (entryPostings field)).filter (·.ordinal == d) = [] := by
  rw [List.filter_eq_nil_iff]
  intro p hp hpd
  obtain ⟨e, he, hpe⟩ := List.mem_flatMap.mp hp
  refine h e he ?_
  rw [← ordinal_of_mem_entryPostings hpe, eq_of_beq hpd]

/-- Of the postings of all documents those about one are its own. -/
theorem filter_entryPostings {es : List Entry} (hnodup : (es.map Entry.ordinal).Nodup) {e : Entry}
    (he : e ∈ es) :
    (es.flatMap (entryPostings field)).filter (·.ordinal == e.ordinal) = entryPostings field e := by
  obtain ⟨before, after, rfl⟩ := List.append_of_mem he
  rw [(List.perm_middle.map Entry.ordinal).nodup_iff, List.map_cons, List.nodup_cons] at hnodup
  have hothers : ∀ e' ∈ before ++ after, e'.ordinal ≠ e.ordinal := fun e' he' heq =>
    hnodup.1 (List.mem_map.mpr ⟨e', he', heq⟩)
  have hown : (entryPostings field e).filter (·.ordinal == e.ordinal) = entryPostings field e :=
    List.filter_eq_self.mpr fun p hp => beq_iff_eq.mpr (ordinal_of_mem_entryPostings hp)
  rw [List.flatMap_append, List.flatMap_cons, List.filter_append, List.filter_append, hown,
    filter_entryPostings_of_absent fun e' he' => hothers e' (List.mem_append_left _ he'),
    filter_entryPostings_of_absent fun e' he' => hothers e' (List.mem_append_right _ he'),
    List.nil_append, List.append_nil]

/-- The postings of one document in segments are its counts in order. -/
theorem filter_postings (hnodup : (segments.flatten.map Entry.ordinal).Nodup) {e : Entry}
    (he : e ∈ segments.flatten) :
    (segments.flatMap (postings field)).filter (·.ordinal == e.ordinal) =
      entryPostings field e := by
  have hperm := (perm_postings segments field).filter (·.ordinal == e.ordinal)
  rw [filter_entryPostings hnodup he] at hperm
  -- the same postings, in the one order in which they can stand by term
  exact eq_of_perm_of_pairwise_key hperm (pairwise_filter_postings hnodup e.ordinal)
    (pairwise_entryPostings field e)

/-- The terms of a document are the counts of its tokens. -/
theorem bagFrom_postings (hnodup : (segments.flatten.map Entry.ordinal).Nodup) {e : Entry}
    (he : e ∈ segments.flatten) :
    bagFrom (segments.flatMap (postings field)) e.ordinal = FixedLexicon.bagOf (e.terms field) := by
  have hcounts : (entryPostings field e).map Posting.count = tally (e.terms field) := by
    rw [entryPostings, List.map_map]
    exact List.map_id' _
  have hnil : entryPostings field e = [] ↔ (e.terms field).isEmpty = true := by
    rw [← List.map_eq_nil_iff (f := Posting.count), hcounts, FixedLexicon.tally_eq_nil_iff,
      List.isEmpty_iff]
  unfold bagFrom
  rw [filter_postings hnodup he, FixedLexicon.bagOf]
  split
  · next h => rw [if_pos (hnil.mp h)]
  · next h => rw [if_neg (mt hnil.mpr h), hcounts]

theorem bagFrom_postings_of_absent {d : Nat} (h : ∀ e ∈ segments.flatten, e.ordinal ≠ d) :
    bagFrom (segments.flatMap (postings field)) d = none := by
  have hperm := (perm_postings segments field).filter (·.ordinal == d)
  rw [filter_entryPostings_of_absent h] at hperm
  rw [bagFrom, hperm.eq_nil]

/-- There is a view where each ordinal is below the number of documents. -/
theorem View.exists_of_ordinal_lt (h : ∀ e ∈ segments.flatten, e.ordinal < segments.flatten.length) :
    ∃ v, View.ofSegments segments field = .ok v := by
  refine View.exists_ofSegments.mpr fun p hp => ?_
  obtain ⟨e, he, hpe⟩ := List.mem_flatMap.mp ((perm_postings segments field).mem_iff.mp hp)
  rw [ordinal_of_mem_entryPostings hpe]
  exact h e he

/-- The documents with a term are counted. -/
theorem documentFrequency_eq_countP (segments : List Segment) (field : TextField) (term : String) :
    documentFrequency segments field term =
      (segments.flatten.countP fun e => term ∈ e.terms field).toUInt64 := by
  refine congrArg Nat.toUInt64 (List.countP_congr fun e _ => ?_)
  simp [Entry.terms]

/-! ## the same documents in other segments -/

/-- The terms of a document do not depend on how the documents are divided into segments. -/
theorem bagFrom_postings_congr {others : List Segment} (h : segments.flatten = others.flatten)
    (hnodup : (segments.flatten.map Entry.ordinal).Nodup) (d : Nat) :
    bagFrom (segments.flatMap (postings field)) d = bagFrom (others.flatMap (postings field)) d := by
  by_cases hd : ∃ e ∈ segments.flatten, e.ordinal = d
  · obtain ⟨e, he, rfl⟩ := hd
    rw [bagFrom_postings hnodup he, bagFrom_postings (h ▸ hnodup) (h ▸ he)]
  · simp only [not_exists, not_and] at hd
    rw [bagFrom_postings_of_absent hd, bagFrom_postings_of_absent (h ▸ hd)]

/-- The same documents in other segments give a view that answers alike, or none. -/
theorem View.ofSegments_congr {others : List Segment} (field : TextField)
    (h : segments.flatten = others.flatten) (hnodup : (segments.flatten.map Entry.ordinal).Nodup) :
    (∃ e f, ofSegments segments field = .error e ∧ ofSegments others field = .error f) ∨
      ∃ v w, ofSegments segments field = .ok v ∧ ofSegments others field = .ok w ∧
        (∀ d, v.bag d = w.bag d) ∧
        ∀ term, v.collection.getD term 0 = w.collection.getD term 0 := by
  have hperm : (segments.flatMap (postings field)).Perm (others.flatMap (postings field)) :=
    (perm_postings segments field).trans (h ▸ (perm_postings others field).symm)
  have hexists : (∃ v, ofSegments segments field = .ok v) ↔
      ∃ w, ofSegments others field = .ok w := by
    rw [exists_ofSegments, exists_ofSegments, h]
    exact forall_congr' fun p => imp_congr_left hperm.mem_iff
  cases hv : ofSegments segments field with
  | error e =>
      cases hw : ofSegments others field with
      | error f => exact .inl ⟨e, f, rfl, rfl⟩
      | ok w =>
          obtain ⟨v, hv'⟩ := hexists.mpr ⟨w, hw⟩
          rw [hv] at hv'
          cases hv'
  | ok v =>
      obtain ⟨w, hw⟩ := hexists.mp ⟨v, hv⟩
      refine .inr ⟨v, w, rfl, hw, fun d => ?_, fun term => ?_⟩
      · rw [(holds_ofSegments hv).bag, (holds_ofSegments hw).bag, h,
          bagFrom_postings_congr h hnodup]
      · rw [(holds_ofSegments hv).collection, (holds_ofSegments hw).collection,
          occurrences_perm hperm]

end Concordance.Index
