import Concordance.Proofs.Statistics.Counts
import Concordance.Statistics.Table

/-!
# Concordance.Proofs.Statistics.Walk

What a walk through the documents of a lexicon has gathered at any point on its way.

The walk is followed by what it has met so far: the terms, in order, and the counts, each with its
document.  `Walk.Tracks` ties the entries and their positions to these; it holds at the start, every
step keeps it, and so it holds of a finished walk.

* `Walk.Tracks.push` — a new term gets the next entry, without occurrences;
* `Walk.Tracks.setFrequency` — a count goes to the entry of its term and nowhere else;
* `tracks_of_build` — a table that was built is the table of a walk that tracks all documents.
-/

namespace Concordance.Statistics

variable {l : Lexicon} {total : Nat} {field : String}

/-- The frequencies of an entry are the answers of a lexicon for its term, and plausible.  The
inverse document frequency is worked out from them. -/
structure Entry.IsAnswered (l : Lexicon) (total : Nat) (field : String) (e : Entry) : Prop where
  documentFrequency : l.documentFrequency field e.term = .ok e.documentFrequency
  collectionFrequency : l.collectionFrequency field e.term = .ok e.collectionFrequency
  pos : e.documentFrequency ≠ 0
  le : e.documentFrequency.toNat ≤ total
  inverse : e.inverseDocumentFrequency = inverseFrequency total e.documentFrequency

theorem Entry.IsAnswered.setFrequency {e : Entry} (h : e.IsAnswered l total field) (d : Nat)
    (n : UInt64) : (e.setFrequency d n).IsAnswered l total field :=
  ⟨h.documentFrequency, h.collectionFrequency, h.pos, h.le, h.inverse⟩

namespace Walk

/-- The terms that have an entry, in order. -/
def terms (w : Walk) : List String := w.entries.toList.map Entry.term

theorem terms_push (w : Walk) (e : Entry) : (w.push e).terms = w.terms ++ [e.term] := by
  simp [terms, push]

theorem length_terms (w : Walk) : w.terms.length = w.entries.size := by simp [terms]

theorem getElem?_terms (w : Walk) (p : Nat) : w.terms[p]? = w.entries[p]?.map Entry.term := by
  simp [terms]

theorem terms_setFrequency (w : Walk) (p d : Nat) (n : UInt64) :
    (w.setFrequency p d n).terms = w.terms := by
  refine List.ext_getElem? fun q => ?_
  rw [getElem?_terms, getElem?_terms, setFrequency, Array.getElem?_modify]
  by_cases h : p = q
  · rw [if_pos h, Option.map_map]
    rfl
  · rw [if_neg h]

/-- A walk has met these terms, in this order, and noted these counts. -/
structure Tracks (l : Lexicon) (total : Nat) (field : String) (met : List String)
    (counts : List (Nat × TermCount)) (w : Walk) : Prop where
  /-- Every term met has an entry, and no other. -/
  mem_terms : ∀ term, term ∈ w.terms ↔ term ∈ met
  /-- The entries stand in the order in which their terms were first met. -/
  order : w.terms.Pairwise fun a b => met.idxOf a < met.idxOf b
  position : ∀ (term : String) (p : Nat), w.positions[term]? = some p ↔ w.terms[p]? = some term
  answered : ∀ e ∈ w.entries, e.IsAnswered l total field
  frequencies : ∀ e ∈ w.entries, e.termFrequencies =
    (List.range total).map fun d => lastFrequency (bagIn counts d) e.term

namespace Tracks

/-! ## steps on the entries -/

theorem empty : Tracks l total field [] [] {} where
  mem_terms := by simp [terms]
  order := by simp [terms]
  position := by simp [terms]
  answered := by simp
  frequencies := by simp

/-- More terms met leave the order of those met before. -/
theorem order_append {w : Walk} (h : Tracks l total field met counts w) (more : List String) :
    w.terms.Pairwise fun a b => (met ++ more).idxOf a < (met ++ more).idxOf b := by
  refine h.order.imp_of_mem fun {a b} ha hb hab => ?_
  rw [h.mem_terms] at ha hb
  rwa [List.idxOf_append, if_pos ha, List.idxOf_append, if_pos hb]

/-- A term met again changes nothing. -/
theorem meet_again {w : Walk} (h : Tracks l total field met counts w) (hterm : term ∈ met) :
    Tracks l total field (met ++ [term]) counts w where
  mem_terms t := by
    rw [h.mem_terms, List.mem_append, List.mem_singleton]
    exact ⟨.inl, fun ht => ht.elim id fun he => he ▸ hterm⟩
  order := h.order_append [term]
  position := h.position
  answered := h.answered
  frequencies := h.frequencies

/-- A new term gets the next entry, without occurrences. -/
theorem push {w : Walk} (h : Tracks l total field met counts w) {e : Entry} (hnew : e.term ∉ met)
    (hcounts : ∀ t ∈ termsOf counts, t ∈ met) (he : e.IsAnswered l total field)
    (hzero : e.termFrequencies = List.replicate total 0) :
    Tracks l total field (met ++ [e.term]) counts (w.push e) where
  mem_terms t := by
    rw [terms_push, List.mem_append, List.mem_append, h.mem_terms]
  order := by
    rw [terms_push, List.pairwise_append]
    refine ⟨h.order_append _, List.pairwise_singleton _ _, ?_⟩
    intro a ha b hb
    rw [h.mem_terms] at ha
    rw [List.mem_singleton] at hb
    subst hb
    rw [List.idxOf_append, if_pos ha, List.idxOf_append, if_neg hnew]
    exact Nat.lt_add_left _ (List.idxOf_lt_length_of_mem ha)
  position t p := by
    have hp := h.position t p
    have hout : w.terms[p]? ≠ some e.term := fun hq =>
      hnew ((h.mem_terms _).mp (List.mem_of_getElem? hq))
    -- the new entry stands after all others, and no other stands for its term
    rw [terms_push, Walk.push, Std.HashMap.getElem?_insert, ← w.length_terms]
    grind
  answered a ha := by
    rw [Walk.push, Array.mem_push] at ha
    obtain ha | rfl := ha
    · exact h.answered a ha
    · exact he
  frequencies a ha := by
    rw [Walk.push, Array.mem_push] at ha
    obtain ha | rfl := ha
    · exact h.frequencies a ha
    · have hnone : a.term ∉ termsOf counts := fun hc => hnew (hcounts _ hc)
      simp [hzero, lastFrequency_bagIn_of_not_mem hnone, List.map_const']

/-- An entry after a count was set is the one that was in its place, changed only where the count
was set. -/
theorem mem_setFrequency {w : Walk} {p d : Nat} {n : UInt64} {a : Entry}
    (ha : a ∈ (w.setFrequency p d n).entries) :
    ∃ q e, w.entries[q]? = some e ∧ a = if p = q then e.setFrequency d n else e := by
  obtain ⟨q, hq⟩ := Array.mem_iff_getElem?.mp ha
  rw [Walk.setFrequency, Array.getElem?_modify] at hq
  by_cases hpq : p = q
  · rw [if_pos hpq] at hq
    obtain ⟨e, he, rfl⟩ := Option.map_eq_some_iff.mp hq
    exact ⟨q, e, he, by rw [if_pos hpq]⟩
  · rw [if_neg hpq] at hq
    exact ⟨q, a, hq, by rw [if_neg hpq]⟩

/-- A count goes to the entry of its term and nowhere else. -/
theorem setFrequency {w : Walk} (h : Tracks l total field met counts w) {p d : Nat} {c : TermCount}
    (hp : w.terms[p]? = some c.term) :
    Tracks l total field met (counts ++ [(d, c)]) (w.setFrequency p d c.frequency) where
  mem_terms t := by rw [terms_setFrequency, h.mem_terms]
  order := by
    rw [terms_setFrequency]
    exact h.order
  position t q := by
    rw [terms_setFrequency]
    exact h.position t q
  answered a ha := by
    obtain ⟨q, e, he, rfl⟩ := mem_setFrequency ha
    have hold := h.answered e (Array.mem_of_getElem? he)
    split
    · exact hold.setFrequency d c.frequency
    · exact hold
  frequencies a ha := by
    obtain ⟨q, e, he, rfl⟩ := mem_setFrequency ha
    have hold := h.frequencies e (Array.mem_of_getElem? he)
    have hq : w.terms[q]? = some e.term := by rw [getElem?_terms, he, Option.map_some]
    -- by `position` no two places hold the same term
    have hplace : p = q ↔ c.term = e.term := by
      constructor
      · rintro rfl
        exact Option.some.inj (hp.symm.trans hq)
      · intro heq
        rw [← heq, ← h.position] at hq
        rw [← h.position] at hp
        exact Option.some.inj (hp.symm.trans hq)
    refine List.ext_getElem? fun d' => ?_
    by_cases hpq : p = q
    · rw [if_pos hpq, Entry.setFrequency, hold]
      simp only [List.getElem?_set, List.getElem?_map, lastFrequency_bagIn_append_singleton]
      grind
    · have hne : c.term ≠ e.term := fun heq => hpq (hplace.mpr heq)
      rw [if_neg hpq, hold]
      simp [lastFrequency_bagIn_append_singleton, hne]

end Tracks

end Walk

/-! ## steps that ask -/

/-- A document frequency that was asked for is the answer of the lexicon, and plausible. -/
theorem askDocumentFrequency_ok {s t : List Question} {n : UInt64}
    (h : ExceptT.run (askDocumentFrequency l.recorded total field term) s = (.ok n, t)) :
    l.documentFrequency field term = .ok n ∧ n ≠ 0 ∧ n.toNat ≤ total := by
  obtain ⟨m, s₁, hask, h⟩ := Asking.run_bind_ok h
  split at h
  · cases h
  · next hplausible =>
    cases h
    rw [not_or, Nat.not_lt] at hplausible
    exact ⟨congrArg Prod.fst hask, hplausible⟩

theorem newEntry_ok {s t : List Question} {e : Entry}
    (h : ExceptT.run (newEntry l.recorded total field term) s = (.ok e, t)) :
    e.term = term ∧ e.IsAnswered l total field ∧
      e.termFrequencies = List.replicate total 0 := by
  obtain ⟨df, s₁, hdf, h⟩ := Asking.run_bind_ok h
  obtain ⟨cf, s₂, hcf, h⟩ := Asking.run_bind_ok h
  cases h
  obtain ⟨hanswer, hpos, hle⟩ := askDocumentFrequency_ok hdf
  exact ⟨rfl, ⟨hanswer, congrArg Prod.fst hcf, hpos, hle, rfl⟩, rfl⟩

namespace Walk

/-- A term that was located has been met, and its entry stands in the position found. -/
theorem locate_tracks {w w' : Walk} (hw : w.Tracks l total field met counts)
    (hcounts : ∀ t ∈ termsOf counts, t ∈ met) {s t : List Question} {p : Nat}
    (h : ExceptT.run (w.locate l.recorded total field term) s = (.ok (p, w'), t)) :
    w'.Tracks l total field (met ++ [term]) counts ∧ w'.terms[p]? = some term := by
  unfold locate at h
  split at h
  · next p' hp =>
    cases h
    -- a term with a position has an entry, so it was met before
    have hterm := (hw.position term p).mp hp
    exact ⟨hw.meet_again ((hw.mem_terms term).mp (List.mem_of_getElem? hterm)), hterm⟩
  · next hp =>
    obtain ⟨e, s₁, he, h⟩ := Asking.run_bind_ok h
    cases h
    obtain ⟨rfl, hanswered, hzero⟩ := newEntry_ok he
    have hnew : e.term ∉ met := by
      intro hmem
      rw [← hw.mem_terms] at hmem
      obtain ⟨q, hq⟩ := List.mem_iff_getElem?.mp hmem
      rw [← hw.position, hp] at hq
      contradiction
    refine ⟨hw.push hnew hcounts hanswered hzero, ?_⟩
    rw [terms_push, ← w.length_terms]
    simp

theorem meet_tracks {w w' : Walk} (hw : w.Tracks l total field (termsOf counts) counts)
    {s t : List Question}
    (h : ExceptT.run (w.meet l.recorded total field d c) s = (.ok w', t)) :
    w'.Tracks l total field (termsOf (counts ++ [(d, c)])) (counts ++ [(d, c)]) := by
  obtain ⟨⟨p, w₁⟩, s₁, hlocate, h⟩ := Asking.run_bind_ok h
  cases h
  obtain ⟨htracks, hterm⟩ := locate_tracks hw (fun _ ht => ht) hlocate
  have hmet : termsOf (counts ++ [(d, c)]) = termsOf counts ++ [c.term] := by simp [termsOf]
  rw [hmet]
  exact htracks.setFrequency hterm

theorem meetAll_tracks {s t : List Question} {w w' : Walk} {bag : Bag}
    (hw : w.Tracks l total field (termsOf counts) counts)
    (h : ExceptT.run (w.meetAll l.recorded total field d bag) s = (.ok w', t)) :
    w'.Tracks l total field (termsOf (counts ++ bag.map (d, ·))) (counts ++ bag.map (d, ·)) := by
  induction bag generalizing w counts s with
  | nil =>
      cases h
      simpa using hw
  | cons c rest ih =>
      obtain ⟨w₁, s₁, hmeet, h⟩ := Asking.run_bind_ok h
      simpa using ih (meet_tracks hw hmeet) h

theorem visit_tracks {s t : List Question} {w w' : Walk}
    (hw : w.Tracks l total field (termsOf counts) counts)
    (h : ExceptT.run (w.visit l.recorded total field d) s = (.ok w', t)) :
    (∃ bag, l.bag d field = .ok bag) ∧
      w'.Tracks l total field (termsOf (counts ++ countsAt l field d))
        (counts ++ countsAt l field d) := by
  obtain ⟨bag, s₁, hask, h⟩ := Asking.run_bind_ok h
  have hbag : l.bag d field = .ok bag := congrArg Prod.fst hask
  refine ⟨⟨bag, hbag⟩, ?_⟩
  cases bag with
  | none =>
      cases h
      simpa [countsAt, bagAt, hbag] using hw
  | some bag =>
      have hcounts : countsAt l field d = bag.map (d, ·) := by simp [countsAt, bagAt, hbag]
      rw [hcounts]
      exact meetAll_tracks hw h

/-- A walk that has come to a document and visits some more has noted the counts of all. -/
theorem visitAll_tracks {s t : List Question} {w w' : Walk} {d n : Nat}
    (hw : w.Tracks l total field (termsOf (countsBelow l field d)) (countsBelow l field d))
    (hbags : ∀ d' < d, ∃ bag, l.bag d' field = .ok bag)
    (h : ExceptT.run (w.visitAll l.recorded total field d n) s = (.ok w', t)) :
    (∀ d' < d + n, ∃ bag, l.bag d' field = .ok bag) ∧
      w'.Tracks l total field (termsOf (countsBelow l field (d + n)))
        (countsBelow l field (d + n)) := by
  -- the documents below `d` are noted, and each visit moves `d` on by one
  induction n generalizing w d s with
  | zero =>
      cases h
      exact ⟨hbags, hw⟩
  | succ n ih =>
      obtain ⟨w₁, s₁, hvisit, h⟩ := Asking.run_bind_ok h
      obtain ⟨hbag, hw₁⟩ := visit_tracks hw hvisit
      rw [← countsBelow_succ] at hw₁
      rw [← Nat.add_assoc, Nat.add_right_comm]
      refine ih hw₁ (fun d' hd' => ?_) h
      obtain hlt | rfl := Nat.lt_succ_iff_lt_or_eq.mp hd'
      · exact hbags d' hlt
      · exact hbag

end Walk

/-- A table that was built is the table of a walk that has noted the counts of all documents. -/
theorem tracks_of_build {t : Table} (h : (build l.recorded total field).answer = .ok t) :
    (∀ d < total, ∃ bag, l.bag d field = .ok bag) ∧
      ∃ w, t = Walk.table total field w ∧
        w.Tracks l total field (termsOf (countsBelow l field total))
          (countsBelow l field total) := by
  have hrun : ExceptT.run (build l.recorded total field) [] =
      (.ok t, (ExceptT.run (build l.recorded total field) []).2) := Prod.ext h rfl
  obtain ⟨w, s, hvisit, hrun⟩ := Asking.run_bind_ok hrun
  have hstart : countsBelow l field 0 = [] := rfl
  have hempty : ({} : Walk).Tracks l total field (termsOf (countsBelow l field 0))
      (countsBelow l field 0) := by
    rw [hstart]
    exact Walk.Tracks.empty
  obtain ⟨hbags, hw⟩ := Walk.visitAll_tracks hempty (fun _ hd => absurd hd (Nat.not_lt_zero _)) hvisit
  rw [Nat.zero_add] at hbags hw
  exact ⟨hbags, w, (Except.ok.inj (congrArg Prod.fst hrun)).symm, hw⟩

/-! ## walks that come to their end -/

/-- A computation that never fails. -/
def Succeeds (x : Asking σ α) : Prop := ∀ s, ∃ a t, ExceptT.run x s = (.ok a, t)

theorem Succeeds.bind {x : Asking σ α} {f : α → Asking σ β} (hx : Succeeds x)
    (hf : ∀ a, Succeeds (f a)) : Succeeds (x >>= f) := by
  intro s
  obtain ⟨a, t, hrun⟩ := hx s
  rw [Asking.run_bind, hrun]
  exact hf a t

theorem succeeds_pure (a : α) : Succeeds (pure a : Asking σ α) := fun s => ⟨a, s, rfl⟩

theorem succeeds_ask {f : σ → Except Fault α × σ} (h : ∀ s, ∃ a, (f s).1 = .ok a) :
    Succeeds (Asking.ask f) := fun s => by
  obtain ⟨a, ha⟩ := h s
  exact ⟨a, (f s).2, Prod.ext ha rfl⟩

/-- A lexicon has plausible frequencies for a term. -/
def Knows (l : Lexicon) (total : Nat) (field term : String) : Prop :=
  (∃ n, l.documentFrequency field term = .ok n ∧ n ≠ 0 ∧ n.toNat ≤ total) ∧
    ∃ n, l.collectionFrequency field term = .ok n

theorem newEntry_succeeds (h : Knows l total field term) :
    Succeeds (newEntry l.recorded total field term) := by
  obtain ⟨⟨n, hdf, hpos, hle⟩, m, hcf⟩ := h
  have hask : Succeeds (askDocumentFrequency l.recorded total field term) := by
    intro s
    refine ⟨n, .documentFrequency field term :: s, ?_⟩
    have hplausible : ¬(n = 0 ∨ total < n.toNat) := by
      rintro (h | h)
      · exact hpos h
      · omega
    rw [askDocumentFrequency, Asking.run_bind]
    simp [Lexicon.recorded, hdf, hplausible]
  exact hask.bind fun df => (succeeds_ask fun s => ⟨m, hcf⟩).bind fun cf => succeeds_pure _

theorem Walk.meet_succeeds (w : Walk) (h : Knows l total field c.term) :
    Succeeds (w.meet l.recorded total field d c) := by
  refine Succeeds.bind ?_ fun _ => succeeds_pure _
  unfold locate
  split
  · exact succeeds_pure _
  · exact (newEntry_succeeds h).bind fun _ => succeeds_pure _

theorem Walk.meetAll_succeeds (w : Walk) {bag : Bag} (h : ∀ c ∈ bag, Knows l total field c.term) :
    Succeeds (w.meetAll l.recorded total field d bag) := by
  induction bag generalizing w with
  | nil => exact succeeds_pure _
  | cons c rest ih =>
      exact (w.meet_succeeds (h c List.mem_cons_self)).bind fun w =>
        ih w fun c' hc' => h c' (List.mem_cons_of_mem c hc')

theorem Walk.visit_succeeds (w : Walk) {bag : Option Bag} (hbag : l.bag d field = .ok bag)
    (h : ∀ c ∈ bagAt l field d, Knows l total field c.term) :
    Succeeds (w.visit l.recorded total field d) := by
  rw [bagAt_of_ok hbag] at h
  intro s
  rw [visit, Asking.run_bind]
  have hask : ExceptT.run (Asking.ask (l.recorded.bag d field)) s =
      (.ok bag, .bag d field :: s) := Prod.ext hbag rfl
  rw [hask]
  cases bag with
  | none => exact succeeds_pure w _
  | some bag => exact w.meetAll_succeeds h _

theorem Walk.visitAll_succeeds (w : Walk) {n : Nat}
    (hbags : ∀ d' < d + n, ∃ bag, l.bag d' field = .ok bag)
    (h : ∀ d' < d + n, ∀ c ∈ bagAt l field d', Knows l total field c.term) :
    Succeeds (w.visitAll l.recorded total field d n) := by
  induction n generalizing w d with
  | zero => exact succeeds_pure w
  | succ n ih =>
      obtain ⟨bag, hbag⟩ := hbags d (by omega)
      refine (w.visit_succeeds hbag (h d (by omega))).bind fun w => ?_
      exact ih w (fun d' hd' => hbags d' (by omega)) fun d' hd' => h d' (by omega)

theorem succeeds_build (hbags : ∀ d < total, ∃ bag, l.bag d field = .ok bag)
    (h : ∀ d < total, ∀ c ∈ bagAt l field d, Knows l total field c.term) :
    Succeeds (build l.recorded total field) := by
  have hwalk : Succeeds (Walk.visitAll l.recorded total field {} 0 total) :=
    Walk.visitAll_succeeds {} (by simpa using hbags) (by simpa using h)
  exact hwalk.bind fun w => succeeds_pure _

/-- A table is built where every bag can be read and the frequencies of all its terms are
plausible. -/
theorem exists_build (hbags : ∀ d < total, ∃ bag, l.bag d field = .ok bag)
    (h : ∀ d < total, ∀ c ∈ bagAt l field d, Knows l total field c.term) :
    ∃ t, (build l.recorded total field).answer = .ok t := by
  obtain ⟨t, s, hrun⟩ := succeeds_build hbags h []
  exact ⟨t, congrArg Prod.fst hrun⟩

end Concordance.Statistics
