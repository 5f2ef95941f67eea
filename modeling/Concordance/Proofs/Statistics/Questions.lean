import Concordance.Proofs.Statistics.Counts
import Concordance.Proofs.Workspace
import Concordance.Statistics.Table
import Mathlib.Data.List.Nodup

/-!
# Concordance.Proofs.Statistics.Questions

What building a table asks of its source, and where it stops.

The walk through the documents is told again without entries and positions: of each document the bag
is asked for, and then what there is to know about each of its terms that was not met before.
`build_asks` says that building a table is this walk, for any source.  Over a lexicon the steps of
the walk are a list, and `Pursues` says that a computation takes them in order, up to the first one
that fails.

* `build_asks` — building a table asks what the walk asks;
* `nodup_inquiries` — no step is taken twice;
* `build_stops` — a table is refused for the first step that fails, and no later step is taken.
-/

namespace Concordance.Statistics

variable {σ α β : Type} {l : Lexicon} {r : Source σ} {total : Nat} {field : String}

/-! ## the walk without a table -/

/-- The terms that were not met before, each where it is met first. -/
def unmet (met : List String) : List String → List String
  | [] => []
  | term :: rest =>
    if term ∈ met then unmet (met ++ [term]) rest else term :: unmet (met ++ [term]) rest

/-- Ask about a term that is met for the first time. -/
def askTerm (r : Source σ) (total : Nat) (field term : String) : Asking σ Unit := do
  let _ ← askDocumentFrequency r total field term
  let _ ← Asking.ask (r.collectionFrequency field term)
  return ()

/-- Ask about terms, one after the other. -/
def askTerms (r : Source σ) (total : Nat) (field : String) : List String → Asking σ Unit
  | [] => return ()
  | term :: rest => do
    askTerm r total field term
    askTerms r total field rest

/-- Ask for the bags of a number of documents, from an ordinal on, and about the terms of each that
were not met before. -/
def askWalk (r : Source σ) (total : Nat) (field : String) :
    (met : List String) → (document remaining : Nat) → Asking σ Unit
  | _, _, 0 => return ()
  | met, document, remaining + 1 => do
    let bag ← Asking.ask (r.bag document field)
    let terms := (bag.getD []).map TermCount.term
    askTerms r total field (unmet met terms)
    askWalk r total field (met ++ terms) (document + 1) remaining

/-- A computation asks what another one asks that answers nothing: it fails where that one fails,
and leaves the source alike. -/
def Asks (x : Asking σ α) (y : Asking σ Unit) (good : α → Prop) : Prop :=
  ∀ s, ExceptT.run y s = ((ExceptT.run x s).1.map fun _ => (), (ExceptT.run x s).2) ∧
    ∀ a, (ExceptT.run x s).1 = .ok a → good a

namespace Asks

variable {x : Asking σ α} {y y' : Asking σ Unit} {f : α → Asking σ β} {good : α → Prop}
  {last : β → Prop}

theorem pure {a : α} (h : good a) : Asks (pure a : Asking σ α) (pure ()) good := by
  intro s
  constructor
  · rfl
  · intro b hb
    cases hb
    exact h

/-- A step and the one after it ask what two others ask. -/
theorem bind (hx : Asks x y good) (hf : ∀ a, good a → Asks (f a) y' last) :
    Asks (x >>= f) (y >>= fun _ => y') last := by
  intro s
  obtain ⟨hrun, hgood⟩ := hx s
  rw [Asking.run_bind, Asking.run_bind, hrun]
  cases h : ExceptT.run x s with
  | mk answer t =>
      rw [h] at hgood
      cases answer with
      | error e => exact ⟨rfl, fun b hb => by cases hb⟩
      | ok a => exact hf a (hgood a rfl) t

theorem map {g : α → β} (hx : Asks x y good) (hg : ∀ a, good a → last (g a)) :
    Asks (x >>= fun a => Pure.pure (g a)) y last := by
  intro s
  obtain ⟨hrun, hgood⟩ := hx s
  rw [Asking.run_bind, hrun]
  cases h : ExceptT.run x s with
  | mk answer t =>
      rw [h] at hgood
      cases answer with
      | error e => exact ⟨rfl, fun b hb => by cases hb⟩
      | ok a =>
          constructor
          · rfl
          · intro b hb
            cases hb
            exact hg a (hgood a rfl)

/-- What is asked first may decide what is asked then. -/
theorem bind_ask {ask : Asking σ α} {g : α → Asking σ Unit} (hf : ∀ a, Asks (f a) (g a) last) :
    Asks (ask >>= f) (ask >>= g) last := by
  intro s
  rw [Asking.run_bind, Asking.run_bind]
  cases h : ExceptT.run ask s with
  | mk answer t =>
      cases answer with
      | error e => exact ⟨rfl, fun b hb => by cases hb⟩
      | ok a => exact hf a t

end Asks

/-- The terms with a position are those that were met. -/
def Walk.Has (met : List String) (w : Walk) : Prop := ∀ term, term ∈ w.positions ↔ term ∈ met

theorem Walk.Has.push {met : List String} {w : Walk} (h : w.Has met) (e : Entry) :
    (w.push e).Has (met ++ [e.term]) := by
  intro term
  have hterm := h term
  simp only [Walk.push, Std.HashMap.mem_insert, beq_iff_eq, List.mem_append, List.mem_singleton]
  grind

/-- A term that was met has its position already. -/
theorem Walk.Has.again {met : List String} {w : Walk} (h : w.Has met) {term : String}
    (hterm : term ∈ met) : w.Has (met ++ [term]) := by
  intro t
  have ht := h t
  simp only [List.mem_append, List.mem_singleton]
  grind

theorem newEntry_asks (term : String) :
    Asks (newEntry r total field term) (askTerm r total field term) (fun e => e.term = term) := by
  unfold newEntry askTerm
  exact .bind_ask fun df => .bind_ask fun cf => .pure rfl

namespace Walk

variable {met : List String} {w : Walk}

/-- Only a term that was not met before is asked about. -/
theorem locate_asks (h : w.Has met) (term : String) :
    Asks (w.locate r total field term)
      (if term ∈ met then Pure.pure () else askTerm r total field term)
      (fun located => located.2.Has (met ++ [term])) := by
  unfold locate
  by_cases hmet : term ∈ met
  · obtain ⟨p, hp⟩ := Option.isSome_iff_exists.mp
      (Std.HashMap.isSome_getElem?_iff_mem.mpr ((h term).mpr hmet))
    simp only [hp, if_pos hmet]
    exact .pure (h.again hmet)
  · have hp : w.positions[term]? = none :=
      Std.HashMap.getElem?_eq_none fun hmem => hmet ((h term).mp hmem)
    simp only [hp, if_neg hmet]
    exact (newEntry_asks term).map fun e he => he ▸ h.push e

theorem meetAll_asks (h : w.Has met) (d : Nat) (bag : Bag) :
    Asks (w.meetAll r total field d bag)
      (askTerms r total field (unmet met (bag.map TermCount.term)))
      (fun w' => w'.Has (met ++ bag.map TermCount.term)) := by
  induction bag generalizing w met with
  | nil =>
      rw [List.map_nil, List.append_nil]
      exact .pure h
  | cons c rest ih =>
      have hmeet : Asks (w.meet r total field d c)
          (if c.term ∈ met then Pure.pure () else askTerm r total field c.term)
          (fun w' => w'.Has (met ++ [c.term])) :=
        (locate_asks h c.term).map fun _ hlocated => hlocated
      have hrest := hmeet.bind fun w' (hw' : w'.Has (met ++ [c.term])) => ih hw'
      rw [List.map_cons, List.append_cons, unmet]
      by_cases hmet : c.term ∈ met
      · rw [if_pos hmet] at hrest ⊢
        exact hrest
      · rw [if_neg hmet] at hrest ⊢
        exact hrest

theorem visitAll_asks (h : w.Has met) (d n : Nat) :
    Asks (w.visitAll r total field d n) (askWalk r total field met d n) fun _ => True := by
  induction n generalizing w met d with
  | zero => exact .pure trivial
  | succ n ih =>
      rw [visitAll, visit, bind_assoc]
      refine .bind_ask fun bag => ?_
      cases bag with
      | none => exact (meetAll_asks h d []).bind fun w' hw' => ih hw' (d + 1)
      | some bag => exact (meetAll_asks h d bag).bind fun w' hw' => ih hw' (d + 1)

end Walk

/-- Building a table asks what the walk asks, whatever the source. -/
theorem build_asks (r : Source σ) (total : Nat) (field : String) :
    Asks (build r total field) (askWalk r total field [] 0 total) fun _ => True := by
  have hempty : ({} : Walk).Has [] := fun term => by simp
  exact (Walk.visitAll_asks hempty 0 total).map fun _ _ => trivial

/-! ## the steps over a lexicon -/

/-- A step of the walk. -/
inductive Inquiry
  /-- Ask for the bag of a document. -/
  | bag (document : Nat)
  /-- Ask for the document frequency of a term. -/
  | documentFrequency (term : String)
  /-- See whether the document frequency of a term can be right. -/
  | plausibility (term : String)
  /-- Ask for the collection frequency of a term. -/
  | collectionFrequency (term : String)
  deriving DecidableEq, Repr

namespace Inquiry

/-- The question that a step asks.  One of them only looks at what was answered. -/
def question? (field : String) : Inquiry → Option Question
  | .bag document => some (.bag document field)
  | .documentFrequency term => some (.documentFrequency field term)
  | .plausibility _ => none
  | .collectionFrequency term => some (.collectionFrequency field term)

/-- The fault of an answer. -/
def faultOf? : Except Fault α → Option Fault
  | .ok _ => none
  | .error e => some e

/-- The fault of a step, if it fails: that of the answer, or that a document frequency is zero or
larger than the number of documents. -/
def fault? (l : Lexicon) (total : Nat) (field : String) : Inquiry → Option Fault
  | .bag document => faultOf? (l.bag document field)
  | .documentFrequency term => faultOf? (l.documentFrequency field term)
  | .plausibility term =>
    match l.documentFrequency field term with
    | .ok n =>
      if 1 ≤ n.toNat ∧ n.toNat ≤ total then none
      else some (.lexicon (.inconsistentFrequency n term total))
    | .error _ => none
  | .collectionFrequency term => faultOf? (l.collectionFrequency field term)

/-- The steps about a term that is met for the first time. -/
def ofTerm (term : String) : List Inquiry :=
  [.documentFrequency term, .plausibility term, .collectionFrequency term]

/-- The questions of steps. -/
def questions (field : String) (steps : List Inquiry) : List Question :=
  steps.filterMap (question? field)

end Inquiry

/-- The steps about a number of documents, from an ordinal on. -/
def inquiriesFrom (l : Lexicon) (field : String) :
    (met : List String) → (document remaining : Nat) → List Inquiry
  | _, _, 0 => []
  | met, document, remaining + 1 =>
    let terms := (bagAt l field document).map TermCount.term
    .bag document :: (unmet met terms).flatMap Inquiry.ofTerm ++
      inquiriesFrom l field (met ++ terms) (document + 1) remaining

/-- The steps of the walk through the first documents: of each its bag, and then about each term
that was not met before its document frequency, whether that can be right, and its collection
frequency. -/
def inquiries (l : Lexicon) (total : Nat) (field : String) : List Inquiry :=
  inquiriesFrom l field [] 0 total

open Inquiry (fault? questions)

/-- The steps before a step that fails are taken, and it itself, and no step after it. -/
structure StopsAt (l : Lexicon) (total : Nat) (field : String) (steps before : List Inquiry)
    (last : Inquiry) (e : Fault) : Prop where
  split : before ++ [last] <+: steps
  passed : ∀ i ∈ before, fault? l total field i = none
  failed : fault? l total field last = some e

/-- A computation takes steps in order, up to the first one that fails. -/
def Pursues (l : Lexicon) (total : Nat) (field : String) (steps : List Inquiry)
    (x : Asking (List Question) α) (good : α → Prop) : Prop :=
  ∀ asked, Ensures x asked
    (fun a later => (∀ i ∈ steps, fault? l total field i = none) ∧
      later = (questions field steps).reverse ++ asked ∧ good a)
    (fun e later => ∃ before last, StopsAt l total field steps before last e ∧
      later = (questions field (before ++ [last])).reverse ++ asked)

namespace Pursues

variable {steps more : List Inquiry} {x : Asking (List Question) α}
  {f : α → Asking (List Question) β}
  {good : α → Prop} {last : β → Prop}

theorem pure {a : α} (h : good a) : Pursues l total field [] (Pure.pure a) good := by
  intro asked
  exact ensures_pure ⟨by simp, rfl, h⟩

/-- Steps are taken one after the other. -/
theorem bind (hx : Pursues l total field steps x good)
    (hf : ∀ a, good a → Pursues l total field more (f a) last) :
    Pursues l total field (steps ++ more) (x >>= f) last := by
  intro asked
  refine ((hx asked).imp_error fun e later hstop => ?_).bind fun a later ha => ?_
  · obtain ⟨before, i, hstop, rfl⟩ := hstop
    exact ⟨before, i, ⟨hstop.split.trans (List.prefix_append _ _), hstop.passed, hstop.failed⟩, rfl⟩
  · obtain ⟨hpassed, rfl, hgood⟩ := ha
    refine (hf a hgood _).mono (fun b later hb => ?_) fun e later hstop => ?_
    · obtain ⟨hmore, rfl, hlast⟩ := hb
      refine ⟨fun i hi => ?_, ?_, hlast⟩
      · exact (List.mem_append.mp hi).elim (hpassed i) (hmore i)
      · simp [questions]
    · obtain ⟨before, i, hstop, rfl⟩ := hstop
      refine ⟨steps ++ before, i, ⟨?_, fun j hj => ?_, hstop.failed⟩, ?_⟩
      · rw [List.append_assoc]
        exact (List.prefix_append_right_inj steps).mpr hstop.split
      · exact (List.mem_append.mp hj).elim (hpassed j) (hstop.passed j)
      · simp [questions]

/-- A question is a step. -/
theorem ask {i : Inquiry} {q : Question} {answer : Except Fault α}
    (hquestion : i.question? field = some q)
    (hfault : fault? l total field i = Inquiry.faultOf? answer) :
    Pursues l total field [i] (Asking.ask fun asked => (answer, q :: asked)) (answer = .ok ·) := by
  intro asked
  cases answer with
  | ok a => exact ⟨by simpa [Inquiry.faultOf?] using hfault, by simp [questions, hquestion], rfl⟩
  | error e => exact ⟨[], i, ⟨List.prefix_refl _, by simp, hfault⟩, by simp [questions, hquestion]⟩

end Pursues

/-- The document frequency of a term is asked for, and then it is seen whether it can be right. -/
theorem pursues_askDocumentFrequency (term : String) :
    Pursues l total field [.documentFrequency term, .plausibility term]
      (askDocumentFrequency l.recorded total field term) fun _ => True := by
  have hask : Pursues l total field [.documentFrequency term]
      (Asking.ask (l.recorded.documentFrequency field term))
      (l.documentFrequency field term = .ok ·) := .ask rfl rfl
  unfold askDocumentFrequency
  refine hask.bind fun n hn asked => ?_
  have hzero : n = 0 ↔ ¬1 ≤ n.toNat := by rw [← UInt64.toNat_inj]; simp
  by_cases hlikely : 1 ≤ n.toNat ∧ n.toNat ≤ total
  · rw [if_neg (by rw [hzero]; omega)]
    refine ensures_pure ⟨fun i hi => ?_, rfl, trivial⟩
    rw [List.mem_singleton.mp hi, fault?, hn]
    simp [hlikely]
  · rw [if_pos (by rw [hzero]; omega)]
    refine ensures_throw ⟨[], .plausibility term, ⟨List.prefix_refl _, by simp, ?_⟩, rfl⟩
    rw [fault?, hn]
    simp [hlikely]

theorem pursues_askTerm (term : String) :
    Pursues l total field (Inquiry.ofTerm term) (askTerm l.recorded total field term)
      fun _ => True := by
  have hcollection : Pursues l total field [.collectionFrequency term]
      (Asking.ask (l.recorded.collectionFrequency field term))
      (l.collectionFrequency field term = .ok ·) := .ask rfl rfl
  exact (pursues_askDocumentFrequency term).bind fun _ _ =>
    hcollection.bind fun _ _ => .pure trivial

theorem pursues_askTerms (terms : List String) :
    Pursues l total field (terms.flatMap Inquiry.ofTerm) (askTerms l.recorded total field terms)
      fun _ => True := by
  induction terms with
  | nil => exact .pure trivial
  | cons term rest ih =>
      rw [List.flatMap_cons]
      exact (pursues_askTerm term).bind fun _ _ => ih

theorem pursues_askWalk (met : List String) (d n : Nat) :
    Pursues l total field (inquiriesFrom l field met d n) (askWalk l.recorded total field met d n)
      fun _ => True := by
  induction n generalizing met d with
  | zero => exact .pure trivial
  | succ n ih =>
      have hask : Pursues l total field [.bag d] (Asking.ask (l.recorded.bag d field))
          (l.bag d field = .ok ·) := .ask rfl rfl
      refine hask.bind fun bag hbag => ?_
      -- what the bag holds is what the steps after it are about
      have hterms : (bagAt l field d).map TermCount.term = (bag.getD []).map TermCount.term := by
        rw [bagAt_of_ok hbag]
      rw [hterms]
      exact (pursues_askTerms _).bind fun _ _ => ih _ (d + 1)

/-! ## no step twice -/

theorem mem_unmet {met terms : List String} {term : String} :
    term ∈ unmet met terms ↔ term ∈ terms ∧ term ∉ met := by
  induction terms generalizing met with
  | nil => simp [unmet]
  | cons t rest ih =>
      by_cases h : t ∈ met
      · rw [unmet, if_pos h, ih]
        simp only [List.mem_append, List.mem_cons]
        grind
      · rw [unmet, if_neg h, List.mem_cons, ih]
        simp only [List.mem_append, List.mem_cons]
        grind

theorem nodup_unmet (met terms : List String) : (unmet met terms).Nodup := by
  induction terms generalizing met with
  | nil => exact List.nodup_nil
  | cons t rest ih =>
      by_cases h : t ∈ met
      · rw [unmet, if_pos h]
        exact ih _
      · rw [unmet, if_neg h, List.nodup_cons, mem_unmet]
        simp [ih]

theorem mem_ofTerm {term t : String} {i : Inquiry} (h : i ∈ Inquiry.ofTerm term)
    (h' : i ∈ Inquiry.ofTerm t) : term = t := by
  simp only [Inquiry.ofTerm, List.mem_cons, List.not_mem_nil, or_false] at h h'
  grind

/-- The steps from a document on are about that one and later ones, and about terms that were not
met before. -/
theorem mem_inquiriesFrom {met : List String} {d n : Nat} {i : Inquiry}
    (h : i ∈ inquiriesFrom l field met d n) :
    (∃ d', d ≤ d' ∧ i = .bag d') ∨ ∃ term, term ∉ met ∧ i ∈ Inquiry.ofTerm term := by
  induction n generalizing met d with
  | zero => cases h
  | succ n ih =>
      simp only [inquiriesFrom, List.cons_append, List.mem_cons, List.mem_append,
        List.mem_flatMap] at h
      obtain rfl | ⟨term, hterm, hi⟩ | hi := h
      · exact .inl ⟨d, Nat.le_refl d, rfl⟩
      · exact .inr ⟨term, (mem_unmet.mp hterm).2, hi⟩
      · obtain ⟨d', hd', rfl⟩ | ⟨term, hterm, hi⟩ := ih hi
        · exact .inl ⟨d', by omega, rfl⟩
        · exact .inr ⟨term, fun hmet => hterm (List.mem_append_left _ hmet), hi⟩

theorem nodup_inquiriesFrom (met : List String) (d n : Nat) :
    (inquiriesFrom l field met d n).Nodup := by
  induction n generalizing met d with
  | zero => exact List.nodup_nil
  | succ n ih =>
      have hbag : ∀ d' term, Inquiry.bag d' ∉ Inquiry.ofTerm term := by simp [Inquiry.ofTerm]
      have hterms : ((unmet met ((bagAt l field d).map TermCount.term)).flatMap
          Inquiry.ofTerm).Nodup := by
        refine List.nodup_flatMap.mpr ⟨fun term _ => by simp [Inquiry.ofTerm], ?_⟩
        exact (nodup_unmet met _).imp fun hne i hi hi' => hne (mem_ofTerm hi hi')
      rw [inquiriesFrom, List.cons_append, List.nodup_cons, List.nodup_append']
      refine ⟨fun hmem => ?_, hterms, ih _ _, fun i hi hi' => ?_⟩
      · obtain hmem | hmem := List.mem_append.mp hmem
        · obtain ⟨term, -, hi⟩ := List.mem_flatMap.mp hmem
          exact hbag d term hi
        · obtain ⟨d', hd', heq⟩ | ⟨term, -, hi⟩ := mem_inquiriesFrom hmem
          · cases heq
            omega
          · exact hbag d term hi
      · obtain ⟨term, hterm, hi⟩ := List.mem_flatMap.mp hi
        obtain ⟨d', -, rfl⟩ | ⟨t, ht, hi'⟩ := mem_inquiriesFrom hi'
        · exact hbag d' term hi
        · rw [← mem_ofTerm hi hi'] at ht
          exact ht (List.mem_append_right _ (mem_unmet.mp hterm).1)

/-- No step of the walk is taken twice. -/
theorem nodup_inquiries (l : Lexicon) (total : Nat) (field : String) :
    (inquiries l total field).Nodup := nodup_inquiriesFrom [] 0 total

/-! ## building -/

/-- The steps of the walk are taken where a table is built, whatever was asked before. -/
theorem pursues_build (l : Lexicon) (total : Nat) (field : String) :
    Pursues l total field (inquiries l total field) (build l.recorded total field)
      fun _ => True := by
  intro asked
  have hpursues : Pursues l total field (inquiries l total field)
      (askWalk l.recorded total field [] 0 total) fun _ => True := pursues_askWalk [] 0 total
  have hwalk := hpursues asked
  obtain ⟨hrun, -⟩ := build_asks l.recorded total field asked
  unfold Ensures at hwalk ⊢
  rw [hrun] at hwalk
  cases h : ExceptT.run (build l.recorded total field) asked with
  | mk answer later =>
      rw [h] at hwalk
      cases answer with
      | ok t => exact ⟨hwalk.1, hwalk.2.1, trivial⟩
      | error e => exact hwalk

theorem ensures_build (l : Lexicon) (total : Nat) (field : String) :
    Ensures (build l.recorded total field) []
      (fun _ asked => (∀ i ∈ inquiries l total field, fault? l total field i = none) ∧
        asked.reverse = questions field (inquiries l total field))
      (fun e asked => ∃ before last, StopsAt l total field (inquiries l total field) before last e ∧
        asked.reverse = questions field (before ++ [last])) := by
  refine (pursues_build l total field []).mono (fun t asked hpassed => ?_) fun e asked hstop => ?_
  · obtain ⟨hpassed, rfl, -⟩ := hpassed
    exact ⟨hpassed, by simp⟩
  · obtain ⟨before, last, hstop, rfl⟩ := hstop
    exact ⟨before, last, hstop, by simp⟩

/-- The wording tells the document frequency, the term and the number of documents. -/
theorem message_inconsistentFrequency (n : UInt64) (term : String) (total : Nat) :
    (Fault.lexicon (.inconsistentFrequency n term total)).message =
      "Backend error: document frequency " ++ toString n ++ " of '" ++ term ++
        "' is inconsistent with " ++ toString total ++ " documents" := by
  have hstart : "Backend error: document frequency " =
      "Backend error: " ++ "document frequency " := by decide
  have htext : ∀ s : String, toString s = s := fun _ => rfl
  unfold Fault.message LexiconFault.message
  rw [hstart]
  simp only [htext, String.append_assoc]

/-- What a document frequency that cannot be right is refused with. -/
theorem fault?_plausibility {term : String} {e : Fault}
    (h : fault? l total field (.plausibility term) = some e) :
    ∃ n, l.documentFrequency field term = .ok n ∧ ¬(1 ≤ n.toNat ∧ n.toNat ≤ total) ∧
      e.isAboutIndex = true ∧
      e.message = "Backend error: document frequency " ++ toString n ++ " of '" ++ term ++
        "' is inconsistent with " ++ toString total ++ " documents" := by
  simp only [fault?] at h
  split at h
  · next n hn =>
    split at h
    · cases h
    · next hnot =>
      obtain rfl := Option.some.inj h
      exact ⟨n, hn, hnot, rfl, message_inconsistentFrequency n term total⟩
  · cases h

/-- **Where building stops**: a table is refused exactly if a step of the walk fails.  The fault is
that of the first step that does, and no later step is taken; where none fails all are.  The walk
takes no step twice.  A document frequency that cannot be right is refused with a fault of the index
that tells it.  A source that changes while it is asked is asked the same. -/
theorem build_stops (l : Lexicon) (total : Nat) (field : String) :
    ((∃ e, (build l.recorded total field).answer = .error e) ↔
        ∃ i ∈ inquiries l total field, ∃ e, fault? l total field i = some e) ∧
      (∀ e, (build l.recorded total field).answer = .error e →
        ∃ before last, StopsAt l total field (inquiries l total field) before last e ∧
          (build l.recorded total field).questions = questions field (before ++ [last])) ∧
      (∀ t, (build l.recorded total field).answer = .ok t →
        (build l.recorded total field).questions = questions field (inquiries l total field)) ∧
      (inquiries l total field).Nodup ∧
      (∀ term e, fault? l total field (.plausibility term) = some e →
        ∃ n, l.documentFrequency field term = .ok n ∧ ¬(1 ≤ n.toNat ∧ n.toNat ≤ total) ∧
          e.isAboutIndex = true ∧
          e.message = "Backend error: document frequency " ++ toString n ++ " of '" ++ term ++
            "' is inconsistent with " ++ toString total ++ " documents") ∧
      ∀ {σ : Type} (r : Source σ) (s : σ),
        ExceptT.run (askWalk r total field [] 0 total) s =
          ((ExceptT.run (build r total field) s).1.map fun _ => (),
            (ExceptT.run (build r total field) s).2) := by
  have hbuild := ensures_build l total field
  have hstops : ∀ e, (build l.recorded total field).answer = .error e →
      ∃ before last, StopsAt l total field (inquiries l total field) before last e ∧
        (build l.recorded total field).questions = questions field (before ++ [last]) := by
    intro e he
    obtain ⟨asked, hrun⟩ := exists_run he
    obtain ⟨before, last, hstop, hasked⟩ := hbuild.of_error hrun
    exact ⟨before, last, hstop, by rw [Asking.questions, hrun, hasked]⟩
  have hpasses : ∀ t, (build l.recorded total field).answer = .ok t →
      (∀ i ∈ inquiries l total field, fault? l total field i = none) ∧
        (build l.recorded total field).questions = questions field (inquiries l total field) := by
    intro t ht
    obtain ⟨asked, hrun⟩ := exists_run ht
    obtain ⟨hpassed, hasked⟩ := hbuild.of_ok hrun
    exact ⟨hpassed, by rw [Asking.questions, hrun, hasked]⟩
  refine ⟨⟨?_, ?_⟩, hstops, fun t ht => (hpasses t ht).2, nodup_inquiries l total field,
    fun term e he => fault?_plausibility he, fun r s => (build_asks r total field s).1⟩
  · rintro ⟨e, he⟩
    obtain ⟨before, last, hstop, -⟩ := hstops e he
    exact ⟨last, hstop.split.subset (by simp), e, hstop.failed⟩
  · rintro ⟨i, hi, e, he⟩
    cases h : (build l.recorded total field).answer with
    | error e' => exact ⟨e', rfl⟩
    | ok t =>
        rw [(hpasses t h).1 i hi] at he
        cases he

end Concordance.Statistics
