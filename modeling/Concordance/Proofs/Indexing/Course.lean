import Concordance.Proofs.Growth.Curve
import Concordance.Proofs.Indexing.Feed

/-!
# Concordance.Proofs.Indexing.Course

What a sink is called for while documents are fed into it, and what a tracker has gained by then.
The sink is any sink: each of its calls may fail, and may change its state also where it fails.

* `feed_course`, `feedAll_course` — one document, and one document after the other;
* `feedAndCommit_course` — all documents and the commit, or the call that ended the feeding.
-/

namespace Concordance

/-! ## calls of a sink -/

namespace Sink

variable {σ : Type}

/-- A call of a sink with its answer. -/
inductive Event
  | tokenized (field text : String) (answer : Except Fault (List String))
  | added (d : Document) (answer : Except Fault Unit)
  | committed (answer : Except Fault Unit)

/-- The fault that a call was answered with. -/
def Event.fault? : Event → Option Fault
  | .tokenized _ _ (.error e) => some e
  | .added _ (.error e) => some e
  | .committed (.error e) => some e
  | _ => none

/-- A call that the sink answers so in one state, which it leaves for another. -/
def Answers (sink : Sink σ) (s : σ) : Event → σ → Prop
  | .tokenized field text answer, u => sink.tokenize field text s = (answer, u)
  | .added d answer, u => sink.add d s = (answer, u)
  | .committed answer, u => sink.commit s = (answer, u)

/-- Calls one after the other, from one state of the sink to another. -/
inductive Course (sink : Sink σ) : σ → List Event → σ → Prop
  | done (s : σ) : Course sink s [] s
  | call {s u v : σ} {event : Event} {events : List Event} (hcall : sink.Answers s event u)
      (hrest : Course sink u events v) : Course sink s (event :: events) v

variable {sink : Sink σ} {s u v : σ} {event : Event} {events rest : List Event}

theorem Course.single (event : Event) (h : sink.Answers s event u) : Course sink s [event] u :=
  .call h (.done u)

theorem Course.append (h : Course sink s events u) (hrest : Course sink u rest v) :
    Course sink s (events ++ rest) v := by
  induction h with
  | done s => exact hrest
  | call hcall _ ih => exact .call hcall (ih hrest)

theorem Course.of_single (h : Course sink s [event] u) : sink.Answers s event u := by
  cases h with
  | call hcall hrest =>
      cases hrest
      exact hcall

theorem Course.of_append (h : Course sink s (events ++ rest) v) :
    ∃ u, Course sink s events u ∧ Course sink u rest v := by
  induction events generalizing s with
  | nil => exact ⟨s, .done s, h⟩
  | cons event events ih =>
      cases h with
      | call hcall hrest =>
          obtain ⟨u, hevents, hu⟩ := ih hrest
          exact ⟨u, .call hcall hevents, hu⟩

end Sink

namespace Indexing

open Growth (Tracker)
open Sink (Event Course)

variable {σ : Type}

/-! ## documents with their terms -/

/-- The terms of the field of a document, if they are asked for. -/
structure Reads (tracked : Bool) (field : String) (d : Document) (terms : List String) : Prop where
  untracked : tracked = false → terms = []
  lacking : d.field? field = none → terms = []

/-- The call for the terms of a document. -/
def analyzing (tracked : Bool) (field : String) (d : Document) (terms : List String) : List Event :=
  match tracked, d.field? field with
  | true, some text => [.tokenized field text (.ok terms)]
  | _, _ => []

/-- The calls for a document that is taken. -/
def feeding (tracked : Bool) (field : String) (fed : Document × List String) : List Event :=
  analyzing tracked field fed.1 fed.2 ++ [.added fed.1 (.ok ())]

/-- Documents were fed from a position on, with the terms that the sink gave for each. -/
structure Fed (sink : Sink σ) (field : String) (position : Nat)
    (fed : List (Document × List String)) (p q : Progress σ) : Prop where
  numbered : fed.map (·.1.ordinal) = List.range' position fed.length
  reads : ∀ x ∈ fed, Reads p.tracker.isSome field x.1 x.2
  course : Course sink p.sink (fed.flatMap (feeding p.tracker.isSome field)) q.sink
  tracker : q.tracker = p.tracker.map (·.extend (fed.map Prod.snd))
  documents : q.summary.documents = p.summary.documents + fed.length
  tokens : q.summary.tokens = p.summary.tokens + (fed.flatMap Prod.snd).length.toUInt64
  growthFiles : q.summary.growthFiles = p.summary.growthFiles

/-- How the feeding of a document ends early: the fault, the calls for the document and the terms
of it that a tracker has gained. -/
inductive Halts (tracked : Bool) (field : String) (position : Nat) (d : Document) :
    Fault → List Event → List (List String) → Prop
  | misnumbered (hordinal : d.ordinal ≠ position) :
      Halts tracked field position d (.document d.ordinal position) [] []
  | untokenized {text : String} {e : Fault} (htracked : tracked = true)
      (hordinal : d.ordinal = position) (hfield : d.field? field = some text) :
      Halts tracked field position d e [.tokenized field text (.error e)] [[]]
  | refused {terms : List String} {e : Fault} (hordinal : d.ordinal = position)
      (hreads : Reads tracked field d terms) :
      Halts tracked field position d e (analyzing tracked field d terms ++ [.added d (.error e)])
        [terms]

/-- The feeding of a document has ended early. -/
def Halted (sink : Sink σ) (field : String) (position : Nat) (d : Document) (p : Progress σ)
    (e : Fault) (q : Progress σ) : Prop :=
  ∃ events termss, Halts p.tracker.isSome field position d e events termss ∧
    Course sink p.sink events q.sink ∧ q.tracker = p.tracker.map (·.extend termss)

section Fed

variable {sink : Sink σ} {field : String} {position : Nat} {fed more : List (Document × List String)}
  {p q r : Progress σ}

theorem Fed.nil (p : Progress σ) : Fed sink field position [] p p where
  numbered := rfl
  reads := by simp
  course := .done p.sink
  tracker := by
    cases p.tracker with
    | none => rfl
    | some tracker => simp [Tracker.extend_nil]
  documents := rfl
  tokens := by simp
  growthFiles := rfl

theorem Fed.isSome_tracker (h : Fed sink field position fed p q) :
    q.tracker.isSome = p.tracker.isSome := by
  rw [h.tracker, Option.isSome_map]

theorem Fed.append (h : Fed sink field position fed p q)
    (hmore : Fed sink field (position + fed.length) more q r) :
    Fed sink field position (fed ++ more) p r := by
  have hcourse := hmore.course
  have hreads := hmore.reads
  rw [h.isSome_tracker] at hcourse hreads
  refine ⟨?_, ?_, ?_, ?_, ?_, ?_, ?_⟩
  · rw [List.map_append, h.numbered, hmore.numbered, List.length_append, List.range'_append_1]
  · intro x hx
    exact (List.mem_append.mp hx).elim (h.reads x) (hreads x)
  · rw [List.flatMap_append]
    exact h.course.append hcourse
  · rw [hmore.tracker, h.tracker, Option.map_map]
    congr 1
    funext t
    simp [Tracker.extend_extend]
  · rw [hmore.documents, h.documents, List.length_append, Nat.add_assoc]
  · rw [hmore.tokens, h.tokens, List.flatMap_append, List.length_append, Nat.toUInt64_eq,
      Nat.toUInt64_eq, Nat.toUInt64_eq, UInt64.ofNat_add, UInt64.add_assoc]
  · rw [hmore.growthFiles, h.growthFiles]

end Fed

/-! ## the feeding of one document -/

variable (sink : Sink σ) (field : String)

theorem growthTerms_course (d : Document) (p : Progress σ) :
    Ensures (growthTerms sink field d) p
      (fun terms q => Reads true field d terms ∧
        Course sink p.sink (analyzing true field d terms) q.sink ∧ q = { p with sink := q.sink })
      (fun e q => ∃ text, d.field? field = some text ∧
        Course sink p.sink [.tokenized field text (.error e)] q.sink ∧
          q = { p with sink := q.sink }) := by
  unfold growthTerms analyzing
  cases hfield : d.field? field with
  | none => exact ensures_pure ⟨⟨fun _ => rfl, fun _ => rfl⟩, .done p.sink, rfl⟩
  | some text =>
      have hreads : ∀ terms, Reads true field d terms := by
        intro terms
        constructor
        · simp
        · simp [hfield]
      refine ensures_call (fun terms u h => ?_) fun e u h => ?_
      · exact ⟨hreads terms, .single (.tokenized field text (.ok terms)) h, rfl⟩
      · exact ⟨text, rfl, .single (.tokenized field text (.error e)) h, rfl⟩

theorem track_course (d : Document) (tracker : Tracker) (p : Progress σ) :
    Ensures (track sink field d tracker) p
      (fun _ q => ∃ terms, Reads true field d terms ∧
        Course sink p.sink (analyzing true field d terms) q.sink ∧
          q = ⟨q.sink, some (tracker.extend [terms]),
            { p.summary with tokens := p.summary.tokens + terms.length.toUInt64 }⟩)
      (fun e q => ∃ text, d.field? field = some text ∧
        Course sink p.sink [.tokenized field text (.error e)] q.sink ∧
          q.tracker = some (tracker.extend [[]])) := by
  have hempty : some tracker.addDocument.2 = some (tracker.extend [[]]) := by
    have hadd := tracker.addTokens_addDocument []
    exact congrArg some (Except.ok.inj hadd)
  refine ensures_modify_bind (((growthTerms_course sink field d _).imp_error fun e q h => ?_).bind
    fun terms q h => ?_)
  · obtain ⟨text, hfield, hcourse, hq⟩ := h
    refine ⟨text, hfield, hcourse, ?_⟩
    rw [hq]
    exact hempty
  · obtain ⟨hreads, hcourse, hq⟩ := h
    have hadd := tracker.addTokens_addDocument terms
    rw [Tracker.addDocument] at hadd
    rw [hadd, hq]
    exact ⟨terms, hreads, hcourse, rfl⟩

/-- The sink is asked for the terms of a document, and takes it after that. -/
theorem feed_course (position : Nat) (d : Document) (p : Progress σ) :
    Ensures (feed sink field position d) p
      (fun _ q => ∃ terms, Fed sink field position [(d, terms)] p q)
      (Halted sink field position d p) := by
  unfold feed
  split
  · next hordinal =>
    have hnone : Fed sink field position [] p p := .nil p
    exact ensures_throw ⟨[], [], .misnumbered hordinal, .done p.sink, hnone.tracker⟩
  next hordinal =>
  have hnumbered : d.ordinal = position := not_not.mp hordinal
  -- the document is added behind the call for its terms, in both cases below
  have hadd : ∀ {terms : List String} {q : Progress σ}, Reads p.tracker.isSome field d terms →
      Course sink p.sink (analyzing p.tracker.isSome field d terms) q.sink →
      q = ⟨q.sink, p.tracker.map (·.extend [terms]),
        { p.summary with tokens := p.summary.tokens + terms.length.toUInt64 }⟩ →
      Ensures (call (sink.add d) >>= fun _ => modify fun p =>
          { p with summary := { p.summary with documents := p.summary.documents + 1 } }) q
        (fun _ q => ∃ terms, Fed sink field position [(d, terms)] p q)
        (Halted sink field position d p) := by
    intro terms q hreads hcourse hq
    refine ensures_call_bind (fun _ u h => ⟨terms, ?_⟩) fun e u h => ?_
    · refine ⟨?_, ?_, ?_, ?_, ?_, ?_, ?_⟩
      · simpa using hnumbered
      · simpa using hreads
      · have hboth := hcourse.append (.single (.added d (.ok ())) h)
        simpa [feeding] using hboth
      · rw [hq]
        rfl
      · rw [hq]
        rfl
      · rw [hq]
        simp
      · rw [hq]
    · refine ⟨_, [terms], .refused hnumbered hreads, hcourse.append (.single _ h), ?_⟩
      rw [hq]
  refine ensures_get_bind ?_
  split
  · next htracker =>
    rw [htracker] at hadd
    have huntracked : Reads false field d [] := ⟨fun _ => rfl, fun _ => rfl⟩
    have hq : p = ⟨p.sink, (none : Option Tracker).map (·.extend [[]]),
        { p.summary with tokens := p.summary.tokens + (0 : Nat).toUInt64 }⟩ := by
      rw [Option.map_none, ← htracker]
      simp
    exact hadd huntracked (.done p.sink) hq
  · next tracker htracker =>
    rw [htracker] at hadd
    refine ((track_course sink field d tracker p).imp_error fun e q h => ?_).bind fun _ q h => ?_
    · obtain ⟨text, hfield, hcourse, hq⟩ := h
      refine ⟨_, [[]], .untokenized ?_ hnumbered hfield, hcourse, ?_⟩
      · rw [htracker]
        rfl
      · rw [hq, htracker]
        rfl
    · obtain ⟨terms, hreads, hcourse, hq⟩ := h
      exact hadd hreads hcourse hq

/-! ## the feeding of all documents -/

/-- The documents are fed one after the other up to the first that is not taken. -/
theorem feedAll_course (position : Nat) (documents : List Document) (p : Progress σ) :
    Ensures (feedAll sink field position documents) p
      (fun _ q => ∃ fed, fed.map Prod.fst = documents ∧ Fed sink field position fed p q)
      (fun e q => ∃ fed d rest r, documents = fed.map Prod.fst ++ d :: rest ∧
        Fed sink field position fed p r ∧ Halted sink field (position + fed.length) d r e q) := by
  induction documents generalizing position p with
  | nil => exact ensures_pure ⟨[], rfl, .nil p⟩
  | cons d rest ih =>
      refine ((feed_course sink field position d p).imp_error fun e q h => ?_).bind fun _ q h => ?_
      · exact ⟨[], d, rest, p, rfl, .nil p, h⟩
      obtain ⟨terms, hfirst⟩ := h
      refine (ih (position + 1) q).mono (fun _ r h => ?_) fun e r h => ?_
      · obtain ⟨fed, hdocuments, hfed⟩ := h
        refine ⟨(d, terms) :: fed, ?_, hfirst.append hfed⟩
        rw [List.map_cons, hdocuments]
      · obtain ⟨fed, d', rest', r', hdocuments, hfed, hhalted⟩ := h
        refine ⟨(d, terms) :: fed, d', rest', r', ?_, hfirst.append hfed, ?_⟩
        · rw [List.map_cons, List.cons_append, hdocuments]
        · have hposition : position + ((d, terms) :: fed).length = position + 1 + fed.length := by
            rw [List.length_cons]
            omega
          rw [hposition]
          exact hhalted

/-- The documents are fed, and the commit comes behind the last of them only. -/
theorem feedAndCommit_fed (documents : List Document) (p : Progress σ) :
    Ensures (feedAndCommit sink field documents) p
      (fun summary q => ∃ fed r, fed.map Prod.fst = documents ∧ Fed sink field 0 fed p r ∧
        sink.commit r.sink = (.ok (), q.sink) ∧ q = { r with sink := q.sink } ∧
          summary = r.summary)
      (fun e q =>
        (∃ fed d rest r, documents = fed.map Prod.fst ++ d :: rest ∧
          Fed sink field 0 fed p r ∧ Halted sink field fed.length d r e q) ∨
        ∃ fed r, fed.map Prod.fst = documents ∧ Fed sink field 0 fed p r ∧
          sink.commit r.sink = (.error e, q.sink) ∧ q = { r with sink := q.sink }) := by
  refine ((feedAll_course sink field 0 documents p).imp_error fun e q h => ?_).bind fun _ r h => ?_
  · obtain ⟨fed, d, rest, r, hdocuments, hfed, hhalted⟩ := h
    rw [Nat.zero_add] at hhalted
    exact .inl ⟨fed, d, rest, r, hdocuments, hfed, hhalted⟩
  obtain ⟨fed, hdocuments, hfed⟩ := h
  refine ensures_call_bind (fun _ u h => ?_) fun e u h => ?_
  · exact ensures_get_bind (ensures_pure ⟨fed, r, hdocuments, hfed, h, rfl, rfl⟩)
  · exact .inr ⟨fed, r, hdocuments, hfed, h, rfl⟩

/-! ## the course of a feeding -/

/-- Documents with the terms that were asked for, each at its position. -/
structure Received (tracked : Bool) (field : String) (fed : List (Document × List String)) :
    Prop where
  numbered : fed.map (·.1.ordinal) = List.range fed.length
  reads : ∀ x ∈ fed, Reads tracked field x.1 x.2

/-- All documents were fed and committed: each was added once, in order, with the call for its
terms before it if they are tracked, and the commit came last. -/
structure Completed (documents : List Document) (s : σ) (tracker : Option Tracker)
    (fed : List (Document × List String)) (summary : Summary) (q : Progress σ) : Prop where
  inOrder : fed.map Prod.fst = documents
  received : Received tracker.isSome field fed
  course : Course sink s (fed.flatMap (feeding tracker.isSome field) ++ [.committed (.ok ())]) q.sink
  tracker : Option.Rel (Tracker.Gained (fed.map Prod.snd)) tracker q.tracker
  summary : summary = ⟨documents.length, (fed.flatMap Prod.snd).length.toUInt64, []⟩

/-- The feeding ended with a fault: at the document behind those that were fed, or at the commit. -/
inductive Stopped (documents : List Document) (s : σ) (tracker : Option Tracker)
    (fed : List (Document × List String)) (e : Fault) (q : Progress σ) : Prop
  | document {d : Document} {rest : List Document} {events : List Event}
      {termss : List (List String)} (hdocuments : documents = fed.map Prod.fst ++ d :: rest)
      (hreceived : Received tracker.isSome field fed)
      (hhalts : Halts tracker.isSome field fed.length d e events termss)
      (hcourse : Course sink s (fed.flatMap (feeding tracker.isSome field) ++ events) q.sink)
      (htracker : Option.Rel (Tracker.Gained (fed.map Prod.snd ++ termss)) tracker q.tracker)
  | commit (hdocuments : documents = fed.map Prod.fst)
      (hreceived : Received tracker.isSome field fed)
      (hcourse : Course sink s
        (fed.flatMap (feeding tracker.isSome field) ++ [.committed (.error e)]) q.sink)
      (htracker : Option.Rel (Tracker.Gained (fed.map Prod.snd)) tracker q.tracker)

theorem rel_gained_map (tracker : Option Tracker) (termss : List (List String)) :
    Option.Rel (Tracker.Gained termss) tracker (tracker.map (·.extend termss)) := by
  cases tracker with
  | none => exact .none
  | some tracker => exact .some (tracker.gained_extend termss)

section Fed

variable {sink : Sink σ} {field : String} {s : σ} {tracker : Option Tracker}
  {fed : List (Document × List String)} {r : Progress σ}

theorem Fed.received (h : Fed sink field 0 fed ⟨s, tracker, {}⟩ r) :
    Received tracker.isSome field fed := by
  constructor
  · rw [h.numbered, List.range_eq_range']
  · exact h.reads

theorem Fed.gained (h : Fed sink field 0 fed ⟨s, tracker, {}⟩ r) :
    Option.Rel (Tracker.Gained (fed.map Prod.snd)) tracker r.tracker := by
  rw [h.tracker]
  exact rel_gained_map tracker (fed.map Prod.snd)

theorem Fed.completed (h : Fed sink field 0 fed ⟨s, tracker, {}⟩ r) {u : σ}
    (hcommit : sink.commit r.sink = (.ok (), u)) :
    Completed sink field (fed.map Prod.fst) s tracker fed r.summary { r with sink := u } where
  inOrder := rfl
  received := h.received
  course := h.course.append (.single (.committed (.ok ())) hcommit)
  tracker := h.gained
  summary := by
    have hsummary : r.summary =
        ⟨r.summary.documents, r.summary.tokens, r.summary.growthFiles⟩ := rfl
    rw [hsummary, h.documents, h.tokens, h.growthFiles, List.length_map]
    simp

theorem Fed.stopped (h : Fed sink field 0 fed ⟨s, tracker, {}⟩ r) {d : Document}
    (rest : List Document) {e : Fault} {q : Progress σ}
    (hhalted : Halted sink field fed.length d r e q) :
    Stopped sink field (fed.map Prod.fst ++ d :: rest) s tracker fed e q := by
  obtain ⟨events, termss, hhalts, hcourse, htracker⟩ := hhalted
  rw [h.isSome_tracker] at hhalts
  refine .document rfl h.received hhalts (h.course.append hcourse) ?_
  have hboth := rel_gained_map tracker (fed.map Prod.snd ++ termss)
  rw [htracker, h.tracker, Option.map_map]
  simpa [Function.comp_def, Tracker.extend_extend] using hboth

theorem Fed.uncommitted (h : Fed sink field 0 fed ⟨s, tracker, {}⟩ r) {u : σ} {e : Fault}
    (hcommit : sink.commit r.sink = (.error e, u)) :
    Stopped sink field (fed.map Prod.fst) s tracker fed e { r with sink := u } :=
  .commit rfl h.received (h.course.append (.single (.committed (.error e)) hcommit))
    h.gained

end Fed

/-- **The course of a feeding**: where it ends well, the sink has added each document once and in
order and has committed once, and where it ends with a fault, the documents before it have been
added and nothing has been committed.  A tracker has gained the growth of every document that was
begun, and nothing else. -/
theorem feedAndCommit_course (documents : List Document) (s : σ) (tracker : Option Tracker) :
    Ensures (feedAndCommit sink field documents) ⟨s, tracker, {}⟩
      (fun summary q => ∃ fed, Completed sink field documents s tracker fed summary q)
      (fun e q => ∃ fed, Stopped sink field documents s tracker fed e q) := by
  refine (feedAndCommit_fed sink field documents _).mono (fun summary q h => ?_) fun e q h => ?_
  · obtain ⟨fed, r, rfl, hfed, hcommit, hq, rfl⟩ := h
    rw [hq]
    exact ⟨fed, hfed.completed hcommit⟩
  · obtain ⟨fed, d, rest, r, rfl, hfed, hhalted⟩ | ⟨fed, r, rfl, hfed, hcommit, hq⟩ := h
    · exact ⟨fed, hfed.stopped rest hhalted⟩
    · rw [hq]
      exact ⟨fed, hfed.uncommitted hcommit⟩

end Indexing

end Concordance
