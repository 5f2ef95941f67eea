import Concordance.Growth.Tracker
import Mathlib.Data.Finset.Card
import Mathlib.Data.Finset.Dedup

/-!
# Concordance.Proofs.Growth.Tracker

What a tracker holds and answers after any requests, which may be addressed to any documents in any
order, also to documents that there are not.

Every document has a story: the terms that it was given and the points that were recorded, in order,
since it is tracked.  Its growth is that of the story read alone (`documents_trackerAfter`), and
what a story leaves is told by `Tells`, one event after the other.

* `Tells.term`, `Tells.point` — what an event does to the growth of a document;
* `documents_trackerAfter` — a document's growth depends on its own story only;
* `growth_after_requests` — the answers and the growth after any requests.
-/

namespace Concordance.Growth

/-! ## requests -/

/-- A change to the growth of a document. -/
inductive Change
  | term (term : String)
  | point
  | token (term : String)

/-- What a tracker can be asked to do. -/
inductive Request
  | addDocument
  | change (document : Nat) (c : Change)

/-- What a tracker answers. -/
inductive Answer
  | ordinal (document : Nat)
  | isNew (new : Bool)
  | point (p : Point)
  deriving DecidableEq

/-- What was answered to a change, and the tracker after it.  A change that is refused leaves the
tracker as it was. -/
def Tracker.settle (t : Tracker) (answer : α → Answer) :
    Except Fault (α × Tracker) → Except Fault Answer × Tracker
  | .ok (a, changed) => (.ok (answer a), changed)
  | .error e => (.error e, t)

/-- The answer to a request, and the tracker after it. -/
def Tracker.perform (t : Tracker) : Request → Except Fault Answer × Tracker
  | .addDocument => (.ok (.ordinal t.addDocument.1), t.addDocument.2)
  | .change d (.term term) => t.settle .isNew (t.addTerm d term)
  | .change d .point => t.settle .point (t.addPoint d)
  | .change d (.token term) => t.settle .point (t.addToken d term)

/-- The tracker after requests. -/
def trackerAfter (requests : List Request) : Tracker :=
  requests.foldl (fun t r => (t.perform r).2) {}

/-! ## stories -/

/-- What happens to one document. -/
inductive Event
  | term (term : String)
  | point
  deriving DecidableEq

/-- The term that an event gives. -/
def Event.term? : Event → Option String
  | .term t => some t
  | .point => none

@[simp] theorem Event.term?_term (t : String) : (Event.term t).term? = some t := rfl

@[simp] theorem Event.term?_point : Event.point.term? = none := rfl

/-- What a change is made of: a token is a term and then a point. -/
def Change.events : Change → List Event
  | .term t => [.term t]
  | .point => [.point]
  | .token t => [.term t, .point]

/-- The change that a request addresses to a document. -/
def Request.changeTo? (document : Nat) : Request → Option Change
  | .addDocument => none
  | .change d c => if d = document then some c else none

/-- The requests since a document is tracked. -/
def sinceTracked : (document : Nat) → List Request → List Request
  | _, [] => []
  | 0, .addDocument :: rest => rest
  | d + 1, .addDocument :: rest => sinceTracked d rest
  | d, .change _ _ :: rest => sinceTracked d rest

/-- How many documents requests start. -/
def started : List Request → Nat
  | [] => 0
  | .addDocument :: rest => started rest + 1
  | .change _ _ :: rest => started rest

/-- The changes addressed to a document since it is tracked. -/
def addressed (document : Nat) (requests : List Request) : List Change :=
  (sinceTracked document requests).filterMap (Request.changeTo? document)

/-- What happened to a document. -/
def story (document : Nat) (requests : List Request) : List Event :=
  (addressed document requests).flatMap Change.events

/-- How many distinct terms events give. -/
def vocabulary (events : List Event) : Nat := (events.filterMap Event.term?).toFinset.card

theorem mem_terms_iff {events : List Event} {term : String} :
    term ∈ events.filterMap Event.term? ↔ .term term ∈ events := by
  rw [List.mem_filterMap]
  constructor
  · rintro ⟨e, he, heq⟩
    cases e with
    | term t => exact Option.some.inj heq ▸ he
    | point => cases heq
  · exact fun h => ⟨_, h, rfl⟩

theorem vocabulary_append_term (events : List Event) (term : String) :
    vocabulary (events ++ [.term term]) =
      if .term term ∈ events then vocabulary events else vocabulary events + 1 := by
  have happend : vocabulary (events ++ [.term term]) =
      (insert term (events.filterMap Event.term?).toFinset).card := by
    simp [vocabulary]
  rw [happend]
  split
  · next h =>
    rw [Finset.insert_eq_self.mpr (List.mem_toFinset.mpr (mem_terms_iff.mpr h)), vocabulary]
  · next h =>
    have hnot : term ∉ (events.filterMap Event.term?).toFinset := by
      rwa [List.mem_toFinset, mem_terms_iff]
    rw [Finset.card_insert_of_notMem hnot, vocabulary]

@[simp] theorem vocabulary_append_point (events : List Event) :
    vocabulary (events ++ [.point]) = vocabulary events := by
  simp [vocabulary, List.filterMap_cons]

theorem vocabulary_mono {xs ys : List Event} (h : xs <+: ys) :
    vocabulary xs ≤ vocabulary ys := by
  refine Finset.card_le_card fun term hterm => ?_
  rw [List.mem_toFinset] at hterm ⊢
  exact (h.filterMap _).subset hterm

theorem started_append_singleton (requests : List Request) (r : Request) :
    started (requests ++ [r]) =
      match r with
      | .addDocument => started requests + 1
      | .change _ _ => started requests := by
  induction requests with
  | nil => cases r <;> rfl
  | cons q rest ih => cases q <;> cases r <;> simp_all [started]

/-- Requests to a document count from the one that starts it. -/
theorem sinceTracked_append_singleton (d : Nat) (requests : List Request) (r : Request) :
    sinceTracked d (requests ++ [r]) =
      if d < started requests then sinceTracked d requests ++ [r] else [] := by
  induction requests generalizing d with
  | nil => cases r <;> cases d <;> rfl
  | cons q rest ih =>
      cases q with
      | addDocument => cases d <;> simp [sinceTracked, started, ih]
      | change e c => exact ih d

theorem addressed_append_singleton {d : Nat} {requests : List Request} (h : d < started requests)
    (r : Request) :
    addressed d (requests ++ [r]) = addressed d requests ++ (r.changeTo? d).toList := by
  rw [addressed, sinceTracked_append_singleton, if_pos h, List.filterMap_append, addressed]
  cases hr : r.changeTo? d <;> simp [hr]

/-! ## what a story leaves -/

/-- The growth after an event. -/
def Curve.after (c : Curve) : Event → Curve
  | .term t => (c.addTerm t).2
  | .point => c.addPoint.2

/-- The growth of a document with a story. -/
def growthOf (events : List Event) : Curve := events.foldl Curve.after {}

/-- What a story has left of a growth: the terms given, and for every point recorded how many
points and how many distinct terms there were before it. -/
structure Tells (events : List Event) (c : Curve) : Prop where
  mem_terms : ∀ term, term ∈ c.terms ↔ .term term ∈ events
  size_terms : c.terms.size = vocabulary events
  size_points : c.points.size = events.count .point
  points : ∀ before later, events = before ++ .point :: later →
    c.points[before.count .point]? =
      some ⟨(before.count .point + 1).toUInt64, (vocabulary before).toUInt64⟩

namespace Tells

variable {events : List Event} {c : Curve}

theorem empty : Tells [] {} where
  mem_terms := by simp
  size_terms := by simp [vocabulary]
  size_points := by simp
  points before later h := by simp at h

/-- A point recorded before one more event was recorded in the story without it. -/
theorem split_append_singleton {events before later : List Event} {e : Event}
    (h : events ++ [e] = before ++ .point :: later) :
    (e = .point ∧ before = events) ∨ ∃ later', events = before ++ .point :: later' := by
  cases later using List.reverseRecOn with
  | nil =>
      obtain ⟨rfl, hlast⟩ := List.append_inj' h rfl
      exact .inl ⟨List.singleton_inj.mp hlast, rfl⟩
  | append_singleton later' e' =>
      rw [← List.cons_append, ← List.append_assoc] at h
      exact .inr ⟨later', (List.append_inj' h rfl).1⟩

theorem isNew (h : Tells events c) (term : String) :
    (c.addTerm term).1 = decide (.term term ∉ events) := by
  unfold Curve.addTerm
  have hterm := h.mem_terms term
  rw [← Std.HashSet.contains_iff_mem] at hterm
  split
  · next hold => simp [← hterm, hold]
  · next hnew => simp [← hterm, hnew]

/-- A term joins the vocabulary and leaves the points. -/
theorem term (h : Tells events c) (t : String) : Tells (events ++ [.term t]) (c.addTerm t).2 := by
  have hmem := h.mem_terms t
  have hpoints : ∀ before later, events ++ [.term t] = before ++ .point :: later →
      c.points[before.count .point]? =
        some ⟨(before.count .point + 1).toUInt64, (vocabulary before).toUInt64⟩ := by
    intro before later hsplit
    obtain ⟨hpoint, -⟩ | ⟨later', hevents⟩ := split_append_singleton hsplit
    · cases hpoint
    · exact h.points before later' hevents
  have hsize : c.points.size = (events ++ [Event.term t]).count .point := by
    rw [h.size_points, List.count_append]
    simp
  unfold Curve.addTerm
  split
  · next hold =>
    have hstory : .term t ∈ events := hmem.mp (Std.HashSet.contains_iff_mem.mp hold)
    refine ⟨fun term => ?_, ?_, hsize, hpoints⟩
    · rw [h.mem_terms, List.mem_append, List.mem_singleton, or_iff_left_of_imp]
      exact fun heq => heq ▸ hstory
    · rw [vocabulary_append_term, if_pos hstory, h.size_terms]
  · next hnew =>
    have hstory : .term t ∉ events := fun hin =>
      hnew (Std.HashSet.contains_iff_mem.mpr (hmem.mpr hin))
    refine ⟨fun term => ?_, ?_, hsize, hpoints⟩
    · rw [Std.HashSet.mem_insert, h.mem_terms, List.mem_append, List.mem_singleton, or_comm,
        beq_iff_eq, Event.term.injEq, eq_comm]
    · rw [vocabulary_append_term, if_neg hstory, Std.HashSet.size_insert,
        if_neg (mt hmem.mp hstory), h.size_terms]

/-- A point is the next one and leaves the vocabulary. -/
theorem point (h : Tells events c) : Tells (events ++ [.point]) c.addPoint.2 where
  mem_terms term := by
    rw [Curve.addPoint, h.mem_terms]
    simp
  size_terms := by rw [Curve.addPoint, vocabulary_append_point, h.size_terms]
  size_points := by simp [Curve.addPoint, h.size_points]
  points before later hsplit := by
    obtain ⟨-, rfl⟩ | ⟨later', hevents⟩ := split_append_singleton hsplit
    · simp [Curve.addPoint, Curve.nextPoint, ← h.size_points, h.size_terms]
    · have hlt : before.count .point < c.points.size := by
        rw [h.size_points, hevents, List.count_append, List.count_cons_self]
        omega
      rw [Curve.addPoint, Array.getElem?_push, if_neg (Nat.ne_of_lt hlt)]
      exact h.points before later' hevents

/-- The growth of a document is told by its story. -/
theorem growthOf (events : List Event) : Tells events (growthOf events) := by
  induction events using List.reverseRecOn with
  | nil => exact .empty
  | append_singleton events e ih =>
      rw [Growth.growthOf, List.foldl_append]
      cases e with
      | term t => exact ih.term t
      | point => exact ih.point

end Tells

/-! ## one document of many -/

/-- The answer to a change, and the growth after it. -/
def Curve.change (c : Curve) : Change → Answer × Curve
  | .term t => (.isNew (c.addTerm t).1, (c.addTerm t).2)
  | .point => (.point c.nextPoint, c.addPoint.2)
  | .token t => (.point (c.addTerm t).2.nextPoint, (c.addTerm t).2.addPoint.2)

theorem Curve.change_eq_foldl (c : Curve) (change : Change) :
    (c.change change).2 = change.events.foldl Curve.after c := by cases change <;> rfl

namespace Tracker

variable {t : Tracker} {d : Nat}

theorem update_of_lt (h : d < t.documents.size) (f : Curve → α × Curve) :
    t.update d f = .ok ((f t.documents[d]).1, ⟨t.documents.set d (f t.documents[d]).2⟩) := by
  rw [update, dif_pos h]

theorem update_of_le (h : t.count ≤ d) (f : Curve → α × Curve) :
    t.update d f = .error (.document d t.count) := by
  unfold Tracker.count at h
  rw [update, dif_neg (Nat.not_lt.mpr h)]

/-- A token is a term and then a point, both of the same document. -/
theorem addToken_of_lt (h : d < t.documents.size) (term : String) :
    t.addToken d term = .ok ((t.documents[d].addTerm term).2.nextPoint,
      ⟨t.documents.set d (t.documents[d].addTerm term).2.addPoint.2⟩) := by
  have hset : d < (t.documents.set d (t.documents[d].addTerm term).2).size := by simpa using h
  have hpoint := update_of_lt (t := ⟨t.documents.set d (t.documents[d].addTerm term).2⟩) hset
    Curve.addPoint
  simp only [Array.getElem_set_self, Array.set_set] at hpoint
  rw [addToken, addTerm, update_of_lt h]
  exact hpoint

/-- A change to a document that is tracked changes its growth and no other. -/
theorem perform_change_of_lt (h : d < t.documents.size) (change : Change) :
    t.perform (.change d change) =
      (.ok (t.documents[d].change change).1,
        ⟨t.documents.set d (t.documents[d].change change).2⟩) := by
  cases change with
  | term term => rw [perform, addTerm, update_of_lt h]; rfl
  | point => rw [perform, addPoint, update_of_lt h]; rfl
  | token term => rw [perform, addToken_of_lt h]; rfl

/-- A change to a document that is not tracked is refused. -/
theorem perform_change_of_le (h : t.count ≤ d) (change : Change) :
    t.perform (.change d change) = (.error (.document d t.count), t) := by
  cases change <;>
    simp only [perform, addToken, addTerm, addPoint, update_of_le h, settle]

end Tracker

theorem trackerAfter_append_singleton (requests : List Request) (r : Request) :
    trackerAfter (requests ++ [r]) = ((trackerAfter requests).perform r).2 := by
  simp [trackerAfter]

/-- The story of a document that a request addresses goes on with the change; all others stay. -/
theorem story_append_singleton {d : Nat} {requests : List Request} (h : d < started requests)
    (r : Request) :
    story d (requests ++ [r]) =
      story d requests ++ ((r.changeTo? d).map Change.events).getD [] := by
  rw [story, addressed_append_singleton h, List.flatMap_append, story]
  cases r.changeTo? d <;> simp

/-- The growth of every document is that of its own story. -/
theorem documents_trackerAfter (requests : List Request) :
    (trackerAfter requests).count = started requests ∧
      ∀ d < started requests,
        (trackerAfter requests).documents[d]? = some (growthOf (story d requests)) := by
  induction requests using List.reverseRecOn with
  | nil => exact ⟨rfl, fun d hd => absurd hd (Nat.not_lt_zero d)⟩
  | append_singleton requests r ih =>
      obtain ⟨hcount, hdocuments⟩ := ih
      rw [trackerAfter_append_singleton, started_append_singleton]
      cases r with
      | addDocument =>
          refine ⟨by simpa [Tracker.perform, Tracker.addDocument, Tracker.count] using hcount, ?_⟩
          intro d hd
          rw [Tracker.perform, Tracker.addDocument, Array.getElem?_push]
          obtain hlt | rfl := Nat.lt_succ_iff_lt_or_eq.mp hd
          · rw [if_neg (by simp only [Tracker.count] at hcount; omega), hdocuments d hlt,
              story_append_singleton hlt]
            simp [Request.changeTo?]
          · have hnone : story (started requests) (requests ++ [.addDocument]) = [] := by
              rw [story, addressed, sinceTracked_append_singleton, if_neg (Nat.lt_irrefl _)]
              rfl
            rw [Tracker.count] at hcount
            rw [if_pos hcount.symm, hnone]
            rfl
      | change e change =>
          by_cases he : e < (trackerAfter requests).documents.size
          · rw [Tracker.perform_change_of_lt he]
            refine ⟨by simpa [Tracker.count] using hcount, fun d hd => ?_⟩
            rw [story_append_singleton hd, Array.getElem?_set]
            have hold := hdocuments d hd
            by_cases hed : e = d
            · subst hed
              rw [Array.getElem?_eq_getElem he, Option.some.injEq] at hold
              rw [if_pos rfl, Curve.change_eq_foldl, hold]
              simp [Request.changeTo?, growthOf, List.foldl_append]
            · rw [if_neg hed, hold]
              simp [Request.changeTo?, hed]
          · rw [Tracker.perform_change_of_le (Nat.not_lt.mp he)]
            refine ⟨hcount, fun d hd => ?_⟩
            have hed : e ≠ d := by
              rintro rfl
              exact he (Nat.lt_of_lt_of_eq hd hcount.symm)
            rw [story_append_singleton hd, hdocuments d hd]
            simp [Request.changeTo?, hed]

/-! ## the points of a story -/

/-- Every point has its place in the story. -/
theorem exists_split {events : List Event} {k : Nat} (h : k < events.count .point) :
    ∃ before later, events = before ++ .point :: later ∧ before.count .point = k := by
  induction events generalizing k with
  | nil => simp at h
  | cons e rest ih =>
      cases e with
      | term t =>
          obtain ⟨before, later, rfl, hk⟩ := ih (by simpa using h)
          exact ⟨.term t :: before, later, rfl, by simpa using hk⟩
      | point =>
          cases k with
          | zero => exact ⟨[], rest, rfl, rfl⟩
          | succ k =>
              obtain ⟨before, later, rfl, hk⟩ := ih (by simpa using h)
              exact ⟨.point :: before, later, rfl, by simpa using hk⟩

/-- Of two points of a story the one with fewer points before it comes first. -/
theorem prefix_of_count_lt {events before later before' later' : List Event}
    (h : events = before ++ .point :: later) (h' : events = before' ++ .point :: later')
    (hlt : before.count .point < before'.count .point) : before <+: before' := by
  have hb : before <+: events := h ▸ List.prefix_append _ _
  have hb' : before' <+: events := h' ▸ List.prefix_append _ _
  obtain hp | hp := List.prefix_or_prefix_of_prefix hb hb'
  · exact hp
  · exact absurd (hp.sublist.count_le .point) (Nat.not_le.mpr hlt)

/-- A story has no more terms and points than there were changes. -/
theorem count_point_story_le (d : Nat) (requests : List Request) :
    (story d requests).count .point ≤ requests.length ∧
      ((story d requests).filterMap Event.term?).length ≤ requests.length := by
  have hone : ∀ changes : List Change,
      (changes.flatMap Change.events).count .point ≤ changes.length ∧
        ((changes.flatMap Change.events).filterMap Event.term?).length ≤ changes.length := by
    intro changes
    induction changes with
    | nil => simp
    | cons c rest ih => cases c <;> simp [Change.events, List.filterMap_cons] <;> omega
  have hsince : ∀ (d : Nat) (rs : List Request), (sinceTracked d rs).length ≤ rs.length := by
    intro d rs
    fun_induction sinceTracked d rs <;> simp <;> omega
  have hchanges : (addressed d requests).length ≤ requests.length :=
    (List.length_filterMap_le _ _).trans (hsince d requests)
  exact ⟨(hone _).1.trans hchanges, (hone _).2.trans hchanges⟩

/-- Where only tokens are read, there is at most one term more than there are points. -/
theorem length_terms_le_of_tokens {changes : List Change} (h : ∀ c ∈ changes, ∃ t, c = .token t)
    {before : List Event} (hb : before <+: changes.flatMap Change.events) :
    (before.filterMap Event.term?).length ≤ before.count .point + 1 := by
  induction changes generalizing before with
  | nil => simp [List.prefix_nil.mp hb]
  | cons c rest ih =>
      obtain ⟨t, rfl⟩ := h c List.mem_cons_self
      rw [List.flatMap_cons, Change.events] at hb
      match before with
      | [] => simp
      | [e] => exact (List.length_filterMap_le _ _).trans (Nat.le_add_left 1 _)
      | e :: e' :: before =>
          obtain ⟨he, hb⟩ := List.cons_prefix_cons.mp hb
          obtain ⟨he', hb⟩ := List.cons_prefix_cons.mp hb
          have hrest := ih (fun c hc => h c (List.mem_cons_of_mem _ hc)) hb
          simpa [he, he', List.filterMap_cons] using hrest

theorem vocabulary_le_length (events : List Event) :
    vocabulary events ≤ (events.filterMap Event.term?).length := List.toFinset_card_le _

/-- What a tracker holds and answers after requests. -/
structure Tracker.Follows (requests : List Request) (t : Tracker) : Prop where
  /-- Documents are numbered from zero on. -/
  next : (t.perform .addDocument).1 = .ok (.ordinal (started requests))
  points : ∀ d < started requests, ∃ points, t.points d = .ok points ∧
    points.length = (story d requests).count .point ∧
    ∀ before later, story d requests = before ++ .point :: later →
      points[before.count .point]? =
        some ⟨(before.count .point + 1).toUInt64, (vocabulary before).toUInt64⟩
  vocabularySize : ∀ d < started requests,
    t.vocabularySize d = .ok (vocabulary (story d requests))
  /-- A term is new where the document was not given it before. -/
  isNew : ∀ d < started requests, ∀ term,
    (t.perform (.change d (.term term))).1 =
      .ok (.isNew (decide (.term term ∉ story d requests)))
  /-- A document that is not tracked is refused, and nothing changes. -/
  refused : ∀ d, started requests ≤ d →
    t.points d = .error (.document d (started requests)) ∧
      t.vocabularySize d = .error (.document d (started requests)) ∧
      ∀ c, t.perform (.change d c) = (.error (.document d (started requests)), t)
  curves : t.curves.length = started requests ∧
    ∀ d points, t.points d = .ok points ↔ t.curves[d]? = some points

/-- What the points of a document are that was given changes. -/
structure PointsOf (changes : List Change) (points : List Point) : Prop where
  tokens : points.map (·.tokens.toNat) = List.range' 1 points.length
  vocabulary : points.Pairwise fun a b => a.vocabulary ≤ b.vocabulary
  bound : (∀ c ∈ changes, ∃ t, c = .token t) → ∀ p ∈ points, p.vocabulary ≤ p.tokens

section Points

variable {d : Nat} {requests : List Request}

theorem curve_trackerAfter (h : d < started requests) :
    (trackerAfter requests).curve d = .ok (growthOf (story d requests)) := by
  rw [Tracker.curve, (documents_trackerAfter requests).2 d h]

theorem curve_trackerAfter_of_le (h : started requests ≤ d) :
    (trackerAfter requests).curve d = .error (.document d (started requests)) := by
  have hcount := (documents_trackerAfter requests).1
  have hnone : (trackerAfter requests).documents[d]? = none :=
    Array.getElem?_eq_none (hcount.trans_le h)
  rw [Tracker.curve, hnone, hcount]

theorem follows_trackerAfter (requests : List Request) :
    (trackerAfter requests).Follows requests := by
  obtain ⟨hcount, hdocuments⟩ := documents_trackerAfter requests
  refine ⟨by rw [← hcount]; rfl, fun d hd => ?_, fun d hd => ?_, fun d hd term => ?_,
    fun d hd => ⟨?_, ?_, fun c => ?_⟩, ?_, fun d points => ?_⟩
  · have htells := Tells.growthOf (story d requests)
    refine ⟨_, by rw [Tracker.points, curve_trackerAfter hd]; rfl, by simpa using htells.size_points,
      fun before later hsplit => ?_⟩
    simpa using htells.points before later hsplit
  · rw [Tracker.vocabularySize, curve_trackerAfter hd, ← (Tells.growthOf _).size_terms]
    rfl
  · have hlt : d < (trackerAfter requests).documents.size := hd.trans_eq hcount.symm
    have hcurve := hdocuments d hd
    rw [Array.getElem?_eq_getElem hlt, Option.some.injEq] at hcurve
    rw [Tracker.perform_change_of_lt hlt, hcurve, Curve.change, (Tells.growthOf _).isNew]
  · rw [Tracker.points, curve_trackerAfter_of_le hd]
    rfl
  · rw [Tracker.vocabularySize, curve_trackerAfter_of_le hd]
    rfl
  · rw [Tracker.perform_change_of_le (hcount.trans_le hd), hcount]
  · simpa [Tracker.curves, Tracker.count] using hcount
  · rw [Tracker.curves, List.getElem?_map, Array.getElem?_toList, Tracker.points, Tracker.curve]
    cases (trackerAfter requests).documents[d]? <;> simp [Except.map]

/-- A point of a document, by its place in the document's story. -/
theorem exists_split_of_getElem? {points : List Point}
    (hpoints : (trackerAfter requests).points d = .ok points) {k : Nat} {p : Point}
    (hk : points[k]? = some p) :
    ∃ before later, story d requests = before ++ .point :: later ∧ before.count .point = k ∧
      p = ⟨(k + 1).toUInt64, (vocabulary before).toUInt64⟩ := by
  have hfollows := follows_trackerAfter requests
  have hd : d < started requests := by
    by_contra hd
    rw [(hfollows.refused d (Nat.not_lt.mp hd)).1] at hpoints
    cases hpoints
  obtain ⟨points', hpoints', hlength, hplaces⟩ := hfollows.points d hd
  obtain rfl := Except.ok.inj (hpoints.symm.trans hpoints')
  have hlt : k < (story d requests).count .point := by
    rw [← hlength]
    exact (List.getElem?_eq_some_iff.mp hk).1
  obtain ⟨before, later, hsplit, rfl⟩ := exists_split hlt
  exact ⟨before, later, hsplit, rfl, Option.some.inj (hk.symm.trans (hplaces before later hsplit))⟩

/-- What fits into the length of a list of requests fits into a word. -/
theorem pointsOf_trackerAfter (h : requests.length < Decimal.wordLimit) {points : List Point}
    (hpoints : (trackerAfter requests).points d = .ok points) :
    PointsOf (addressed d requests) points := by
  have hword : ∀ n ≤ requests.length, n.toUInt64.toNat = n := fun n hn =>
    UInt64.toNat_ofNat_of_lt' (Nat.lt_of_le_of_lt hn h)
  obtain ⟨hcount, hterms⟩ := count_point_story_le d requests
  have hvocabulary : ∀ before, before <+: story d requests →
      (vocabulary before).toUInt64.toNat = vocabulary before := fun before hb =>
    hword _ ((vocabulary_mono hb).trans ((vocabulary_le_length _).trans hterms))
  have htoken : ∀ before later, story d requests = before ++ .point :: later →
      (before.count .point + 1).toUInt64.toNat = before.count .point + 1 := by
    intro before later hsplit
    refine hword _ (Nat.le_trans ?_ hcount)
    rw [hsplit, List.count_append, List.count_cons_self]
    omega
  refine ⟨List.ext_getElem? fun k => ?_, List.pairwise_iff_getElem.mpr fun i j hi hj hij => ?_,
    fun htokens p hp => ?_⟩
  · cases hk : points[k]? with
    | none =>
        rw [List.getElem?_map, hk, Option.map_none, List.getElem?_eq_none]
        simpa using List.getElem?_eq_none_iff.mp hk
    | some p =>
        obtain ⟨before, later, hsplit, rfl, rfl⟩ := exists_split_of_getElem? hpoints hk
        have hlt := (List.getElem?_eq_some_iff.mp hk).1
        rw [List.getElem?_map, hk, Option.map_some, htoken before later hsplit,
          List.getElem?_range' hlt, Nat.one_mul, Nat.add_comm]
  · obtain ⟨before, later, hsplit, hi', hpi⟩ :=
      exists_split_of_getElem? hpoints (List.getElem?_eq_getElem hi)
    obtain ⟨before', later', hsplit', hj', hpj⟩ :=
      exists_split_of_getElem? hpoints (List.getElem?_eq_getElem hj)
    have hbefore := prefix_of_count_lt hsplit hsplit' (hi' ▸ hj' ▸ hij)
    rw [hpi, hpj, UInt64.le_iff_toNat_le, hvocabulary _ (hsplit ▸ List.prefix_append _ _),
      hvocabulary _ (hsplit' ▸ List.prefix_append _ _)]
    exact vocabulary_mono hbefore
  · obtain ⟨k, hk⟩ := List.mem_iff_getElem?.mp hp
    obtain ⟨before, later, hsplit, rfl, rfl⟩ := exists_split_of_getElem? hpoints hk
    have hb : before <+: story d requests := hsplit ▸ List.prefix_append _ _
    rw [UInt64.le_iff_toNat_le, hvocabulary before hb, htoken before later hsplit]
    exact (vocabulary_le_length before).trans (length_terms_le_of_tokens htokens hb)

end Points

/-- **Growth**: after any requests a tracker answers for every document what the document's own
story says, whatever was asked of other documents. -/
theorem growth_after_requests (requests : List Request) :
    (trackerAfter requests).Follows requests ∧
      (∀ d others, d < started requests → d < started others →
        addressed d others = addressed d requests →
          (trackerAfter others).documents[d]? = (trackerAfter requests).documents[d]?) ∧
      (requests.length < Decimal.wordLimit →
        ∀ d points, (trackerAfter requests).points d = .ok points →
          PointsOf (addressed d requests) points) := by
  refine ⟨follows_trackerAfter requests, fun d others hd hd' hsame => ?_,
    fun h d points hpoints => pointsOf_trackerAfter h hpoints⟩
  rw [(documents_trackerAfter others).2 d hd', (documents_trackerAfter requests).2 d hd, story,
    story, hsame]

/-- Changes to two documents in turn, one of them to the second document before it is tracked. -/
def interleaved : List Request :=
  [.addDocument, .change 1 (.token "flow"), .addDocument, .change 0 (.term "wing"),
    .change 1 (.token "flow"), .change 0 .point, .change 1 (.token "flow")]

/-- The token that came too early is not part of the second document's story. -/
theorem growth_after_interleaved :
    addressed 1 interleaved = [.token "flow", .token "flow"] ∧
      (trackerAfter interleaved).vocabularySize 1 = .ok 1 ∧
      (trackerAfter interleaved).points 2 = .error (.document 2 2) ∧
      ∃ points, (trackerAfter interleaved).points 1 = .ok points ∧ points.length = 2 ∧
        points.map (·.tokens.toNat) = [1, 2] ∧ ∀ p ∈ points, p.vocabulary ≤ p.tokens := by
  obtain ⟨hfollows, -, hpoints⟩ := growth_after_requests interleaved
  obtain ⟨points, hp, hlength, -⟩ := hfollows.points 1 (by decide)
  have hof : PointsOf [.token "flow", .token "flow"] points := hpoints (by decide) 1 points hp
  refine ⟨rfl, hfollows.vocabularySize 1 (by decide), (hfollows.refused 2 (by decide)).1, points, hp,
    hlength, ?_, hof.bound (by simp)⟩
  rw [hof.tokens, hlength]
  rfl

end Concordance.Growth
