import Concordance.Proofs.Statistics.Agreement
import Mathlib.Data.List.Induction

/-!
# Concordance.Proofs.Statistics.Session

A session answers as if it kept nothing.  The invariant is that a kept table is the one that its
generation gives, which is about the calls so far: a lexicon of that generation was among them.

* `Session.table_of_keepsOwn` — what one call answers, reads and keeps;
* `transparent_session` — what the calls of a whole run answer, read and keep.
-/

namespace Concordance.Statistics

/-- A call on a session. -/
inductive Call
  | table (l : Lexicon)
  | forget

/-- The session after a call. -/
def Session.call (s : Session) : Call → Session
  | .table l => (s.table l.recorded []).1.2
  | .forget => s.forget

/-- The session of a field after calls. -/
def sessionAfter (field : String) (calls : List Call) : Session :=
  calls.foldl Session.call { field := field }

/-- What a session answers after calls. -/
def answerAfter (field : String) (calls : List Call) (l : Lexicon) : Except Fault Table :=
  ((sessionAfter field calls).table l.recorded []).1.1

/-- What a session asks after calls. -/
def questionsAfter (field : String) (calls : List Call) (l : Lexicon) : List Question :=
  ((sessionAfter field calls).table l.recorded []).2.reverse

/-- The lexicons asked for a table since the table was last dropped, in the order of the calls. -/
def askedSinceForget (calls : List Call) : List Lexicon :=
  calls.foldl (fun asked call =>
    match call with
    | .table l => asked ++ [l]
    | .forget => []) []

/-- The calls never ask two lexicons of one generation that answer differently. -/
def Consistent (calls : List Call) : Prop :=
  ∀ l m, .table l ∈ calls → .table m ∈ calls → l.generation = m.generation → l = m

/-- A kept table is the one that a lexicon of the calls with its generation gives. -/
def Session.KeepsOwn (calls : List Call) (s : Session) : Prop :=
  ∀ g t, s.kept = some (g, t) →
    ∃ l, .table l ∈ calls ∧ l.generation = g ∧ (buildAll l.recorded s.field).answer = .ok t

/-! ## one call -/

namespace Session

theorem fresh?_eq_some {s : Session} {g : Nat} {t : Table} :
    s.fresh? g = some t ↔ s.kept = some (g, t) := by
  unfold fresh?
  split
  · next g' t' h => grind
  · next h => simp [h]

/-- What is answered and kept once a build for a generation has ended. -/
def settle (s : Session) (g : Nat) (built : Except Fault Table) : Except Fault Table × Session :=
  match built with
  | .ok t => (.ok t, s.keep g t)
  | .error e => (.error e, s.forget)

@[simp] theorem settle_answer (s : Session) (g : Nat) (built : Except Fault Table) :
    (s.settle g built).1 = built := by cases built <;> rfl

theorem field_settle (s : Session) (g : Nat) (built : Except Fault Table) :
    (s.settle g built).2.field = s.field := by cases built <;> rfl

/-- Once a build has ended only its own table is kept. -/
theorem kept_settle {s : Session} {g g' : Nat} {built : Except Fault Table} {t : Table} :
    (s.settle g built).2.kept = some (g', t) ↔ g = g' ∧ built = .ok t := by
  cases built with
  | ok t' => simp [settle, keep]
  | error e => simp [settle, forget]

theorem table_of_fresh {s : Session} {r : Source σ} {state : σ} {t : Table}
    (h : s.fresh? (r.generation state).1 = some t) :
    s.table r state = ((.ok t, s), (r.generation state).2) := by
  simp only [table, h]

theorem table_of_stale {s : Session} {r : Source σ} {state : σ}
    (h : s.fresh? (r.generation state).1 = none) :
    s.table r state =
      (s.settle (r.generation state).1
          (ExceptT.run (buildAll r s.field) (r.generation state).2).1,
        (ExceptT.run (buildAll r s.field) (r.generation state).2).2) := by
  simp only [table, h]
  rcases ExceptT.run (buildAll r s.field) (r.generation state).2 with ⟨_ | _, _⟩ <;> rfl

theorem field_table (s : Session) (r : Source σ) (state : σ) :
    (s.table r state).1.2.field = s.field := by
  cases hfresh : s.fresh? (r.generation state).1 with
  | some t => rw [table_of_fresh hfresh]
  | none =>
      rw [table_of_stale hfresh]
      exact field_settle ..

end Session

/-- What was asked before does not matter for a table. -/
theorem answer_buildAll (l : Lexicon) (field : String) (asked : List Question) :
    (ExceptT.run (buildAll l.recorded field) asked).1 = (buildAll l.recorded field).answer :=
  (buildAll_agrees (fun _ => rfl) l.agree_self field asked [] trivial).1.eq

/-- A call answers what the lexicon gives, and keeps the table exactly if there is one. -/
theorem Session.table_of_keepsOwn {s : Session} {calls : List Call} {l : Lexicon}
    (hs : s.KeepsOwn calls) (h : Consistent (calls ++ [.table l])) (asked : List Question) :
    (s.table l.recorded asked).1.1 = (buildAll l.recorded s.field).answer ∧
      ((s.table l.recorded asked).1.2.holdsTable = true ↔
        ∃ t, (buildAll l.recorded s.field).answer = .ok t) := by
  cases hfresh : s.fresh? l.generation with
  | some t =>
      have hkept := fresh?_eq_some.mp hfresh
      -- the table was built from a lexicon of the same generation, which is therefore the same one
      obtain ⟨m, hm, hgeneration, hbuilt⟩ := hs l.generation t hkept
      obtain rfl : m = l :=
        h m l (List.mem_append_left _ hm) (List.mem_append_right _ List.mem_cons_self) hgeneration
      rw [table_of_fresh (r := m.recorded) hfresh, hbuilt]
      refine ⟨rfl, ?_⟩
      simp [holdsTable, hkept]
  | none =>
      rw [table_of_stale (r := l.recorded) hfresh, settle_answer]
      rw [answer_buildAll]
      refine ⟨rfl, ?_⟩
      cases (buildAll l.recorded s.field).answer with
      | ok t => simp [settle, keep, holdsTable]
      | error e => simp [settle, forget, holdsTable]

/-! ## runs of calls -/

theorem sessionAfter_append_singleton (field : String) (calls : List Call) (c : Call) :
    sessionAfter field (calls ++ [c]) = (sessionAfter field calls).call c := by
  simp [sessionAfter]

theorem Session.field_call (s : Session) (c : Call) : (s.call c).field = s.field := by
  cases c with
  | forget => rfl
  | table l => exact s.field_table l.recorded []

/-- One more call keeps the invariant. -/
theorem Session.keepsOwn_call {s : Session} {calls : List Call} (hs : s.KeepsOwn calls) (c : Call) :
    (s.call c).KeepsOwn (calls ++ [c]) := by
  intro g t hkept
  rw [field_call]
  cases c with
  | forget => cases hkept
  | table l =>
      rw [call] at hkept
      cases hfresh : s.fresh? l.generation with
      | some t' =>
          rw [table_of_fresh (r := l.recorded) hfresh] at hkept
          obtain ⟨m, hm, hm'⟩ := hs g t hkept
          exact ⟨m, List.mem_append_left _ hm, hm'⟩
      | none =>
          rw [table_of_stale (r := l.recorded) hfresh, answer_buildAll] at hkept
          exact ⟨l, List.mem_append_right _ List.mem_cons_self, kept_settle.mp hkept⟩

/-- After any calls the field is that of the session, and the invariant holds. -/
theorem keepsOwn_sessionAfter (field : String) (calls : List Call) :
    (sessionAfter field calls).field = field ∧ (sessionAfter field calls).KeepsOwn calls := by
  induction calls using List.reverseRecOn with
  | nil => exact ⟨rfl, fun g t hkept => by cases hkept⟩
  | append_singleton calls c ih =>
      rw [sessionAfter_append_singleton, Session.field_call]
      exact ⟨ih.1, Session.keepsOwn_call ih.2 c⟩

theorem Consistent.mono {xs ys : List Call} (h : Consistent ys) (hsub : xs ⊆ ys) : Consistent xs :=
  fun l m hl hm => h l m (hsub hl) (hsub hm)

theorem askedSinceForget_append_singleton (calls : List Call) (c : Call) :
    askedSinceForget (calls ++ [c]) =
      match c with
      | .table l => askedSinceForget calls ++ [l]
      | .forget => [] := by
  rw [askedSinceForget, List.foldl_append]
  cases c <;> rfl

/-- A table is kept where the last call since it was dropped has given one. -/
theorem holdsTable_sessionAfter (field : String) {calls : List Call} (h : Consistent calls) :
    (sessionAfter field calls).holdsTable = true ↔
      ∃ l, (askedSinceForget calls).getLast? = some l ∧
        ∃ t, (buildAll l.recorded field).answer = .ok t := by
  cases calls using List.reverseRecOn with
  | nil => simp [sessionAfter, askedSinceForget, Session.holdsTable]
  | append_singleton before c =>
      rw [sessionAfter_append_singleton, askedSinceForget_append_singleton]
      cases c with
      | forget => simp [Session.call, Session.forget, Session.holdsTable]
      | table l =>
          obtain ⟨hfield, hs⟩ := keepsOwn_sessionAfter field before
          have hkept := (Session.table_of_keepsOwn hs h []).2
          rw [hfield] at hkept
          simpa [Session.call] using hkept

/-- **Transparency**: in a run of calls on a session every call answers what building the table anew
gives, a table kept from the same generation is handed out without reading it again, and a table is
kept exactly where the last call since it was dropped has given one. -/
theorem transparent_session (field : String) (calls : List Call) (h : Consistent calls) :
    (∀ before l later, calls = before ++ .table l :: later →
      answerAfter field before l = (buildAll l.recorded field).answer ∧
        ((∃ t, (sessionAfter field before).kept = some (l.generation, t)) →
          questionsAfter field before l = [.generation])) ∧
      ∀ before later, calls = before ++ later →
        ((sessionAfter field before).holdsTable = true ↔
          ∃ l, (askedSinceForget before).getLast? = some l ∧
            ∃ t, (buildAll l.recorded field).answer = .ok t) := by
  refine ⟨?_, ?_⟩
  · rintro before l later rfl
    obtain ⟨hfield, hs⟩ := keepsOwn_sessionAfter field before
    have hbefore : Consistent (before ++ [.table l]) := h.mono (by simp)
    have hanswer := (Session.table_of_keepsOwn hs hbefore []).1
    rw [hfield] at hanswer
    refine ⟨hanswer, ?_⟩
    rintro ⟨t, hkept⟩
    have hfresh := Session.fresh?_eq_some.mpr hkept
    rw [questionsAfter, Session.table_of_fresh (r := l.recorded) hfresh]
    rfl
  · rintro before later rfl
    exact holdsTable_sessionAfter field (h.mono (List.subset_append_left before later))

/-- Two documents without terms, as they are in a generation. -/
def withoutTerms (generation : Nat) : Lexicon where
  generation := generation
  total := .ok 2
  documentFrequency _ _ := .ok 0
  collectionFrequency _ _ := .ok 0
  bag _ _ := .ok none

/-- A lexicon that does not answer, of the next generation. -/
def silent : Lexicon :=
  { withoutTerms 1 with total := .error (.lexicon (.reported "no answer")) }

/-- A failure for a new generation drops the table of the old one, which is then built again. -/
theorem transparent_session_silent :
    Consistent [.table (withoutTerms 0), .table silent, .table (withoutTerms 0)] ∧
      (sessionAfter "content" [.table (withoutTerms 0)]).holdsTable = true ∧
      (sessionAfter "content" [.table (withoutTerms 0), .table silent]).holdsTable = false ∧
      ∃ t, answerAfter "content" [.table (withoutTerms 0), .table silent] (withoutTerms 0) =
        .ok t := by
  have hsame : Consistent [.table (withoutTerms 0), .table silent, .table (withoutTerms 0)] := by
    intro l m hl hm hgeneration
    simp only [List.mem_cons, Call.table.injEq, List.not_mem_nil, or_false] at hl hm
    rcases hl with rfl | rfl | rfl <;> rcases hm with rfl | rfl | rfl <;>
      first | rfl | cases hgeneration
  obtain ⟨hcalls, hkept⟩ := transparent_session "content" _ hsame
  refine ⟨hsame, ?_, ?_, ?_⟩
  · exact (hkept [.table (withoutTerms 0)] _ rfl).mpr ⟨withoutTerms 0, rfl, _, rfl⟩
  · refine Bool.eq_false_iff.mpr fun hholds => ?_
    obtain ⟨l, hlast, t, ht⟩ := (hkept [.table (withoutTerms 0), .table silent] _ rfl).mp hholds
    obtain rfl := Option.some.inj hlast
    cases ht
  · exact ⟨_, (hcalls [.table (withoutTerms 0), .table silent] (withoutTerms 0) [] rfl).1⟩

end Concordance.Statistics
