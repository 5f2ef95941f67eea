import Concordance.Fault

/-!
# Concordance.Lexicon.Basic

Where term statistics come from: a lexicon answers how many documents there are, in how many of them
a term occurs and how often in all of them, and which terms a document has.  Any of these answers
can be a failure.

The answers come from a source.  A source has a state, because answering may leave something worked
out for the next question.  A lexicon that stays as it is makes a source that only keeps the
questions, so that it can be told afterwards what was read.

* `Asking.run_bind` — questions are asked one after the other up to the first failure.
-/

namespace Concordance

/-- A term of a document and how often it occurs there. -/
structure TermCount where
  term : String
  frequency : UInt64
  deriving DecidableEq, Repr

/-- The terms of one field of a document, with their counts. -/
abbrev Bag := List TermCount

/-- The answers of a lexicon that stays as it is. -/
structure Lexicon where
  /-- Which state of the documents the other answers are about. -/
  generation : Nat
  /-- How many documents there are. -/
  total : Except Fault Nat
  /-- In how many documents a field holds a term. -/
  documentFrequency : (field term : String) → Except Fault UInt64
  /-- How often a field holds a term in all documents together. -/
  collectionFrequency : (field term : String) → Except Fault UInt64
  /-- The terms of a field of a document; a document may have none. -/
  bag : (document : Nat) → (field : String) → Except Fault (Option Bag)

/-- A lexicon with a state, which any answer may change. -/
structure Source (σ : Type) where
  generation : σ → Nat × σ
  total : σ → Except Fault Nat × σ
  documentFrequency : (field term : String) → σ → Except Fault UInt64 × σ
  collectionFrequency : (field term : String) → σ → Except Fault UInt64 × σ
  bag : (document : Nat) → (field : String) → σ → Except Fault (Option Bag) × σ

/-- A computation that asks a source.  What the source has worked out stays also where it fails. -/
abbrev Asking (σ α : Type) := ExceptT Fault (StateM σ) α

namespace Asking

/-- Ask for one answer. -/
def ask (f : σ → Except Fault α × σ) : Asking σ α := ExceptT.mk f

@[simp] theorem run_ask (f : σ → Except Fault α × σ) (s : σ) : ExceptT.run (ask f) s = f s := rfl

@[simp] theorem run_pure (a : α) (s : σ) : ExceptT.run (pure a : Asking σ α) s = (.ok a, s) := rfl

/-- Questions are asked one after the other up to the first failure. -/
theorem run_bind (x : Asking σ α) (f : α → Asking σ β) (s : σ) :
    ExceptT.run (x >>= f) s =
      (match ExceptT.run x s with
      | (.ok a, s) => ExceptT.run (f a) s
      | (.error e, s) => (.error e, s)) := by
  change (match ExceptT.run x s with
    | (a, s) => ExceptT.bindCont f a s) = _
  rcases ExceptT.run x s with ⟨_ | _, _⟩ <;> rfl

/-- What two steps answer together they answer one after the other. -/
theorem run_bind_ok {x : Asking σ α} {f : α → Asking σ β} {s t : σ} {b : β}
    (h : ExceptT.run (x >>= f) s = (.ok b, t)) :
    ∃ a u, ExceptT.run x s = (.ok a, u) ∧ ExceptT.run (f a) u = (.ok b, t) := by
  rw [run_bind] at h
  rcases hx : ExceptT.run x s with ⟨e | a, u⟩
  · rw [hx] at h
    cases h
  · rw [hx] at h
    exact ⟨a, u, rfl, h⟩

end Asking

/-! ## questions kept -/

/-- A question to a lexicon. -/
inductive Question
  | generation
  | total
  | documentFrequency (field term : String)
  | collectionFrequency (field term : String)
  | bag (document : Nat) (field : String)
  deriving DecidableEq, Repr

/-- A lexicon as a source that keeps the questions, the last one first. -/
def Lexicon.recorded (l : Lexicon) : Source (List Question) where
  generation asked := (l.generation, .generation :: asked)
  total asked := (l.total, .total :: asked)
  documentFrequency field term asked :=
    (l.documentFrequency field term, .documentFrequency field term :: asked)
  collectionFrequency field term asked :=
    (l.collectionFrequency field term, .collectionFrequency field term :: asked)
  bag document field asked := (l.bag document field, .bag document field :: asked)

namespace Asking

/-- The answer of a computation. -/
def answer (x : Asking (List Question) α) : Except Fault α := (ExceptT.run x []).1

/-- The questions of a computation, in the order asked. -/
def questions (x : Asking (List Question) α) : List Question := (ExceptT.run x []).2.reverse

end Asking

end Concordance
