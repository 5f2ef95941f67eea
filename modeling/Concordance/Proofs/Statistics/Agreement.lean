import Concordance.Statistics.Session

/-!
# Concordance.Proofs.Statistics.Agreement

Two sources that give the same answers give the same table.  The answers are compared along a
relation between the states of the sources, which every question has to keep; what counts as the
same failure is left open.

* `Agrees.bind` — computations agree when their steps do;
* `build_agrees`, `buildAll_agrees` — tables built from sources that agree.
-/

namespace Concordance

variable {σ τ α β : Type} {E : Fault → Fault → Prop} {P : σ → τ → Prop}

/-- Two answers are alike: the same value, or two failures that count as the same. -/
inductive Alike (E : Fault → Fault → Prop) : Except Fault α → Except Fault α → Prop
  | ok (a : α) : Alike E (.ok a) (.ok a)
  | error {e f : Fault} (h : E e f) : Alike E (.error e) (.error f)

theorem Alike.refl (hE : ∀ e, E e e) (x : Except Fault α) : Alike E x x := by
  cases x with
  | ok a => exact .ok a
  | error e => exact .error (hE e)

theorem Alike.eq {x y : Except Fault α} (h : Alike Eq x y) : x = y := by
  cases h with
  | ok a => rfl
  | error h => rw [h]

theorem Alike.toOption_eq {x y : Except Fault α} (h : Alike E x y) : x.toOption = y.toOption := by
  cases h <;> rfl

/-- Two computations agree: from related states their answers are alike, and the states stay
related. -/
def Agrees (E : Fault → Fault → Prop) (P : σ → τ → Prop) (x : Asking σ α) (y : Asking τ α) : Prop :=
  ∀ s t, P s t →
    Alike E (ExceptT.run x s).1 (ExceptT.run y t).1 ∧ P (ExceptT.run x s).2 (ExceptT.run y t).2

namespace Agrees

theorem pure (a : α) : Agrees E P (pure a) (pure a) := fun _ _ h => ⟨.ok a, h⟩

theorem throw {e f : Fault} (he : E e f) :
    Agrees E P (throw e : Asking σ α) (throw f : Asking τ α) := fun _ _ h => ⟨.error he, h⟩

/-- Computations agree when their steps do. -/
theorem bind {x : Asking σ α} {y : Asking τ α} {f : α → Asking σ β} {g : α → Asking τ β}
    (hx : Agrees E P x y) (hf : ∀ a, Agrees E P (f a) (g a)) : Agrees E P (x >>= f) (y >>= g) := by
  intro s t h
  obtain ⟨halike, hkept⟩ := hx s t h
  rw [Asking.run_bind, Asking.run_bind]
  -- a failure ends both computations, a value is the same for both of their next steps
  generalize ExceptT.run x s = p at halike hkept
  generalize ExceptT.run y t = q at halike hkept
  obtain ⟨a, s'⟩ := p
  obtain ⟨b, t'⟩ := q
  cases halike with
  | ok a => exact hf a s' t' hkept
  | error he => exact ⟨.error he, hkept⟩

end Agrees

/-- Two sources agree on everything that a table is built from. -/
structure Source.Agree (E : Fault → Fault → Prop) (P : σ → τ → Prop) (r : Source σ)
    (q : Source τ) : Prop where
  total : Agrees E P (.ask r.total) (.ask q.total)
  documentFrequency (field term : String) :
    Agrees E P (.ask (r.documentFrequency field term)) (.ask (q.documentFrequency field term))
  collectionFrequency (field term : String) :
    Agrees E P (.ask (r.collectionFrequency field term)) (.ask (q.collectionFrequency field term))
  bag (document : Nat) (field : String) :
    Agrees E P (.ask (r.bag document field)) (.ask (q.bag document field))

/-- Two sources agree on everything that a table of one field is built from. -/
structure Source.AgreeOn (E : Fault → Fault → Prop) (P : σ → τ → Prop) (field : String)
    (r : Source σ) (q : Source τ) : Prop where
  total : Agrees E P (.ask r.total) (.ask q.total)
  documentFrequency (term : String) :
    Agrees E P (.ask (r.documentFrequency field term)) (.ask (q.documentFrequency field term))
  collectionFrequency (term : String) :
    Agrees E P (.ask (r.collectionFrequency field term)) (.ask (q.collectionFrequency field term))
  bag (document : Nat) :
    Agrees E P (.ask (r.bag document field)) (.ask (q.bag document field))

theorem Source.Agree.on {r : Source σ} {q : Source τ} (h : Source.Agree E P r q) (field : String) :
    Source.AgreeOn E P field r q :=
  ⟨h.total, h.documentFrequency field, h.collectionFrequency field, fun d => h.bag d field⟩

/-- Two lexicons whose answers are alike agree, whatever was asked before. -/
theorem Lexicon.agree_recorded {l m : Lexicon} (htotal : Alike E l.total m.total)
    (hdocument : ∀ field term,
      Alike E (l.documentFrequency field term) (m.documentFrequency field term))
    (hcollection : ∀ field term,
      Alike E (l.collectionFrequency field term) (m.collectionFrequency field term))
    (hbag : ∀ document field, Alike E (l.bag document field) (m.bag document field)) :
    Source.Agree E (fun _ _ => True) l.recorded m.recorded where
  total _ _ _ := ⟨htotal, trivial⟩
  documentFrequency field term _ _ _ := ⟨hdocument field term, trivial⟩
  collectionFrequency field term _ _ _ := ⟨hcollection field term, trivial⟩
  bag document field _ _ _ := ⟨hbag document field, trivial⟩

/-- A lexicon agrees with itself, whatever was asked before. -/
theorem Lexicon.agree_self (l : Lexicon) :
    Source.Agree Eq (fun _ _ => True) l.recorded l.recorded :=
  Lexicon.agree_recorded (.refl (fun _ => rfl) _) (fun _ _ => .refl (fun _ => rfl) _)
    (fun _ _ => .refl (fun _ => rfl) _) (fun _ _ => .refl (fun _ => rfl) _)

namespace Statistics

variable {r : Source σ} {q : Source τ} {field : String} (hE : ∀ e, E e e)
  (h : Source.AgreeOn E P field r q) (total : Nat)

include hE h

theorem askDocumentFrequency_agrees (term : String) :
    Agrees E P (askDocumentFrequency r total field term)
      (askDocumentFrequency q total field term) := by
  refine (h.documentFrequency term).bind fun n => ?_
  split
  · exact .throw (hE _)
  · exact .pure n

theorem newEntry_agrees (term : String) :
    Agrees E P (newEntry r total field term) (newEntry q total field term) :=
  (askDocumentFrequency_agrees hE h total term).bind fun _ =>
    (h.collectionFrequency term).bind fun _ => .pure _

namespace Walk

theorem locate_agrees (w : Walk) (term : String) :
    Agrees E P (w.locate r total field term) (w.locate q total field term) := by
  unfold locate
  split
  · exact .pure _
  · exact (newEntry_agrees hE h total term).bind fun _ => .pure _

theorem meet_agrees (d : Nat) (w : Walk) (c : TermCount) :
    Agrees E P (w.meet r total field d c) (w.meet q total field d c) :=
  (locate_agrees hE h total w c.term).bind fun _ => .pure _

theorem meetAll_agrees (d : Nat) (w : Walk) (bag : Bag) :
    Agrees E P (w.meetAll r total field d bag) (w.meetAll q total field d bag) := by
  induction bag generalizing w with
  | nil => exact .pure w
  | cons c rest ih => exact (meet_agrees hE h total d w c).bind ih

theorem visit_agrees (w : Walk) (d : Nat) :
    Agrees E P (w.visit r total field d) (w.visit q total field d) := by
  refine (h.bag d).bind fun bag => ?_
  cases bag with
  | none => exact .pure w
  | some bag => exact meetAll_agrees hE h total d w bag

theorem visitAll_agrees (w : Walk) (d n : Nat) :
    Agrees E P (w.visitAll r total field d n) (w.visitAll q total field d n) := by
  induction n generalizing w d with
  | zero => exact .pure w
  | succ n ih => exact (visit_agrees hE h total w d).bind fun w => ih w (d + 1)

end Walk

theorem build_agrees : Agrees E P (build r total field) (build q total field) :=
  (Walk.visitAll_agrees hE h total {} 0 total).bind fun _ => .pure _

omit total in
/-- Sources that agree on a field give the same table of it over all documents. -/
theorem buildAll_agrees_on : Agrees E P (buildAll r field) (buildAll q field) :=
  h.total.bind fun total => build_agrees hE h total

omit h total in
/-- Sources that agree give the same table over all documents. -/
theorem buildAll_agrees (h : Source.Agree E P r q) (field : String) :
    Agrees E P (buildAll r field) (buildAll q field) :=
  buildAll_agrees_on hE (h.on field)

end Statistics

end Concordance
