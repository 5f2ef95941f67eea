import Concordance.Workspace

/-!
# Concordance.Proofs.Workspace

What steps with a state ensure, one rule for each that they are made of, and what is printed one
after the other.

* `Console.print_append` — texts that are printed one after the other are printed as one;
* `Ensures.bind` — a step and the one after it;
* `Leaves.bind` — what each step leaves alone is left alone;
* `Job.Keeps.bind` — what holds of the files goes on to hold.
-/

namespace Concordance

open Files (Tree)

variable {σ α β γ : Type}

/-! ## consoles -/

namespace Console

theorem print_empty (c : Console) : c.print "" = (c, .ok ()) := by
  rcases c with ⟨text, _ | room⟩ <;> simp [print]

theorem print_of_unlimited {c : Console} (h : c.room = none) (text : String) :
    c.print text = ({ c with text := c.text ++ text }, .ok ()) := by
  rw [print, h]

/-- Texts that are printed one after the other are printed as one. -/
theorem print_append (c : Console) (a b : String) :
    c.print (a ++ b) =
      match c.print a with
      | (c, .ok ()) => c.print b
      | (c, .error e) => (c, .error e) := by
  obtain ⟨text, _ | room⟩ := c
  · simp [print, String.append_assoc]
  · by_cases hfits : a.length ≤ room
    · have hwhole : a.toList.take room = a.toList := List.take_of_length_le hfits
      have hroom : a.length + b.length ≤ room ↔ b.length ≤ room - a.length := by omega
      simp [print, hfits, hwhole, hroom, List.take_append, String.append_assoc, Nat.sub_sub,
        String.length_toList]
    · have hfull : room - a.length = 0 := by omega
      have hrest : ¬a.length + b.length ≤ room := by omega
      have hnone : room - (a.length + b.length) = 0 := by omega
      simp [print, hfits, hrest, hfull, hnone, List.take_append, String.length_toList]

end Console

/-! ## steps -/

/-- What holds where a step has succeeded, and what holds where it has failed. -/
def Ensures (x : ExceptT Fault (StateM σ) α) (s : σ) (good : α → σ → Prop)
    (bad : Fault → σ → Prop) : Prop :=
  match ExceptT.run x s with
  | (.ok a, s) => good a s
  | (.error e, s) => bad e s

section Ensures

variable {x : ExceptT Fault (StateM σ) α} {f : α → ExceptT Fault (StateM σ) β} {s s' : σ}
  {good good' : α → σ → Prop} {last : β → σ → Prop} {bad bad' : Fault → σ → Prop}

theorem Ensures.of_ok {a : α} (h : Ensures x s good bad) (hrun : ExceptT.run x s = (.ok a, s')) :
    good a s' := by
  rw [Ensures, hrun] at h
  exact h

theorem Ensures.of_error {e : Fault} (h : Ensures x s good bad)
    (hrun : ExceptT.run x s = (.error e, s')) : bad e s' := by
  rw [Ensures, hrun] at h
  exact h

theorem Ensures.mono (h : Ensures x s good bad) (hgood : ∀ a s, good a s → good' a s)
    (hbad : ∀ e s, bad e s → bad' e s) : Ensures x s good' bad' := by
  unfold Ensures at h ⊢
  rcases hrun : ExceptT.run x s with ⟨e | a, s'⟩
  · rw [hrun] at h
    exact hbad e s' h
  · rw [hrun] at h
    exact hgood a s' h

theorem Ensures.and (h : Ensures x s good bad) (h' : Ensures x s good' bad') :
    Ensures x s (fun a s => good a s ∧ good' a s) (fun e s => bad e s ∧ bad' e s) := by
  unfold Ensures at h h' ⊢
  rcases hrun : ExceptT.run x s with ⟨e | a, s'⟩
  all_goals
    rw [hrun] at h h'
    exact ⟨h, h'⟩

theorem Ensures.imp_error (h : Ensures x s good bad) (hbad : ∀ e s, bad e s → bad' e s) :
    Ensures x s good bad' :=
  h.mono (fun _ _ ha => ha) hbad

/-- A step, and then the one that goes on from what it answers and leaves. -/
theorem Ensures.bind (hx : Ensures x s good bad)
    (hf : ∀ a s, good a s → Ensures (f a) s last bad) : Ensures (x >>= f) s last bad := by
  have hrun : ExceptT.run (x >>= f) s =
      (match ExceptT.run x s with
      | (a, s) => ExceptT.bindCont f a s) := rfl
  unfold Ensures at hx
  rw [Ensures, hrun]
  rcases hanswer : ExceptT.run x s with ⟨e | a, s'⟩
  · rw [hanswer] at hx
    exact hx
  · rw [hanswer] at hx
    exact hf a s' hx

theorem Ensures.map {g : α → β} (h : Ensures x s (fun a s => last (g a) s) bad) :
    Ensures (g <$> x) s last bad := by
  rw [map_eq_pure_bind]
  exact h.bind fun _ _ ha => ha

/-- What a step has answered and left is known where it goes on. -/
theorem Ensures.with_run (h : Ensures x s good bad) :
    Ensures x s (fun a s' => good a s' ∧ ExceptT.run x s = (.ok a, s'))
      (fun e s' => bad e s' ∧ ExceptT.run x s = (.error e, s')) := by
  unfold Ensures at h ⊢
  rcases hrun : ExceptT.run x s with ⟨e | a, s'⟩
  · rw [hrun] at h
    exact ⟨h, rfl⟩
  · rw [hrun] at h
    exact ⟨h, rfl⟩

/-- A step that answers leaves some state. -/
theorem exists_run {answer : Except Fault α} (h : (ExceptT.run x s).1 = answer) :
    ∃ s', ExceptT.run x s = (answer, s') := ⟨(ExceptT.run x s).2, Prod.ext h rfl⟩

/-- A step that cannot fail succeeds. -/
theorem Ensures.exists_run (h : Ensures x s good fun _ _ => False) :
    ∃ a s', ExceptT.run x s = (.ok a, s') ∧ good a s' := by
  unfold Ensures at h
  rcases hrun : ExceptT.run x s with ⟨e | a, s'⟩
  · rw [hrun] at h
    exact h.elim
  · rw [hrun] at h
    exact ⟨a, s', rfl, h⟩

/-- A step that cannot succeed fails. -/
theorem Ensures.exists_error (h : Ensures x s (fun _ _ => False) bad) :
    ∃ e s', ExceptT.run x s = (.error e, s') ∧ bad e s' := by
  unfold Ensures at h
  rcases hrun : ExceptT.run x s with ⟨e | a, s'⟩
  · rw [hrun] at h
    exact ⟨e, s', rfl, h⟩
  · rw [hrun] at h
    exact h.elim

/-- Steps that go on in the same way from where one step leads are the same. -/
theorem run_bind_congr {f' : α → ExceptT Fault (StateM σ) β}
    (h : Ensures x s (fun a s => ExceptT.run (f a) s = ExceptT.run (f' a) s) fun _ _ => True) :
    ExceptT.run (x >>= f) s = ExceptT.run (x >>= f') s := by
  have hrun : ∀ f : α → ExceptT Fault (StateM σ) β, ExceptT.run (x >>= f) s =
      (match ExceptT.run x s with
      | (a, s) => ExceptT.bindCont f a s) := fun _ => rfl
  unfold Ensures at h
  rw [hrun, hrun]
  rcases hanswer : ExceptT.run x s with ⟨e | a, s'⟩
  · rfl
  · rw [hanswer] at h
    exact h

theorem ensures_pure {a : α} (h : good a s) :
    Ensures (pure a : ExceptT Fault (StateM σ) α) s good bad := h

theorem ensures_throw {e : Fault} (h : bad e s) :
    Ensures (throw e : ExceptT Fault (StateM σ) α) s good bad := h

theorem ensures_get_bind {f : σ → ExceptT Fault (StateM σ) β} (h : Ensures (f s) s last bad) :
    Ensures (get >>= f) s last bad := h

theorem ensures_modify_bind {change : σ → σ} {f : PUnit → ExceptT Fault (StateM σ) β}
    (h : Ensures (f ⟨⟩) (change s) last bad) : Ensures (modify change >>= f) s last bad := h

end Ensures

/-! ## what is left alone -/

/-- A step that leaves a part of the state as it was, whether it fails or not. -/
def Leaves (part : σ → γ) (x : ExceptT Fault (StateM σ) α) : Prop :=
  ∀ s, part (ExceptT.run x s).2 = part s

section Leaves

variable {part : σ → γ} {x : ExceptT Fault (StateM σ) α} {f : α → ExceptT Fault (StateM σ) β}

theorem Leaves.ensures (h : Leaves part x) (s : σ) :
    Ensures x s (fun _ s' => part s' = part s) (fun _ s' => part s' = part s) := by
  have hs := h s
  unfold Ensures
  rcases hrun : ExceptT.run x s with ⟨e | a, s'⟩ <;> rwa [hrun] at hs

theorem leaves_of_ensures
    (h : ∀ s, Ensures x s (fun _ s' => part s' = part s) (fun _ s' => part s' = part s)) :
    Leaves part x := by
  intro s
  have hs := h s
  unfold Ensures at hs
  rcases hrun : ExceptT.run x s with ⟨e | a, s'⟩ <;> rwa [hrun] at hs

theorem Leaves.bind (hx : Leaves part x) (hf : ∀ a, Leaves part (f a)) : Leaves part (x >>= f) :=
  leaves_of_ensures fun s => ((hx.ensures s).bind fun a s' hs' =>
    ((hf a).ensures s').mono (fun _ _ h => h.trans hs') fun _ _ h => h.trans hs')

/-- A step that is made on a condition, before the others. -/
theorem Leaves.ite_bind {p : Prop} [Decidable p] {y : ExceptT Fault (StateM σ) Unit}
    {f : Unit → ExceptT Fault (StateM σ) β} (hy : Leaves part y) (hf : Leaves part (f ())) :
    Leaves part (if p then y >>= f else f ()) := by
  split
  · exact hy.bind fun _ => hf
  · exact hf

theorem leaves_pure (a : α) : Leaves part (pure a : ExceptT Fault (StateM σ) α) := fun _ => rfl

theorem leaves_throw (e : Fault) : Leaves part (throw e : ExceptT Fault (StateM σ) α) :=
  fun _ => rfl

theorem leaves_get : Leaves part (get : ExceptT Fault (StateM σ) σ) := fun _ => rfl

theorem leaves_modify {change : σ → σ} (h : ∀ s, part (change s) = part s) :
    Leaves part (modify change : ExceptT Fault (StateM σ) PUnit) := h

end Leaves

namespace Job

/-! ## steps of a job -/

theorem run_get_bind (f : Workspace → Job β) (w : Workspace) :
    ExceptT.run (get >>= f) w = ExceptT.run (f w) w := rfl

theorem run_bind_of_ok {x : Job α} {f : α → Job β} {w v : Workspace} {a : α}
    (h : ExceptT.run x w = (.ok a, v)) : ExceptT.run (x >>= f) w = ExceptT.run (f a) v := by
  rw [run_bind, h]

theorem run_bind_of_error {x : Job α} {f : α → Job β} {w v : Workspace} {e : Fault}
    (h : ExceptT.run x w = (.error e, v)) : ExceptT.run (x >>= f) w = (.error e, v) := by
  rw [run_bind, h]

theorem filesFault_eq_ok_iff {answer : Except Files.Refusal α} {a : α} :
    filesFault answer = .ok a ↔ answer = .ok a := by
  cases answer <;> simp [filesFault]

theorem run_print (text : String) (w : Workspace) :
    ExceptT.run (print text) w =
      (filesFault (w.console.print text).2, { w with console := (w.console.print text).1 }) := rfl

/-- Texts that are printed one after the other are printed as one. -/
theorem run_print_append (a b : String) (w : Workspace) :
    ExceptT.run (print (a ++ b)) w = ExceptT.run (print a >>= fun _ => print b) w := by
  rw [run_bind, run_print, run_print, Console.print_append]
  rcases w.console.print a with ⟨console, e | _⟩ <;> rfl

theorem run_ofExcept_bind {answer : Except Fault α} (f : α → Job β) (w : Workspace) :
    ExceptT.run (ofExcept answer >>= f) w =
      match answer with
      | .ok a => ExceptT.run (f a) w
      | .error e => (.error e, w) := by
  rw [run_bind]
  cases answer <;> rfl

section Ensures

variable {x : Job α} {f : α → Job β} {w : Workspace} {good : α → Workspace → Prop}
  {last : β → Workspace → Prop} {bad : Fault → Workspace → Prop}

theorem ensures_inspect {f : Tree → Except Fault α} (hgood : ∀ a, f w.files = .ok a → good a w)
    (hbad : ∀ e, f w.files = .error e → bad e w) : Ensures (inspect f) w good bad := by
  rw [Ensures, run_inspect]
  cases hf : f w.files with
  | error e => exact hbad e hf
  | ok a => exact hgood a hf

theorem ensures_alter {f : Tree → Tree × Except Fault α}
    (hgood : ∀ t a, f w.files = (t, .ok a) → good a { w with files := t })
    (hbad : ∀ t e, f w.files = (t, .error e) → bad e { w with files := t }) :
    Ensures (alter f) w good bad := by
  have hrun : ExceptT.run (alter f) w = ((f w.files).2, { w with files := (f w.files).1 }) := rfl
  rw [Ensures, hrun]
  rcases hf : f w.files with ⟨t, e | a⟩
  · exact hbad t e hf
  · exact hgood t a hf

theorem ensures_ofExcept {answer : Except Fault α} (hgood : ∀ a, answer = .ok a → good a w)
    (hbad : ∀ e, answer = .error e → bad e w) : Ensures (ofExcept answer) w good bad := by
  cases answer with
  | error e => exact hbad e rfl
  | ok a => exact hgood a rfl

theorem ensures_ofExcept_bind {answer : Except Fault α}
    (hgood : ∀ a, answer = .ok a → Ensures (f a) w last bad)
    (hbad : ∀ e, answer = .error e → bad e w) : Ensures (ofExcept answer >>= f) w last bad := by
  have hx : Ensures (ofExcept answer) w (fun a v => Ensures (f a) v last bad) bad :=
    ensures_ofExcept hgood hbad
  exact hx.bind fun _ _ h => h

theorem ensures_inspect_bind {g : Tree → Except Fault α}
    (hgood : ∀ a, g w.files = .ok a → Ensures (f a) w last bad)
    (hbad : ∀ e, g w.files = .error e → bad e w) : Ensures (inspect g >>= f) w last bad := by
  have hx : Ensures (inspect g) w (fun a v => Ensures (f a) v last bad) bad :=
    ensures_inspect hgood hbad
  exact hx.bind fun _ _ h => h

theorem ensures_alter_bind {g : Tree → Tree × Except Fault α}
    (hgood : ∀ t a, g w.files = (t, .ok a) → Ensures (f a) { w with files := t } last bad)
    (hbad : ∀ t e, g w.files = (t, .error e) → bad e { w with files := t }) :
    Ensures (alter g >>= f) w last bad := by
  have hx : Ensures (alter g) w (fun a v => Ensures (f a) v last bad) bad :=
    ensures_alter hgood hbad
  exact hx.bind fun _ _ h => h

end Ensures

/-! ## what holds of the files -/

/-- A job after which the files have a property that they had before, whether it fails or not. -/
def Keeps (K : Tree → Prop) (x : Job α) : Prop := ∀ w, K w.files → K (ExceptT.run x w).2.files

section Keeps

variable {K : Tree → Prop} {x : Job α} {f : α → Job β}

theorem keeps_of_ensures
    (h : ∀ w, K w.files → Ensures x w (fun _ v => K v.files) (fun _ v => K v.files)) : Keeps K x := by
  intro w hw
  have hx := h w hw
  unfold Ensures at hx
  rcases hrun : ExceptT.run x w with ⟨e | a, v⟩ <;> rwa [hrun] at hx

theorem Keeps.ensures (h : Keeps K x) {w : Workspace} (hw : K w.files) :
    Ensures x w (fun _ v => K v.files) (fun _ v => K v.files) := by
  have hx := h w hw
  unfold Ensures
  rcases hrun : ExceptT.run x w with ⟨e | a, v⟩ <;> rwa [hrun] at hx

theorem Keeps.bind (hx : Keeps K x) (hf : ∀ a, Keeps K (f a)) : Keeps K (x >>= f) :=
  keeps_of_ensures fun _ hw => (hx.ensures hw).bind fun a _ hv => (hf a).ensures hv

theorem keeps_pure (a : α) : Keeps K (pure a : Job α) := fun _ hw => hw

theorem keeps_throw (e : Fault) : Keeps K (throw e : Job α) := fun _ hw => hw

theorem keeps_get : Keeps K get := fun _ hw => hw

theorem keeps_ofExcept (answer : Except Fault α) : Keeps K (ofExcept answer) := fun _ hw => hw

theorem keeps_alter {g : Tree → Tree × Except Fault α} (hg : ∀ t, K t → K (g t).1) :
    Keeps K (alter g) :=
  fun w hw => hg w.files hw

theorem keeps_modify {change : Workspace → Workspace} (h : ∀ w, (change w).files = w.files) :
    Keeps K (modify change) := by
  intro w hw
  rw [← h w] at hw
  exact hw

theorem keeps_inspect (g : Tree → Except Fault α) : Keeps K (inspect g) := fun _ hw => hw

theorem keeps_print (text : String) : Keeps K (print text) := fun _ hw => hw

theorem keeps_warn (warning : Warning) : Keeps K (warn warning) := keeps_modify fun _ => rfl

end Keeps

end Job

end Concordance
