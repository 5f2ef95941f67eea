import Concordance.Index.Basic
import Concordance.Proofs.Index.View
import Concordance.Proofs.Statistics.Agreement

/-!
# Concordance.Proofs.Index.Source

An index answers what its published segments say, whichever views have been made of them.

* `agree_source` — the answers of an index are those of the published segments, and answering only
  makes views of them;
* `agree_visible` — the same documents in other segments are answered alike.
-/

namespace Concordance.Index

/-- The view that segments give of the field of a name. -/
def viewOf (segments : List Segment) (name : String) : Except Fault View :=
  (textField name).bind (View.ofSegments segments)

/-- What segments say. -/
def visible (segments : List Segment) (generation : Nat) : Lexicon where
  generation := generation
  total := .ok segments.flatten.length
  documentFrequency name term :=
    (textField name).map fun field => documentFrequency segments field term
  collectionFrequency name term :=
    (viewOf segments name).bind fun v => .ok (v.collection.getD term 0)
  bag document name := (viewOf segments name).bind fun v => v.bag document

/-! ## views kept -/

/-- The views kept are those of the published segments. -/
def Coherent (i : Index) : Prop :=
  ∀ (name : String) (v : View), i.views[name]? = some v → viewOf i.published name = .ok v

/-- What reads may leave of an index: the same but for views, which are those of the segments. -/
structure AfterReads (i j : Index) : Prop where
  same : ∃ views, j = { i with views := views }
  coherent : j.Coherent

theorem Coherent.afterReads {i : Index} (h : i.Coherent) : i.AfterReads i := ⟨⟨i.views, rfl⟩, h⟩

theorem AfterReads.published {i j : Index} (h : i.AfterReads j) : j.published = i.published := by
  obtain ⟨views, rfl⟩ := h.same
  rfl

theorem AfterReads.generation {i j : Index} (h : i.AfterReads j) :
    j.generation = i.generation := by
  obtain ⟨views, rfl⟩ := h.same
  rfl

/-- One more view that the segments give. -/
theorem AfterReads.insert {i j : Index} (h : i.AfterReads j) {name : String} {v : View}
    (hv : viewOf j.published name = .ok v) :
    i.AfterReads { j with views := j.views.insert name v } where
  same := by
    obtain ⟨views, rfl⟩ := h.same
    exact ⟨views.insert name v, rfl⟩
  coherent n w hw := by
    rw [Std.HashMap.getElem?_insert] at hw
    split at hw
    · next hn =>
      obtain rfl := eq_of_beq hn
      obtain rfl := Option.some.inj hw
      exact hv
    · exact h.coherent n w hw

/-- A view is what the segments give, kept or not. -/
theorem AfterReads.view {i j : Index} (h : i.AfterReads j) (name : String) :
    (j.view name).1 = viewOf i.published name ∧ i.AfterReads (j.view name).2 := by
  rw [← h.published]
  -- a view that is kept, no such field, a field that gives no view, and a view newly made
  unfold Index.view
  split
  · next v hv => exact ⟨(h.coherent name v hv).symm, h⟩
  · split
    · next e he => exact ⟨by simp [viewOf, he, Except.bind], h⟩
    · next field hfield =>
      have hview : viewOf j.published name = View.ofSegments j.published field := by
        simp [viewOf, hfield, Except.bind]
      split
      · next e he => exact ⟨by rw [hview, he], h⟩
      · next v hv => exact ⟨by rw [hview, hv], h.insert (hview.trans hv)⟩

theorem AfterReads.ofView {i j : Index} (h : i.AfterReads j) (name : String)
    (f : View → Except Fault α) :
    Alike Eq (Index.ofView name f j).1 ((viewOf i.published name).bind f) ∧
      i.AfterReads (Index.ofView name f j).2 := by
  obtain ⟨hview, hafter⟩ := h.view name
  rw [← hview]
  exact ⟨.refl (fun _ => rfl) _, hafter⟩

/-- An index answers what its published segments say, and answering only makes views of them. -/
theorem agree_source (i : Index) (generation : Nat) :
    Source.Agree Eq (fun j (_ : List Question) => i.AfterReads j) source
      (visible i.published generation).recorded where
  total j _ h := ⟨by rw [← h.published]; exact .ok _, h⟩
  documentFrequency name term j _ h :=
    ⟨by rw [← h.published]; exact .refl (fun _ => rfl) _, h⟩
  collectionFrequency name term j _ h := h.ofView name fun v => .ok (v.collection.getD term 0)
  bag document name j _ h := h.ofView name fun v => v.bag document

/-! ## the same documents in other segments -/

variable {segments others : List Segment}

/-- What is answered from views that answer alike is alike. -/
theorem alike_viewOf (h : segments.flatten = others.flatten)
    (hnodup : (segments.flatten.map Entry.ordinal).Nodup) (name : String)
    {f : View → Except Fault α}
    (hf : ∀ v w : View, (∀ d, v.bag d = w.bag d) →
      (∀ term, v.collection.getD term 0 = w.collection.getD term 0) → f v = f w) :
    Alike (fun _ _ => True) ((viewOf segments name).bind f) ((viewOf others name).bind f) := by
  simp only [viewOf]
  cases textField name with
  | error e => exact .error trivial
  | ok field =>
      obtain ⟨e, e', he, he'⟩ | ⟨v, w, hv, hw, hbag, hcollection⟩ :=
        View.ofSegments_congr field h hnodup
      · simp only [Except.bind, he, he']
        exact .error trivial
      · simp only [Except.bind, hv, hw, hf v w hbag hcollection]
        exact .refl (fun _ => trivial) _

/-- The same documents in other segments are answered alike. -/
theorem agree_visible (h : segments.flatten = others.flatten)
    (hnodup : (segments.flatten.map Entry.ordinal).Nodup) (g g' : Nat) :
    Source.Agree (fun _ _ => True) (fun _ _ => True) (visible segments g).recorded
      (visible others g').recorded := by
  refine Lexicon.agree_recorded ?_ (fun name term => ?_) (fun name term => ?_) fun d name => ?_
  · simp only [visible, h]
    exact .ok _
  · simp only [visible, documentFrequency, h]
    exact .refl (fun _ => trivial) _
  · exact alike_viewOf h hnodup name fun v w _ hcollection => by rw [hcollection]
  · exact alike_viewOf h hnodup name fun v w hbag _ => hbag d

end Concordance.Index
