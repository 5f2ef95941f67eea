import Concordance.Query.Explanation
import Mathlib.Data.List.Nodup
import Mathlib.Data.List.Perm.Basic

/-!
# Concordance.Proofs.Query.Hits

Which documents a query finds, and for which of them there is an explanation, whatever the scores
are.

* `search_hits` — the hits are the documents that match, as many as the limit allows;
* `explainAt_ok_iff` — the document with an ordinal has an explanation if it matches;
* `matching_text` — a term of a field matches the documents that have it.
-/

namespace Concordance.Query

open Index (Entry Segment)

/-! ## searching -/

/-- The documents that match a query, in the order in which they were added. -/
def matching (segments : List Segment) (q : Query) : List Entry :=
  segments.flatten.filter fun e => (score e 1.0 (weigh segments.flatten q)).isSome

theorem map_filterMap_hit {α : Type} (f : Hit → α) (g : Entry → α) (found : Entry → Option Float32)
    (hfg : ∀ e s, f ⟨e.ordinal, s, e.title⟩ = g e) (es : List Entry) :
    (es.filterMap fun e => (found e).map fun s => (⟨e.ordinal, s, e.title⟩ : Hit)).map f =
      (es.filter fun e => (found e).isSome).map g := by
  induction es with
  | nil => rfl
  | cons e es ih => cases h : found e <;> simp [h, ih, hfg]

/-- **Hits**: a query finds the documents that match it, each once, up to the limit. -/
theorem search_hits (segments : List Segment) (q : Query) :
    ∃ hits : List Hit, (∀ limit, search segments q limit = hits.take limit) ∧
      (hits.map fun h => (h.ordinal, h.title)).Perm
        ((matching segments q).map fun e => (e.ordinal, e.title)) := by
  refine ⟨_, fun _ => rfl, ?_⟩
  rw [matching, ← map_filterMap_hit (fun h => (h.ordinal, h.title)) _ _ fun _ _ => rfl]
  exact (List.mergeSort_perm _ _).map _

/-! ## explaining -/

theorem map_fst_flatMap_zipIdx (segments : List Segment) :
    (segments.flatMap List.zipIdx).map Prod.fst = segments.flatten := by
  rw [List.map_flatMap]
  simp [← List.flatMap_id]

theorem mem_flatten_of_mem_zipIdx {segments : List Segment} {e : Entry} {position : Nat}
    (h : (e, position) ∈ segments.flatMap List.zipIdx) : e ∈ segments.flatten := by
  rw [← map_fst_flatMap_zipIdx]
  exact List.mem_map_of_mem h

/-- The document with an ordinal has an explanation if it is there and matches. -/
theorem explainAt_ok_iff {segments : List Segment}
    (hnodup : (segments.flatten.map Entry.ordinal).Nodup) (q : Query) (ordinal : Nat) :
    (∃ text, explainAt segments q ordinal = .ok text) ↔
      ∃ e ∈ segments.flatten, e.ordinal = ordinal ∧
        (explain e (weigh segments.flatten q)).isSome = true := by
  unfold explainAt
  cases hlocate : locate segments ordinal with
  | none =>
      refine ⟨fun ⟨_, h⟩ => (by cases h), fun ⟨e, he, hordinal, _⟩ => ?_⟩
      rw [← map_fst_flatMap_zipIdx] at he
      obtain ⟨x, hx, rfl⟩ := List.mem_map.mp he
      have hne := List.find?_eq_none.mp hlocate x hx
      exact absurd (decide_eq_true hordinal) hne
  | some x =>
      obtain ⟨e, position⟩ := x
      have he := mem_flatten_of_mem_zipIdx (List.mem_of_find?_eq_some hlocate)
      have hfound := List.find?_some hlocate
      have hordinal : e.ordinal = ordinal := by simpa using hfound
      dsimp only
      cases hexplain : explain e (weigh segments.flatten q) with
      | some d => exact ⟨fun _ => ⟨e, he, hordinal, by simp [hexplain]⟩, fun _ => ⟨_, rfl⟩⟩
      | none =>
          refine ⟨fun ⟨_, h⟩ => (by cases h), fun ⟨e', he', hordinal', hsome⟩ => ?_⟩
          obtain rfl := List.inj_on_of_nodup_map hnodup he' he (hordinal'.trans hordinal.symm)
          rw [hexplain] at hsome
          cases hsome

/-! ## terms -/

theorem occurrences_text_ne_zero_iff {field : TextField} {token : String} {e : Entry} :
    (Term.text field token).occurrences e ≠ 0 ↔ token ∈ e.terms field := by
  cases field with
  | bib => simp [Term.occurrences]
  | title | author | content => simp [Term.occurrences, List.count_eq_zero]

section Term

variable (t : Term) (e : Entry) (entries : List Entry)

theorem isSome_score_term (boost : Float32) :
    (score e boost (weigh entries (.term t))).isSome = true ↔ t.occurrences e ≠ 0 := by
  rw [weigh, score]
  cases h : t.occurrences e <;> simp

theorem isSome_explain_term :
    (explain e (weigh entries (.term t))).isSome = true ↔ t.occurrences e ≠ 0 := by
  rw [weigh, explain]
  cases h : t.occurrences e <;> simp

end Term

/-- A term of a field matches the documents that have it. -/
theorem matching_text (segments : List Segment) (field : TextField) (token : String) :
    matching segments (.term (.text field token)) =
      segments.flatten.filter fun e => token ∈ e.terms field := by
  refine List.filter_congr fun e _ => ?_
  rw [Bool.eq_iff_iff, isSome_score_term, occurrences_text_ne_zero_iff, decide_eq_true_eq]

/-- No document matches the query that asks for nothing. -/
theorem matching_nothing (segments : List Segment) : matching segments nothing = [] :=
  List.filter_eq_nil_iff.mpr fun e _ => by simp [score_nothing]

end Concordance.Query
