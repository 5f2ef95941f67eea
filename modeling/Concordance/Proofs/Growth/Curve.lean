import Concordance.Proofs.Growth.Tracker

/-!
# Concordance.Proofs.Growth.Curve

The growth of a document whose terms are read one after the other: after each of them one point,
with the number of terms so far and of the distinct ones among them.

* `toList_points_ofTerms` — the points in closed form;
* `gained_extend` — what a tracker holds that was given more documents.
-/

namespace Concordance.Growth

/-- The points of terms: how many there are up to each of them, and how many distinct ones. -/
def growthPoints (terms : List String) : List Point :=
  (List.range terms.length).map fun k =>
    ⟨(k + 1).toUInt64, (terms.take (k + 1)).toFinset.card.toUInt64⟩

theorem length_growthPoints (terms : List String) : (growthPoints terms).length = terms.length := by
  simp [growthPoints]

theorem growthPoints_append_singleton (terms : List String) (term : String) :
    growthPoints (terms ++ [term]) = growthPoints terms ++
      [⟨(terms.length + 1).toUInt64, (terms ++ [term]).toFinset.card.toUInt64⟩] := by
  have hbefore : ∀ k ∈ List.range terms.length,
      (terms ++ [term]).take (k + 1) = terms.take (k + 1) := by
    intro k hk
    exact List.take_append_of_le_length (List.mem_range.mp hk)
  have hlast : (terms ++ [term]).take (terms.length + 1) = terms ++ [term] := by
    rw [List.take_of_length_le]
    simp
  have hlength : (terms ++ [term]).length = terms.length + 1 := by simp
  rw [growthPoints, hlength, List.range_succ, List.map_append, List.map_singleton, hlast]
  congr 1
  refine List.map_congr_left fun k hk => ?_
  rw [hbefore k hk]

/-- The last point counts all distinct terms. -/
theorem vocabulary_getLast?_growthPoints (terms : List String) :
    ((growthPoints terms).getLast?.map (·.vocabulary)).getD 0 = terms.toFinset.card.toUInt64 := by
  induction terms using List.reverseRecOn with
  | nil => rfl
  | append_singleton terms term _ => simp [growthPoints_append_singleton]

/-! ## the growth of terms -/

/-- The growth of a document whose terms were read. -/
def Curve.ofTerms (terms : List String) : Curve := terms.foldl Curve.addToken {}

theorem Curve.ofTerms_append_singleton (terms : List String) (term : String) :
    Curve.ofTerms (terms ++ [term]) = (Curve.ofTerms terms).addToken term := by
  simp [Curve.ofTerms]

/-- Each term is given and then has its point. -/
theorem Tells.ofTerms (terms : List String) :
    Tells (terms.flatMap fun t => [.term t, .point]) (Curve.ofTerms terms) := by
  induction terms using List.reverseRecOn with
  | nil => exact .empty
  | append_singleton terms term ih =>
      have htoken := (ih.term term).point
      rw [List.append_assoc] at htoken
      rw [Curve.ofTerms_append_singleton, List.flatMap_append, List.flatMap_singleton]
      exact htoken

theorem vocabulary_flatMap (terms : List String) :
    vocabulary (terms.flatMap fun t => [.term t, .point]) = terms.toFinset.card := by
  have hterms : (terms.flatMap fun t => [Event.term t, .point]).filterMap Event.term? = terms := by
    induction terms with
    | nil => rfl
    | cons term terms ih => simp [List.filterMap_cons, ih]
  rw [vocabulary, hterms]

theorem size_terms_ofTerms (terms : List String) :
    (Curve.ofTerms terms).terms.size = terms.toFinset.card := by
  rw [(Tells.ofTerms terms).size_terms, vocabulary_flatMap]

/-- The points of terms that were read. -/
theorem toList_points_ofTerms (terms : List String) :
    (Curve.ofTerms terms).points.toList = growthPoints terms := by
  induction terms using List.reverseRecOn with
  | nil => rfl
  | append_singleton terms term ih =>
      have hsize : (Curve.ofTerms terms).points.size = terms.length := by
        have hlength := congrArg List.length ih
        rwa [length_growthPoints, Array.length_toList] at hlength
      have hvocabulary := size_terms_ofTerms (terms ++ [term])
      rw [Curve.ofTerms_append_singleton, Curve.addToken, Curve.addPoint] at hvocabulary ⊢
      have hpoints :
          ((Curve.ofTerms terms).addTerm term).2.points = (Curve.ofTerms terms).points := by
        unfold Curve.addTerm
        split <;> rfl
      rw [growthPoints_append_singleton, Array.toList_push, Curve.nextPoint, hpoints, ih, hsize,
        hvocabulary]

/-! ## documents with their terms -/

/-- A tracker with more documents, each with the terms that were read of it. -/
def Tracker.extend (t : Tracker) (termss : List (List String)) : Tracker :=
  ⟨t.documents ++ (termss.map Curve.ofTerms).toArray⟩

theorem Tracker.extend_nil (t : Tracker) : t.extend [] = t := by simp [Tracker.extend]

theorem Tracker.extend_extend (t : Tracker) (xs ys : List (List String)) :
    (t.extend xs).extend ys = t.extend (xs ++ ys) := by
  simp [Tracker.extend, Array.append_assoc]

/-- Terms that are read of a document leave all others. -/
theorem Tracker.addTokens_of_lt {t : Tracker} {d : Nat} (h : d < t.documents.size)
    (terms : List String) :
    t.addTokens d terms = .ok ⟨t.documents.set d (terms.foldl Curve.addToken t.documents[d])⟩ := by
  induction terms generalizing t with
  | nil => simp [Tracker.addTokens]
  | cons term terms ih =>
      have hset : d < (t.documents.set d (t.documents[d].addToken term)).size := by simpa using h
      have hrest := ih (t := ⟨t.documents.set d (t.documents[d].addToken term)⟩) hset
      simp only [Array.getElem_set_self, Array.set_set] at hrest
      rw [Tracker.addTokens, Tracker.addToken_of_lt h]
      exact hrest

/-- One more document, of which terms are read. -/
theorem Tracker.addTokens_addDocument (t : Tracker) (terms : List String) :
    t.addDocument.2.addTokens t.addDocument.1 terms = .ok (t.extend [terms]) := by
  have hlt : t.count < (t.documents.push {}).size := by simp [Tracker.count]
  have htokens := Tracker.addTokens_of_lt (t := ⟨t.documents.push {}⟩) hlt terms
  rw [Tracker.addDocument]
  refine htokens.trans ?_
  simp [Tracker.extend, Tracker.count, Curve.ofTerms, Array.set_push]

/-- A tracker has gained documents of which terms were read, and those that it had before are as
they were. -/
structure Tracker.Gained (termss : List (List String)) (before after : Tracker) : Prop where
  count : after.count = before.count + termss.length
  kept : ∀ d < before.count, after.documents[d]? = before.documents[d]?
  points : ∀ i terms, termss[i]? = some terms →
    after.points (before.count + i) = .ok (growthPoints terms)
  vocabularySize : ∀ i terms, termss[i]? = some terms →
    after.vocabularySize (before.count + i) = .ok terms.toFinset.card

theorem Tracker.gained_extend (t : Tracker) (termss : List (List String)) :
    Tracker.Gained termss t (t.extend termss) := by
  have hcurve : ∀ i terms, termss[i]? = some terms →
      (t.extend termss).curve (t.count + i) = .ok (Curve.ofTerms terms) := by
    intro i terms hi
    have hdocument : (t.extend termss).documents[t.count + i]? = some (Curve.ofTerms terms) := by
      rw [Tracker.extend, Tracker.count, Array.getElem?_append_right (Nat.le_add_right _ _)]
      simp [hi]
    rw [Tracker.curve, hdocument]
  refine ⟨by simp [Tracker.extend, Tracker.count], fun d hd => ?_, fun i terms hi => ?_,
    fun i terms hi => ?_⟩
  · exact Array.getElem?_append_left hd
  · rw [Tracker.points, hcurve i terms hi, ← toList_points_ofTerms]
    rfl
  · rw [Tracker.vocabularySize, hcurve i terms hi, ← size_terms_ofTerms]
    rfl

/-- A tracker that was new has exactly the growth of the documents it has gained. -/
theorem Tracker.Gained.curves_eq {termss : List (List String)} {after : Tracker}
    (h : Tracker.Gained termss {} after) : after.curves = termss.map growthPoints := by
  have hcount : after.documents.size = termss.length := by
    simpa [Tracker.count] using h.count
  refine List.ext_getElem (by simp [Tracker.curves, hcount]) fun i hi hi' => ?_
  have hterms : i < termss.length := by simpa using hi'
  have hdocument : i < after.documents.size := hcount ▸ hterms
  have hpoints := h.points i termss[i] (List.getElem?_eq_getElem hterms)
  have hzero : Tracker.count {} + i = i := Nat.zero_add i
  rw [hzero, Tracker.points, Tracker.curve, Array.getElem?_eq_getElem hdocument] at hpoints
  simpa [Tracker.curves] using Except.ok.inj hpoints

end Concordance.Growth
