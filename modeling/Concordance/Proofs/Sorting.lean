/-!
# Concordance.Proofs.Sorting

Sorting is stable: elements that may stand in either order keep the order they had.  Elements with
different keys stand in one order only.

* `pairwise_mergeSort_stable` — what holds of any two elements in order still holds of those that
  sorting does not distinguish;
* `pairwise_mergeSort_key` — elements sorted by a key stand by it;
* `eq_of_perm_of_pairwise_key` — with different keys there is one order only.
-/

namespace Concordance

/-- What holds of any two elements in order still holds after sorting of those that sorting does not
distinguish. -/
theorem pairwise_mergeSort_stable {le : α → α → Bool} {r : α → α → Prop} {xs : List α}
    (trans : ∀ a b c, le a b → le b c → le a c) (total : ∀ a b, le a b || le b a)
    (h : xs.Pairwise r) :
    (xs.mergeSort le).Pairwise fun a b => le a b = true ∧ (le b a = true → r a b) := by
  have hsorted := List.pairwise_mergeSort (List.zipIdxLE_trans trans) (List.zipIdxLE_total total)
    xs.zipIdx
  have hperm := List.mergeSort_perm xs.zipIdx (List.zipIdxLE le)
  have hplaces : ((xs.zipIdx.mergeSort (List.zipIdxLE le)).map Prod.snd).Nodup := by
    rw [(hperm.map Prod.snd).nodup_iff, List.zipIdx_map_snd]
    exact List.nodup_range'
  rw [← List.mergeSort_zipIdx, List.pairwise_map]
  refine (hsorted.and (List.pairwise_map.mp hplaces)).imp_of_mem ?_
  rintro ⟨a, i⟩ ⟨b, j⟩ ha hb ⟨hle, hne⟩
  rw [hperm.mem_iff, List.mk_mem_zipIdx_iff_getElem?] at ha hb
  simp only [List.zipIdxLE] at hle
  by_cases hab : le a b = true
  · refine ⟨hab, fun hba => ?_⟩
    have hij : i ≤ j := by simpa [hab, hba] using hle
    obtain ⟨hi, rfl⟩ := List.getElem?_eq_some_iff.mp ha
    obtain ⟨hj, rfl⟩ := List.getElem?_eq_some_iff.mp hb
    exact List.pairwise_iff_getElem.mp h i j hi hj (Nat.lt_of_le_of_ne hij hne)
  · simp [hab] at hle

/-! ## sorting by a key -/

/-- Elements sorted by a key stand by it. -/
theorem pairwise_mergeSort_key (key : α → String) (xs : List α) :
    (xs.mergeSort fun a b => !decide (key b < key a)).Pairwise fun a b => key a ≤ key b := by
  have hle : ∀ a b, (!decide (key b < key a)) = true ↔ key a ≤ key b := fun a b => by
    rw [Bool.not_eq_true', decide_eq_false_iff_not, String.not_lt]
  refine (List.pairwise_mergeSort ?_ ?_ xs).imp fun {a b} hab => (hle a b).mp hab
  · intro a b c hab hbc
    rw [hle] at hab hbc ⊢
    exact String.le_trans hab hbc
  · intro a b
    rw [Bool.or_eq_true, hle, hle]
    exact String.le_total (key a) (key b)

/-- Elements that stand by a key and have different keys stand in strict order. -/
theorem pairwise_lt_of_nodup_key {key : α → String} {xs : List α}
    (h : xs.Pairwise fun a b => key a ≤ key b) (hnodup : (xs.map key).Nodup) :
    xs.Pairwise fun a b => key a < key b :=
  (h.and (List.pairwise_map.mp hnodup)).imp fun {_ _} ⟨hle, hne⟩ =>
    String.not_le.mp fun hge => hne (String.le_antisymm hle hge)

/-- With different keys there is one order only in which elements stand by their keys. -/
theorem eq_of_perm_of_pairwise_key {key : α → String} {xs ys : List α} (h : xs.Perm ys)
    (hxs : xs.Pairwise fun a b => key a ≤ key b) (hys : ys.Pairwise fun a b => key a < key b) :
    xs = ys := by
  have hnodup : (xs.map key).Nodup :=
    (h.map key).nodup_iff.mpr (List.pairwise_map.mpr (hys.imp String.ne_of_lt))
  exact h.eq_of_pairwise (fun a b _ _ hab hba => absurd hba (String.lt_asymm hab))
    (pairwise_lt_of_nodup_key hxs hnodup) hys

end Concordance
