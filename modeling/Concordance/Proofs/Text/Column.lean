import Concordance.Text.Column
import Mathlib.Data.List.Basic

/-!
# Concordance.Proofs.Text.Column

Lines of columns read from their end.  A word without spaces is the same whatever the width of its
column, and then the column is known and all in front of it.

* `eq_of_lastColumn` — the last column of a line is known from the line;
* `append_toRight_inj` — and so is what stands in front of it;
* `toRight_inj` — the first column is known where its text does not begin with a space.
-/

namespace Concordance.Text

/-- Two lines that end in a word each, with a space before it. -/
theorem append_word_inj {xs ys cs ds : List Char} (hc : ' ' ∉ cs) (hd : ' ' ∉ ds)
    (h : xs ++ ' ' :: cs = ys ++ ' ' :: ds) : xs = ys ∧ cs = ds := by
  -- where one line began later with its word, that word would have the space of the other one
  obtain ⟨as, rfl, hword⟩ | ⟨as, rfl, hword⟩ := List.append_eq_append_iff.mp h
  all_goals
    cases as with
    | nil => simp_all
    | cons a as =>
        obtain ⟨-, rfl⟩ := List.cons_eq_cons.mp hword
        simp at hc hd

variable {a b t u : String} {v w : Nat}

/-- The spaces of a column may as well stand behind what is in front of it. -/
theorem toList_append_toRight (a t : String) (w : Nat) :
    (a ++ " " ++ toRight w t).toList =
      (a.toList ++ List.replicate (w - t.length) ' ') ++ ' ' :: t.toList := by
  have hshift : ∀ n, [' '] ++ List.replicate n ' ' = List.replicate n ' ' ++ [' '] := fun n => by
    rw [List.singleton_append, ← List.replicate_succ, List.replicate_succ']
  have hspace : " ".toList = [' '] := rfl
  simp only [toRight, String.toList_append, String.toList_ofList]
  rw [hspace, List.append_assoc, ← List.append_assoc [' '], hshift, List.append_assoc,
    List.append_assoc, List.singleton_append]

/-- The last word of a line is known from the line. -/
theorem eq_of_lastColumn (ht : ' ' ∉ t.toList) (hu : ' ' ∉ u.toList)
    (h : a ++ " " ++ toRight v t = b ++ " " ++ toRight w u) : t = u := by
  rw [← String.toList_inj, toList_append_toRight, toList_append_toRight] at h
  exact String.toList_inj.mp (append_word_inj ht hu h).2

/-- What stands in front of the last column is known from the line as well. -/
theorem append_toRight_inj (ht : ' ' ∉ t.toList) (hu : ' ' ∉ u.toList)
    (h : a ++ " " ++ toRight w t = b ++ " " ++ toRight w u) : a = b ∧ t = u := by
  obtain rfl := eq_of_lastColumn ht hu h
  rw [← String.toList_inj, toList_append_toRight, toList_append_toRight] at h
  have hbefore := (append_word_inj ht hu h).1
  exact ⟨String.toList_inj.mp (List.append_cancel_right hbefore), rfl⟩

/-- A text that does not begin with a space is what is behind the spaces of its column. -/
theorem dropWhile_toRight (ht : t.toList.head? ≠ some ' ') (w : Nat) :
    (toRight w t).toList.dropWhile (· == ' ') = t.toList := by
  rw [toRight, String.toList_append, String.toList_ofList, List.dropWhile_append_of_pos (by simp)]
  cases hcs : t.toList with
  | nil => rfl
  | cons c cs =>
      have hc : (c == ' ') = false := by simpa [hcs] using ht
      rw [List.dropWhile_cons, hc]
      rfl

theorem toRight_inj (ht : t.toList.head? ≠ some ' ') (hu : u.toList.head? ≠ some ' ')
    (h : toRight w t = toRight w u) : t = u := by
  rw [← String.toList_inj, ← dropWhile_toRight ht w, h, dropWhile_toRight hu]

end Concordance.Text
