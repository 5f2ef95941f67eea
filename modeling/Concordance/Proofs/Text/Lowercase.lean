import Concordance.Text.Lowercase

/-!
# Concordance.Proofs.Text.Lowercase

The two ways to lowercase a word, as a whole and one character at a time.  They differ in the
capital sigma only, which looks at what stands around it in a whole word.

* `lowercase_eq_iff` — both give the same unless a capital sigma ends the word.
-/

namespace Concordance.Text

/-- Behind some characters, given in reverse, a capital sigma ends a word: there is something with a
case in front of it and nothing with a case behind it. -/
def HasFinalSigmaAfter (before cs : List Char) : Prop :=
  ∃ xs ys, cs = xs ++ capitalSigma :: ys ∧ meetsCased (xs.reverse ++ before) = true ∧
    meetsCased ys = false

/-- A capital sigma ends the word. -/
def HasFinalSigma (word : List Char) : Prop := HasFinalSigmaAfter [] word

theorem hasFinalSigmaAfter_cons {before cs : List Char} {c : Char} :
    HasFinalSigmaAfter before (c :: cs) ↔
      (c = capitalSigma ∧ meetsCased before = true ∧ meetsCased cs = false) ∨
        HasFinalSigmaAfter (c :: before) cs := by
  constructor
  · rintro ⟨xs, ys, hcs, hbefore, hafter⟩
    cases xs with
    | nil =>
        obtain ⟨rfl, rfl⟩ := List.cons.inj hcs
        exact .inl ⟨rfl, hbefore, hafter⟩
    | cons x xs =>
        obtain ⟨rfl, rfl⟩ := List.cons.inj hcs
        exact .inr ⟨xs, ys, rfl, by simpa using hbefore, hafter⟩
  · rintro (⟨rfl, hbefore, hafter⟩ | ⟨xs, ys, rfl, hbefore, hafter⟩)
    · exact ⟨[], cs, rfl, hbefore, hafter⟩
    · exact ⟨c :: xs, ys, rfl, by simpa using hbefore, hafter⟩

theorem lowerChar_capitalSigma : lowerChar capitalSigma = ['σ'] := by decide

/-- The rest of a word is lowercased character by character unless a capital sigma in it ends the
word. -/
theorem lowercaseAfter_eq_iff (before cs : List Char) :
    lowercaseAfter before cs = lowerChars cs ↔ ¬HasFinalSigmaAfter before cs := by
  induction cs generalizing before with
  | nil => simp [lowercaseAfter, lowerChars, HasFinalSigmaAfter]
  | cons c cs ih =>
      have hchars : lowerChars (c :: cs) = lowerChar c ++ lowerChars cs := List.flatMap_cons
      rw [lowercaseAfter, hchars, hasFinalSigmaAfter_cons, not_or, ← ih]
      by_cases hc : c = capitalSigma
      · subst hc
        cases hbefore : meetsCased before <;> cases hafter : meetsCased cs <;>
          simp [lowerChar_capitalSigma, finalSigma]
      · simp [hc]

/-- Both ways give the same unless a capital sigma ends the word. -/
theorem lowercase_eq_iff (word : String) :
    lowercase word = String.ofList (lowerChars word.toList) ↔ ¬HasFinalSigma word.toList := by
  rw [lowercase, HasFinalSigma, ← lowercaseAfter_eq_iff]
  exact ⟨fun h => by simpa using congrArg String.toList h, fun h => by rw [h]⟩

end Concordance.Text
