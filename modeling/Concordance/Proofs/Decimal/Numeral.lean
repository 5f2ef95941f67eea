import Concordance.Decimal.Numeral
import Mathlib.Tactic.Common

/-!
# Concordance.Proofs.Decimal.Numeral

Numerals that were written are read back.

* `readDigits_eq_ofDigitChars` — digits stand for their number, as long as it is one of 64 bits;
* `readNumeral_of_writes` — a number is read from its digits, also after zeros and a plus sign.
-/

namespace Concordance.Decimal

theorem digit?_of_isDigit {c : Char} (h : c.isDigit = true) :
    digit? 10 c = some (c.toNat - '0'.toNat) := by
  have hc : '0' ≤ c ∧ c ≤ '9' := by
    rw [Char.isDigit, Bool.and_eq_true, decide_eq_true_eq, decide_eq_true_eq] at h
    exact h
  have hlt : c.toNat - '0'.toNat < 10 := by
    have hle : c.toNat ≤ '9'.toNat := hc.2
    have hnine : '9'.toNat = '0'.toNat + 9 := rfl
    omega
  simp only [digit?, if_pos hc, Option.filter_some, decide_eq_true hlt, if_true]

theorem le_ofDigitChars (ds : List Char) (value : Nat) : value ≤ Nat.ofDigitChars 10 ds value := by
  induction ds generalizing value with
  | nil => exact Nat.le_refl _
  | cons d ds ih =>
      rw [Nat.ofDigitChars_cons]
      exact Nat.le_trans (by omega) (ih _)

/-- Digits stand for their number, as long as it is one of 64 bits. -/
theorem readDigits_eq_ofDigitChars {ds : List Char} {value : Nat}
    (h : ∀ d ∈ ds, d.isDigit = true) (hlimit : Nat.ofDigitChars 10 ds value < wordLimit) :
    readDigits 10 value ds = .ok (Nat.ofDigitChars 10 ds value) := by
  induction ds generalizing value with
  | nil => rfl
  | cons d ds ih =>
      rw [Nat.ofDigitChars_cons] at hlimit ⊢
      have hnext := Nat.lt_of_le_of_lt (le_ofDigitChars ds _) hlimit
      rw [readDigits, pushDigit, digit?_of_isDigit (h d List.mem_cons_self)]
      simp only [if_pos hnext]
      exact ih (fun d' hd' => h d' (List.mem_cons_of_mem d hd')) hlimit

theorem isDigit_of_mem_digits {n : Nat} {c : Char} (h : c ∈ digits n) : c.isDigit = true :=
  Nat.isDigit_of_mem_toDigits (by decide) (by decide) h

theorem digits_ne_nil (n : Nat) : digits n ≠ [] := Nat.toDigits_ne_nil

/-- A number and characters that write it: its digits, maybe after zeros, maybe after a plus
sign. -/
inductive Writes (n : Nat) : List Char → Prop
  | unsigned (zeros : Nat) : Writes n (List.replicate zeros '0' ++ digits n)
  | signed (zeros : Nat) : Writes n ('+' :: (List.replicate zeros '0' ++ digits n))

theorem ofDigitChars_zeros (zeros : Nat) (ds : List Char) :
    Nat.ofDigitChars 10 (List.replicate zeros '0' ++ ds) 0 = Nat.ofDigitChars 10 ds 0 := by
  induction zeros with
  | zero => rfl
  | succ zeros ih =>
      rw [List.replicate_succ, List.cons_append, Nat.ofDigitChars_cons]
      exact ih

theorem isDigit_of_mem_zeros {n zeros : Nat} {c : Char}
    (h : c ∈ List.replicate zeros '0' ++ digits n) : c.isDigit = true := by
  obtain h | h := List.mem_append.mp h
  · rw [(List.mem_replicate.mp h).2]
    decide
  · exact isDigit_of_mem_digits h

/-- Only a sign in front is no digit. -/
theorem Writes.isDigit_of_mem_tail {n : Nat} {cs : List Char} (h : Writes n cs) {c : Char}
    (hc : c ∈ cs.tail) : c.isDigit = true := by
  obtain zeros | zeros := h
  · exact isDigit_of_mem_zeros (List.mem_of_mem_tail hc)
  · exact isDigit_of_mem_zeros hc

theorem readNumeral_of_head {base : Nat} {c : Char} (cs : List Char) (hc : c ≠ '+') :
    readNumeral base (c :: cs) = readDigits base 0 (c :: cs) := by
  simp [readNumeral, hc]

theorem readNumeral_plus {base : Nat} {cs : List Char} (hne : cs ≠ []) :
    readNumeral base ('+' :: cs) = readDigits base 0 cs := by
  simp [readNumeral]

/-- A number is read from what writes it. -/
theorem readNumeral_of_writes {n : Nat} {cs : List Char} (hn : n < wordLimit) (h : Writes n cs) :
    readNumeral 10 cs = .ok n := by
  have hread : ∀ zeros, readDigits 10 0 (List.replicate zeros '0' ++ digits n) = .ok n := by
    intro zeros
    have hvalue : Nat.ofDigitChars 10 (List.replicate zeros '0' ++ digits n) 0 = n := by
      rw [ofDigitChars_zeros]
      exact Nat.ofDigitChars_ten_toDigits
    rw [readDigits_eq_ofDigitChars (fun _ => isDigit_of_mem_zeros) (hvalue.symm ▸ hn), hvalue]
  have hne : ∀ zeros, List.replicate zeros '0' ++ digits n ≠ [] := fun zeros =>
    List.append_ne_nil_of_right_ne_nil _ (digits_ne_nil n)
  cases h with
  | unsigned zeros =>
      obtain ⟨c, cs, hcs⟩ := List.exists_cons_of_ne_nil (hne zeros)
      have hc : c ≠ '+' := by
        rintro rfl
        have hplus := isDigit_of_mem_zeros (hcs ▸ List.mem_cons_self : '+' ∈ _)
        exact absurd hplus (by decide)
      rw [hcs, readNumeral_of_head cs hc, ← hcs, hread]
  | signed zeros => rw [readNumeral_plus (hne zeros), hread]

end Concordance.Decimal
