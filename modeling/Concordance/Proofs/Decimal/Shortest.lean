import Concordance.Decimal.Shortest
import Concordance.Proofs.Decimal.Numeral
import Mathlib.Algebra.Group.Nat.Defs
import Mathlib.Tactic.Common

/-!
# Concordance.Proofs.Decimal.Shortest

What is written for a floating point number that is not zero is not zero: the search for its digits
begins with the power of ten of its first digit and goes on to finer grids, and on all of these the
number has a whole part.

* `below_magnitude_pos` — the search begins with a whole part, and `below_pos_of_le` — it keeps one;
* `isProper_shortest` — only zero is written with digits that are all zero, and without a scale.
-/

namespace Concordance.Decimal

/-! ## digits -/

theorem lt_pow_length_digits (n : Nat) : n < 10 ^ (digits n).length :=
  (Nat.length_toDigits_le_iff (by decide) (List.length_pos_iff.mpr (digits_ne_nil n))).mp
    (Nat.le_refl _)

theorem pow_length_digits_le {n : Nat} (h : 0 < n) : 10 ^ ((digits n).length - 1) ≤ n := by
  obtain hzero | hpos := Nat.eq_zero_or_pos ((digits n).length - 1)
  · rw [hzero]
    exact h
  · refine Nat.not_lt.mp fun hlt => ?_
    have hle : (digits n).length ≤ (digits n).length - 1 :=
      (Nat.length_toDigits_le_iff (by decide) hpos).mpr hlt
    omega

theorem digits_mul_ten {n : Nat} (h : 0 < n) : digits (n * 10) = digits n ++ ['0'] := by
  rw [digits, Nat.toDigits_of_base_le (by decide) (by omega), Nat.mul_div_cancel _ (by decide),
    Nat.mul_mod_left]
  rfl

/-- Zeros behind the digits of a number make it a multiple. -/
theorem digits_append_zeros {n : Nat} (h : 0 < n) (k : Nat) :
    digits n ++ List.replicate k '0' = digits (n * 10 ^ k) := by
  induction k with
  | zero => simp
  | succ k ih =>
      rw [List.replicate_succ', ← List.append_assoc, ih, Nat.pow_succ, ← Nat.mul_assoc,
        digits_mul_ten (Nat.mul_pos h (Nat.pow_pos (by decide)))]

/-- The digits of a number without its last ones. -/
theorem take_digits {n p : Nat} (h : p < (digits n).length) :
    (digits n).take ((digits n).length - p) = digits (n / 10 ^ p) := by
  induction p generalizing n with
  | zero => simp
  | succ p ih =>
      have hle : 10 ≤ n := by
        refine Nat.not_lt.mp fun hlt => ?_
        rw [digits, Nat.toDigits_of_lt_base hlt] at h
        simp at h
      have hsplit : digits n = digits (n / 10) ++ [(n % 10).digitChar] :=
        Nat.toDigits_of_base_le (by decide) hle
      have hlength : (digits n).length = (digits (n / 10)).length + 1 := by
        rw [hsplit, List.length_append, List.length_singleton]
      have hcount : (digits n).length - (p + 1) = (digits (n / 10)).length - p := by omega
      rw [hcount, hsplit, List.take_append_of_le_length (by omega), ih (by omega),
        Nat.div_div_eq_div_mul, Nat.pow_succ']

/-! ## grids -/

namespace Rounding

variable {r : Rounding}

theorem below_ofNat (k : Nat) : (r.below k).1 = r.value / (r.den * 10 ^ k) := rfl

theorem below_neg (k : Nat) : (r.below (-(k : Int))).1 = r.value * 10 ^ k / r.den := by
  cases k with
  | zero => simpa using below_ofNat (r := r) 0
  | succ k => rfl

/-- A finer grid has a whole part where a coarser one has. -/
theorem below_pos_of_le (hden : 0 < r.den) {fine coarse : Int} (hle : fine ≤ coarse)
    (h : 0 < (r.below coarse).1) : 0 < (r.below fine).1 := by
  obtain ⟨k, rfl | rfl⟩ := coarse.eq_nat_or_neg <;> obtain ⟨j, rfl | rfl⟩ := fine.eq_nat_or_neg
  · rw [below_ofNat, Nat.div_pos_iff] at h ⊢
    have hpow : 10 ^ j ≤ 10 ^ k := Nat.pow_le_pow_right (by decide) (by omega)
    exact ⟨Nat.mul_pos hden (Nat.pow_pos (by decide)),
      Nat.le_trans (Nat.mul_le_mul_left _ hpow) h.2⟩
  · rw [below_ofNat, Nat.div_pos_iff] at h
    rw [below_neg, Nat.div_pos_iff]
    refine ⟨hden, ?_⟩
    calc r.den ≤ r.den * 10 ^ k := Nat.le_mul_of_pos_right _ (Nat.pow_pos (by decide))
      _ ≤ r.value := h.2
      _ ≤ r.value * 10 ^ j := Nat.le_mul_of_pos_right _ (Nat.pow_pos (by decide))
  · obtain ⟨rfl, rfl⟩ : j = 0 ∧ k = 0 := by omega
    simpa using h
  · rw [below_neg, Nat.div_pos_iff] at h ⊢
    have hpow : 10 ^ k ≤ 10 ^ j := Nat.pow_le_pow_right (by decide) (by omega)
    exact ⟨hden, Nat.le_trans h.2 (Nat.mul_le_mul_left _ hpow)⟩

/-- The power of ten of the first digit is in the number. -/
theorem below_magnitude_pos (hvalue : 0 < r.value) (hden : 0 < r.den) :
    0 < (r.below r.magnitude).1 := by
  unfold magnitude
  split
  · next hle =>
    have hwhole : 0 < r.value / r.den := Nat.div_pos hle hden
    have hlength := List.length_pos_iff.mpr (digits_ne_nil (r.value / r.den))
    have hscale : ((digits (r.value / r.den)).length : Int) - 1 =
        ((digits (r.value / r.den)).length - 1 : Nat) := by
      omega
    rw [hscale, below_ofNat, Nat.div_pos_iff]
    refine ⟨Nat.mul_pos hden (Nat.pow_pos (by decide)), ?_⟩
    calc r.den * 10 ^ ((digits (r.value / r.den)).length - 1)
        ≤ r.den * (r.value / r.den) := Nat.mul_le_mul_left _ (pow_length_digits_le hwhole)
      _ ≤ r.value := Nat.mul_div_le _ _
  · dsimp only
    split
    · next hreaches =>
      rw [below_neg, Nat.div_pos_iff]
      exact ⟨hden, hreaches⟩
    · rw [below_neg, Nat.div_pos_iff]
      have hlt := lt_pow_length_digits (r.den / r.value)
      rw [Nat.div_lt_iff_lt_mul hvalue, Nat.mul_comm] at hlt
      exact ⟨hden, Nat.le_of_lt hlt⟩

/-- On a grid with a whole part a point is taken that is not zero. -/
theorem onGrid_coefficient_ne_zero {scale : Int} {s : Scientific} (hbelow : 0 < (r.below scale).1)
    (h : r.onGrid scale = some s) : s.coefficient ≠ 0 := by
  unfold onGrid at h
  rcases hr : r.below scale with ⟨d, rest⟩
  rw [hr] at h hbelow
  dsimp only at h hbelow
  have hnear : ∀ upper : Bool, (if upper then d + 1 else d) ≠ 0 := by
    intro upper
    cases upper
    · exact Nat.pos_iff_ne_zero.mp hbelow
    · exact Nat.succ_ne_zero d
  split at h
  · obtain rfl := Option.some.inj h
    exact hnear _
  · split at h
    · obtain rfl := Option.some.inj h
      exact Nat.pos_iff_ne_zero.mp hbelow
    · split at h
      · obtain rfl := Option.some.inj h
        exact Nat.succ_ne_zero d
      · cases h

theorem search_coefficient_ne_zero (hden : 0 < r.den) (fuel : Nat) {scale : Int}
    (h : 0 < (r.below scale).1) : (r.search fuel scale).coefficient ≠ 0 := by
  induction fuel generalizing scale with
  | zero => exact Nat.pos_iff_ne_zero.mp h
  | succ fuel ih =>
      rw [search]
      split
      · next hgrid => exact onGrid_coefficient_ne_zero h hgrid
      · exact ih (below_pos_of_le hden (by omega) h)

end Rounding

/-! ## the shortest digits -/

theorem Scientific.normalize_coefficient_ne_zero (fuel : Nat) {s : Scientific}
    (h : s.coefficient ≠ 0) : (s.normalize fuel).coefficient ≠ 0 := by
  induction fuel generalizing s with
  | zero => exact h
  | succ fuel ih =>
      rw [normalize]
      split
      · exact ih (by dsimp only; omega)
      · exact h

theorem Finite.rounding_pos {x : Finite} (h : x.significand ≠ 0) :
    0 < x.rounding.value ∧ 0 < x.rounding.den := by
  have hpos : 0 < 4 * x.significand := by omega
  unfold Finite.rounding
  cases x.exponent
  · exact ⟨Nat.mul_pos hpos (Nat.pow_pos (by decide)), Nat.zero_lt_succ 3⟩
  · exact ⟨Nat.mul_pos hpos (by decide), Nat.mul_pos (by decide) (Nat.pow_pos (by decide))⟩

/-- A decimal has no scale where its digits are all zero. -/
def Scientific.IsProper (s : Scientific) : Prop := s.coefficient = 0 → s.scale = 0

/-- Only zero is written with digits that are all zero. -/
theorem Finite.isProper_shortest (x : Finite) : x.shortest.IsProper := by
  unfold Finite.shortest
  split
  · exact fun _ => rfl
  · next hne =>
    obtain ⟨hvalue, hden⟩ := rounding_pos hne
    exact fun hzero => absurd hzero (Scientific.normalize_coefficient_ne_zero _
      (Rounding.search_coefficient_ne_zero hden _ (Rounding.below_magnitude_pos hvalue hden)))

end Concordance.Decimal
