import Concordance.Proofs.Decimal.Shortest
import Concordance.Proofs.Json.Grammar

/-!
# Concordance.Proofs.Json.Floating

What is written for a finite floating point number is a JSON number, in either layout: its whole
part has no zeros in front, there are digits on both sides of a point, and behind an exponent.

* `isUnsigned_positional`, `isUnsigned_withExponent` — the layouts;
* `isNumber_render` — numbers with their sign.
-/

namespace Concordance.Json

open Decimal

/-- A number that is not written with digits only, without a sign. -/
inductive IsUnsigned : List Char → Prop
  | parts (whole : Nat) {fraction exponent : List Char} (hfraction : IsFraction fraction)
      (hexponent : IsExponent exponent) (hne : fraction ++ exponent ≠ []) :
      IsUnsigned (digits whole ++ (fraction ++ exponent))

theorem areDigits_digits (n : Nat) : AreDigits (digits n) :=
  ⟨digits_ne_nil n, fun _ => isDigit_of_mem_digits⟩

/-- A digit by itself is the numeral of a number. -/
theorem exists_digits_eq_singleton {d : Char} (h : d.isDigit = true) : ∃ n, digits n = [d] := by
  have hrange : 48 ≤ d.toNat ∧ d.toNat ≤ 57 := by
    rw [Char.isDigit, Bool.and_eq_true, decide_eq_true_eq, decide_eq_true_eq] at h
    exact h
  refine ⟨d.toNat - 48, ?_⟩
  rw [digits, Nat.toDigits_of_lt_base (by omega)]
  congr 1
  refine Char.toNat_inj.mp ?_
  rw [Nat.toNat_digitChar_of_lt_ten (by omega)]
  omega

/-- Digits with a point among them. -/
theorem IsUnsigned.point (whole : Nat) {ds : List Char} (h : AreDigits ds) :
    IsUnsigned (digits whole ++ '.' :: ds) := by
  have hparts := IsUnsigned.parts whole (.some h) .none (by simp)
  rwa [List.append_nil] at hparts

theorem isUnsigned_positional {s : Scientific} (hs : s.IsProper) : IsUnsigned s.positional := by
  unfold Scientific.positional
  have hzeros : ∀ k, AreDigits (List.replicate k '0' ++ digits s.coefficient) := fun k =>
    ⟨List.append_ne_nil_of_right_ne_nil _ (digits_ne_nil _), fun _ => isDigit_of_mem_zeros⟩
  cases hscale : s.scale with
  | ofNat k =>
      have hwhole : ∃ n, digits s.coefficient ++ List.replicate k '0' = digits n := by
        obtain hzero | hpos := Nat.eq_zero_or_pos s.coefficient
        · have hnone : (k : Int) = 0 := hscale.symm.trans (hs hzero)
          obtain rfl : k = 0 := by omega
          exact ⟨_, List.append_nil _⟩
        · exact ⟨_, digits_append_zeros hpos k⟩
      obtain ⟨n, hn⟩ := hwhole
      dsimp only
      rw [hn]
      refine .point n ⟨List.cons_ne_nil _ _, fun d hd => ?_⟩
      obtain rfl := List.mem_singleton.mp hd
      decide
  | negSucc k =>
      dsimp only
      split
      · have hnil : digits 0 = ['0'] := Nat.toDigits_zero 10
        have hpoint := IsUnsigned.point 0 (hzeros (k + 1 - (digits s.coefficient).length))
        rw [hnil] at hpoint
        exact hpoint
      · next hlt =>
        have hlt : k + 1 < (digits s.coefficient).length := Nat.not_le.mp hlt
        rw [take_digits hlt]
        refine .point _ ⟨fun hnil => ?_, fun d hd => ?_⟩
        · have hlength := congrArg List.length hnil
          rw [List.length_drop, List.length_nil] at hlength
          omega
        · exact isDigit_of_mem_digits (List.mem_of_mem_drop hd)

theorem isUnsigned_withExponent (s : Scientific) (exponent : Int) :
    IsUnsigned (s.withExponent exponent) := by
  have hexponent : IsExponent
      ('e' :: (if exponent < 0 then '-' else '+') :: digits exponent.natAbs) := by
    split
    · exact .some (.inl rfl) (.inr (.inr rfl)) (areDigits_digits _)
    · exact .some (.inl rfl) (.inr (.inl rfl)) (areDigits_digits _)
  unfold Scientific.withExponent
  have hdigits := areDigits_digits s.coefficient
  obtain ⟨d, ds, hds⟩ := List.exists_cons_of_ne_nil hdigits.nonempty
  rw [hds] at hdigits ⊢
  obtain ⟨n, hn⟩ := exists_digits_eq_singleton (hdigits.digit d List.mem_cons_self)
  cases ds with
  | nil =>
      have hparts := IsUnsigned.parts n .none hexponent (by simp)
      rw [hn] at hparts
      exact hparts
  | cons next rest =>
      have hfraction : AreDigits (next :: rest) :=
        ⟨List.cons_ne_nil _ _, fun c hc => hdigits.digit c (List.mem_cons_of_mem d hc)⟩
      have hparts := IsUnsigned.parts n (.some hfraction) hexponent (by simp)
      rw [hn] at hparts
      exact hparts

/-- What is written for a finite number is a number. -/
theorem isNumber_render (layout : Layout) (x : Finite) :
    IsNumber (layout.render x).toList := by
  have hbody : ∀ body, IsUnsigned body →
      IsNumber ((if x.negative then ['-'] else []) ++ body) := by
    rintro _ ⟨whole, hfraction, hexponent, hne⟩
    cases x.negative with
    | false => exact .unsigned whole hfraction hexponent hne
    | true => exact .negative whole hfraction hexponent
  rw [Layout.render, String.toList_ofList]
  refine hbody _ ?_
  split
  · exact isUnsigned_positional x.isProper_shortest
  · exact isUnsigned_withExponent _ _

end Concordance.Json
