import Concordance.Decimal.Places
import Concordance.Proofs.Decimal.Numeral

/-!
# Concordance.Proofs.Decimal.Places

The characters of decimals with a fixed number of places, and of numerals.

* `exists_finite` — a finite floating point number has finite parts;
* `point_mem_toPlaces`, `space_not_mem_toPlaces` — a decimal has a point in it and no space;
* `numeral_inj` — different numbers have different numerals.
-/

namespace Concordance.Decimal

open Float.Model in
/-- A number is finite unless all bits of its exponent are set. -/
theorem exists_finite {x : Float} (h : x.isFinite = true) : ∃ v, ofDouble x = .finite v := by
  unfold ofDouble Format.parts
  dsimp only
  split
  · next hexponent =>
    have hset : @UnpackedFloat.unpackExponent Format.binary64 x.toBits.toBitVec = -1#11 := by
      refine BitVec.eq_of_toNat_eq ?_
      rw [UnpackedFloat.unpackExponent, BitVec.toNat_cast, BitVec.extractLsb_toNat,
        Nat.shiftRight_eq_div_pow]
      exact hexponent
    have hunpack : x.toModel.unpack = @UnpackedFloat.unpack Format.binary64 x.toBits.toBitVec := rfl
    unfold Float.isFinite Float.Model.isFinite at h
    rw [hunpack] at h
    unfold UnpackedFloat.unpack at h
    rw [hset] at h
    dsimp only at h
    rw [if_pos rfl] at h
    split at h <;> cases h
  · split
    · exact ⟨_, rfl⟩
    · exact ⟨_, rfl⟩

theorem not_mem_digits {n : Nat} {c : Char} (hc : c.isDigit = false) : c ∉ digits n := by
  intro h
  rw [isDigit_of_mem_digits h] at hc
  cases hc

/-- A decimal is digits with a point among them, maybe behind a sign. -/
theorem mem_toPlaces {places : Nat} {x : Finite} {c : Char} (h : c ∈ x.toPlaces places) :
    c.isDigit = true ∨ c = '.' ∨ c = '-' := by
  simp only [Finite.toPlaces, pointed, List.mem_append, List.mem_cons, List.mem_replicate] at h
  obtain hsign | hwhole | rfl | ⟨-, rfl⟩ | hfraction := h
  · split at hsign
    · exact .inr (.inr (List.mem_singleton.mp hsign))
    · cases hsign
  · exact .inl (isDigit_of_mem_digits hwhole)
  · exact .inr (.inl rfl)
  · exact .inl rfl
  · exact .inl (isDigit_of_mem_digits hfraction)

theorem space_not_mem_toPlaces (places : Nat) (x : Finite) : ' ' ∉ x.toPlaces places := by
  intro h
  obtain hc | hc | hc := mem_toPlaces h <;> exact absurd hc (by decide)

theorem point_mem_toPlaces (places : Nat) (x : Finite) : '.' ∈ x.toPlaces places := by
  simp [Finite.toPlaces, pointed]

/-- Different numbers have different numerals. -/
theorem numeral_inj {m n : Nat} (h : numeral m = numeral n) : m = n := by
  have hdigits : digits m = digits n := String.ofList_inj.mp h
  have hvalue : ∀ k, Nat.ofDigitChars 10 (digits k) 0 = k := fun _ =>
    Nat.ofDigitChars_ten_toDigits
  rw [← hvalue m, hdigits, hvalue]

end Concordance.Decimal
