import Concordance.Proofs.Files.Text
import Mathlib.Tactic.SplitIfs

/-!
# Concordance.Proofs.Text.Bytes

The order of texts is the order of their bytes in UTF-8.  A character has a larger first byte than
another one with fewer bytes, and of two with equally many the bytes are the digits of their code
points, the largest first.

* `bytesOf_lt_iff` — one text stands before another exactly if its bytes do.
-/

namespace Concordance.Files.Tree

/-- Numbers of four digits to the base 64 stand by their digits. -/
theorem digits_lt {a b c d a' b' c' d' : Nat} (hb : b < 64) (hc : c < 64) (hd : d < 64)
    (hb' : b' < 64) (hc' : c' < 64) (hd' : d' < 64)
    (h : 64 * (64 * (64 * a + b) + c) + d < 64 * (64 * (64 * a' + b') + c') + d') :
    a < a' ∨ a = a' ∧ (b < b' ∨ b = b' ∧ (c < c' ∨ c = c' ∧ d < d')) := by
  omega

/-- A smaller character has smaller bytes, whatever stands behind. -/
theorem utf8EncodeChar_append_lt {c d : Char} (h : c < d) (xs ys : List UInt8) :
    String.utf8EncodeChar c ++ xs < String.utf8EncodeChar d ++ ys := by
  have hlt : c.val.toNat < d.val.toNat := h
  have hmax : d.val.toNat < 1114112 := by
    have hvalid := d.valid
    simp only [UInt32.isValidChar, Nat.isValidChar] at hvalid
    omega
  unfold String.utf8EncodeChar
  generalize c.val.toNat = m at hlt
  generalize d.val.toNat = n at hlt hmax
  dsimp only
  by_cases hfour : m ≤ 65535
  · -- one case for each pair of numbers of bytes
    split_ifs <;>
      simp only [List.cons_append, List.nil_append, List.cons_lt_cons_iff, UInt8.lt_iff_toNat_lt,
        ← UInt8.toNat_inj, UInt8.toNat_ofNat'] <;>
      omega
  · rw [if_neg (by omega), if_neg (by omega), if_neg hfour, if_neg (by omega), if_neg (by omega),
      if_neg (by omega)]
    have hfirst : ∀ x < 1114112, (x / 262144 % 8 + 240) % 2 ^ 8 = x / 262144 + 240 := by omega
    have hlater : ∀ x, (x % 64 + 128) % 2 ^ 8 = x % 64 + 128 := by omega
    have hdigits := @digits_lt (m / 262144) (m / 4096 % 64) (m / 64 % 64) (m % 64)
      (n / 262144) (n / 4096 % 64) (n / 64 % 64) (n % 64) (by omega) (by omega) (by omega)
      (by omega) (by omega) (by omega) (by omega)
    simp only [List.cons_append, List.nil_append, List.cons_lt_cons_iff, UInt8.lt_iff_toNat_lt,
      ← UInt8.toNat_inj, UInt8.toNat_ofNat', hfirst m (by omega), hfirst n hmax, hlater,
      Nat.add_lt_add_iff_right, Nat.add_right_cancel_iff]
    grind

/-- A text that stands before another one has bytes that do. -/
theorem utf8Encode_lt {cs ds : List Char} (h : cs < ds) :
    cs.flatMap String.utf8EncodeChar < ds.flatMap String.utf8EncodeChar := by
  induction cs generalizing ds with
  | nil =>
      cases ds with
      | nil => exact absurd h (List.lt_irrefl [])
      | cons d ds =>
          have hlength : 0 < (String.utf8EncodeChar d).length := by
            rw [String.length_utf8EncodeChar]
            exact d.utf8Size_pos
          rw [List.flatMap_nil, List.flatMap_cons]
          cases hd : String.utf8EncodeChar d with
          | nil => simp [hd] at hlength
          | cons b bs => exact List.nil_lt_cons _ _
  | cons c cs ih =>
      cases ds with
      | nil => exact absurd h (List.not_lt_nil _)
      | cons d ds =>
          rw [List.flatMap_cons, List.flatMap_cons]
          obtain hcd | ⟨rfl, hrest⟩ := List.cons_lt_cons_iff.mp h
          · exact utf8EncodeChar_append_lt hcd _ _
          · exact List.append_left_lt (ih hrest)

/-- One text stands before another exactly if its bytes do. -/
theorem bytesOf_lt_iff {a b : String} : bytesOf a < bytesOf b ↔ a < b := by
  have hmono : ∀ {a b : String}, a < b → bytesOf a < bytesOf b := fun {a b} h => by
    rw [← String.ofList_toList (s := a), ← String.ofList_toList (s := b), bytesOf_ofList,
      bytesOf_ofList]
    exact utf8Encode_lt (String.lt_iff.mp h)
  constructor
  · intro h
    by_cases hab : a < b
    · exact hab
    · by_cases hba : b < a
      · exact absurd (hmono hba) (List.lt_asymm h)
      · rw [String.le_antisymm (String.not_lt.mp hba) (String.not_lt.mp hab)] at h
        exact absurd h (List.lt_irrefl _)
  · exact hmono

end Concordance.Files.Tree
