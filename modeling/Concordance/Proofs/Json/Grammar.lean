import Concordance.Json.Printer
import Concordance.Json.Reader
import Concordance.Proofs.Decimal.Numeral
import Mathlib.Data.List.TakeDrop

/-!
# Concordance.Proofs.Json.Grammar

The texts of JSON values, and that they are read as the values they are texts of: with any white
space between their parts, any escapes in their texts, and parts nested to any depth.

* `SpellsChar`, `SpellsQuoted` — characters and texts, themselves or escaped;
* `Spells` — values;
* `readText_spelled`, `readNumber_digits`, `readNumber_number` — the reader of each atom;
* `reads_of_spells` — a value is read with more fuel than characters;
* `parse?_of_spells` — a text that is one value is read.
-/

namespace Concordance.Json

open Decimal

/-! ## characters and texts -/

/-- The letters that stand for a character behind a backslash. -/
def shortEscapes : List (Char × Char) :=
  [('"', '"'), ('\\', '\\'), ('/', '/'), ('b', '\x08'), ('f', '\x0c'), ('n', '\n'), ('r', '\r'),
    ('t', '\t')]

/-- A hexadecimal digit of a number, in either case. -/
def IsHexDigit (n : Nat) (c : Char) : Prop := c = n.digitChar ∨ c = n.digitChar.toUpper

/-- The four hexadecimal digits of a number. -/
def SpellsCode (n : Nat) (cs : List Char) : Prop :=
  List.Forall₂ IsHexDigit [n / 0x1000, n / 0x100 % 16, n / 0x10 % 16, n % 16] cs

instance (n : Nat) (c : Char) : Decidable (IsHexDigit n c) := inferInstanceAs (Decidable (_ ∨ _))

instance (n : Nat) (cs : List Char) : Decidable (SpellsCode n cs) :=
  inferInstanceAs (Decidable (List.Forall₂ ..))

/-- A character and characters that stand for it in a text: itself, a letter behind a backslash, its
code, or the codes of its two surrogates. -/
inductive SpellsChar (c : Char) : List Char → Prop
  | plain (hquote : c ≠ '"') (hslash : c ≠ '\\') (hcontrol : 0x20 ≤ c.toNat) : SpellsChar c [c]
  | short {letter : Char} (h : (letter, c) ∈ shortEscapes) : SpellsChar c ['\\', letter]
  | code {cs : List Char} (hc : c.toNat < 0x10000) (h : SpellsCode c.toNat cs) :
      SpellsChar c ('\\' :: 'u' :: cs)
  | halves {high low : List Char} (hc : 0x10000 ≤ c.toNat)
      (hhigh : SpellsCode (0xD800 + (c.toNat - 0x10000) / 0x400) high)
      (hlow : SpellsCode (0xDC00 + (c.toNat - 0x10000) % 0x400) low) :
      SpellsChar c ('\\' :: 'u' :: high ++ '\\' :: 'u' :: low)

/-- Characters one after the other. -/
inductive SpellsChars : List Char → List Char → Prop
  | nil : SpellsChars [] []
  | cons {c : Char} {spelled : List Char} (hc : SpellsChar c spelled) {text cs : List Char}
      (h : SpellsChars text cs) : SpellsChars (c :: text) (spelled ++ cs)

/-- A text in quotes. -/
inductive SpellsQuoted (text : String) : List Char → Prop
  | quoted {cs : List Char} (h : SpellsChars text.toList cs) :
      SpellsQuoted text ('"' :: cs ++ ['"'])

/-- Characters that need no escape. -/
def AreOrdinary (cs : List Char) : Prop := ∀ c ∈ cs, c ≠ '"' ∧ c ≠ '\\' ∧ 0x20 ≤ c.toNat

instance (cs : List Char) : Decidable (AreOrdinary cs) :=
  List.decidableBAll (fun c => c ≠ '"' ∧ c ≠ '\\' ∧ 0x20 ≤ c.toNat) cs

/-- Characters that need no escape stand for themselves. -/
theorem spellsChars_self (cs : List Char) (h : AreOrdinary cs) : SpellsChars cs cs := by
  induction cs with
  | nil => exact .nil
  | cons c cs ih =>
      obtain ⟨hquote, hslash, hcontrol⟩ := h c List.mem_cons_self
      exact .cons (.plain hquote hslash hcontrol) (ih fun d hd => h d (List.mem_cons_of_mem c hd))

section Text

variable (whole : Bool) (before rest : List Char)

theorem readText_short {letter c : Char} (h : (letter, c) ∈ shortEscapes) :
    readText whole before ('\\' :: letter :: rest) = readText whole (c :: before) rest := by
  have hescapes : ∀ e ∈ shortEscapes, e.1 ≠ 'u' ∧ escaped? e.1 = some e.2 := by decide
  obtain ⟨hu, hescaped⟩ := hescapes _ h
  rw [readText]
  · rw [hescaped]
  · exact fun _ _ _ _ _ heq => absurd heq hu

theorem readText_plain {c : Char} (hquote : c ≠ '"') (hslash : c ≠ '\\')
    (hcontrol : 0x20 ≤ c.toNat) :
    readText whole before (c :: rest) = readText whole (c :: before) rest := by
  rw [readText]
  · exact if_neg fun h => h.elim (Nat.not_lt.mpr hcontrol) hslash
  · exact hquote
  · exact fun _ _ _ _ _ h => absurd h hslash
  · exact fun _ _ h => absurd h hslash

theorem digit?_of_isHexDigit {n : Nat} {c : Char} (hn : n < 16) (h : IsHexDigit n c) :
    digit? 16 c = some n := by
  have hlower : ∀ k < 16, digit? 16 k.digitChar = some k := by decide
  have hupper : ∀ k < 16, digit? 16 k.digitChar.toUpper = some k := by decide
  obtain rfl | rfl := h
  · exact hlower n hn
  · exact hupper n hn

theorem hex4?_of_spellsCode {n : Nat} {cs : List Char} (hn : n < 0x10000) (h : SpellsCode n cs) :
    ∃ a b c d, cs = [a, b, c, d] ∧ hex4? a b c d = some n := by
  unfold SpellsCode at h
  cases h with | @cons _ a _ _ ha h =>
  cases h with | @cons _ b _ _ hb h =>
  cases h with | @cons _ c _ _ hc h =>
  cases h with | @cons _ d _ _ hd h =>
  cases h
  refine ⟨a, b, c, d, rfl, ?_⟩
  have hvalue : ((n / 0x1000 * 16 + n / 0x100 % 16) * 16 + n / 0x10 % 16) * 16 + n % 16 = n := by
    omega
  simp only [hex4?, digit?_of_isHexDigit (by omega) ha, digit?_of_isHexDigit (by omega) hb,
    digit?_of_isHexDigit (by omega) hc, digit?_of_isHexDigit (by omega) hd, Option.bind_eq_bind,
    Option.bind_some, hvalue]
  rfl

theorem toNat_lt_of_char (c : Char) :
    c.toNat < 0xD800 ∨ (0xE000 ≤ c.toNat ∧ c.toNat < 0x110000) := by
  have hvalid := c.valid
  unfold UInt32.isValidChar Nat.isValidChar at hvalid
  unfold Char.toNat
  omega

theorem readText_code {c : Char} {cs : List Char} (hc : c.toNat < 0x10000)
    (h : SpellsCode c.toNat cs) :
    readText whole before ('\\' :: 'u' :: (cs ++ rest)) = readText whole (c :: before) rest := by
  obtain ⟨a, b, d, e, rfl, hhex⟩ := hex4?_of_spellsCode hc h
  have hrange := toNat_lt_of_char c
  have hhigh : isHighHalf c.toNat = false := by
    simp only [isHighHalf, Bool.and_eq_false_iff, decide_eq_false_iff_not]
    omega
  have hlow : isLowHalf c.toNat = false := by
    simp only [isLowHalf, Bool.and_eq_false_iff, decide_eq_false_iff_not]
    omega
  simp only [List.cons_append, List.nil_append]
  rw [readText, hhex]
  simp only [hhigh, hlow, Bool.false_eq_true, if_false, Char.ofNat_toNat]

theorem readText_halves {c : Char} {high low : List Char} (hc : 0x10000 ≤ c.toNat)
    (hhigh : SpellsCode (0xD800 + (c.toNat - 0x10000) / 0x400) high)
    (hlow : SpellsCode (0xDC00 + (c.toNat - 0x10000) % 0x400) low) :
    readText whole before ('\\' :: 'u' :: (high ++ '\\' :: 'u' :: (low ++ rest))) =
      readText whole (c :: before) rest := by
  have hrange := toNat_lt_of_char c
  obtain ⟨a, b, d, e, rfl, hhex⟩ := hex4?_of_spellsCode (by omega) hhigh
  obtain ⟨a', b', d', e', rfl, hhex'⟩ := hex4?_of_spellsCode (by omega) hlow
  have hfirst : isHighHalf (0xD800 + (c.toNat - 0x10000) / 0x400) = true := by
    simp only [isHighHalf, Bool.and_eq_true, decide_eq_true_eq]
    omega
  have hsecond : isLowHalf (0xDC00 + (c.toNat - 0x10000) % 0x400) = true := by
    simp only [isLowHalf, Bool.and_eq_true, decide_eq_true_eq]
    omega
  have hchar : ofHalves (0xD800 + (c.toNat - 0x10000) / 0x400)
      (0xDC00 + (c.toNat - 0x10000) % 0x400) = c := by
    have hnat : 0x10000 + (0xD800 + (c.toNat - 0x10000) / 0x400 - 0xD800) * 0x400 +
        (0xDC00 + (c.toNat - 0x10000) % 0x400 - 0xDC00) = c.toNat := by
      omega
    rw [ofHalves, hnat, Char.ofNat_toNat]
  simp only [List.cons_append, List.nil_append]
  rw [readText, hhex]
  simp only [hfirst, if_true, lowHalf?, hhex', Option.filter_some, hsecond, hchar]
  rfl

/-- A character is read from what stands for it. -/
theorem readText_spellsChar {c : Char} {cs : List Char} (h : SpellsChar c cs) :
    readText whole before (cs ++ rest) = readText whole (c :: before) rest := by
  cases h with
  | plain hquote hslash hcontrol => exact readText_plain whole before rest hquote hslash hcontrol
  | short h => exact readText_short whole before rest h
  | code hc h => exact readText_code whole before rest hc h
  | halves hc hhigh hlow =>
      simpa using readText_halves whole before rest hc hhigh hlow

theorem readText_spellsChars {text cs : List Char} (h : SpellsChars text cs) :
    readText true before (cs ++ '"' :: rest) =
      some (some (String.ofList (before.reverse ++ text)), rest) := by
  induction h generalizing before with
  | nil =>
      rw [List.nil_append, readText, List.append_nil]
      rfl
  | cons hc _ ih =>
      rw [List.append_assoc, readText_spellsChar true before _ hc, ih]
      simp

/-- A text is read up to its closing quote. -/
theorem readText_spelled {text : String} {cs : List Char} (h : SpellsQuoted text cs) :
    ∃ inner, cs ++ rest = '"' :: inner ∧ readText true [] inner = some (some text, rest) := by
  obtain @⟨cs, h⟩ := h
  refine ⟨cs ++ '"' :: rest, by simp, ?_⟩
  rw [readText_spellsChars [] rest h]
  simp

end Text

/-! ## numbers -/

/-- One digit or more. -/
structure AreDigits (ds : List Char) : Prop where
  nonempty : ds ≠ []
  digit : ∀ d ∈ ds, d.isDigit = true

/-- The fraction of a number, if it has one. -/
inductive IsFraction : List Char → Prop
  | none : IsFraction []
  | some {ds : List Char} (h : AreDigits ds) : IsFraction ('.' :: ds)

/-- The exponent of a number, if it has one. -/
inductive IsExponent : List Char → Prop
  | none : IsExponent []
  | some {mark : Char} (hmark : mark = 'e' ∨ mark = 'E') {sign : List Char}
      (hsign : sign = [] ∨ sign = ['+'] ∨ sign = ['-']) {ds : List Char} (h : AreDigits ds) :
      IsExponent (mark :: (sign ++ ds))

/-- A number that is not written with digits only. -/
inductive IsNumber : List Char → Prop
  | unsigned (whole : Nat) {fraction exponent : List Char} (hfraction : IsFraction fraction)
      (hexponent : IsExponent exponent) (hne : fraction ++ exponent ≠ []) :
      IsNumber (digits whole ++ (fraction ++ exponent))
  | negative (whole : Nat) {fraction exponent : List Char} (hfraction : IsFraction fraction)
      (hexponent : IsExponent exponent) : IsNumber ('-' :: (digits whole ++ (fraction ++ exponent)))

/-- What may stand behind digits: no digit. -/
def EndsDigits (rest : List Char) : Prop := ∀ c ∈ rest.head?, c.isDigit = false

/-- What may stand behind a number: nothing that could belong to it. -/
def EndsNumber (rest : List Char) : Prop :=
  ∀ c ∈ rest.head?, c.isDigit = false ∧ c ≠ '.' ∧ c ≠ 'e' ∧ c ≠ 'E'

theorem EndsNumber.endsDigits {rest : List Char} (h : EndsNumber rest) : EndsDigits rest :=
  fun c hc => (h c hc).1

theorem head?_digits {n : Nat} (h : 0 < n) : (digits n).head? ≠ some '0' := by
  induction n using Nat.strongRecOn with
  | ind n ih =>
      obtain hlt | hle := Nat.lt_or_ge n 10
      · have hdigit : ∀ k < 10, 0 < k → k.digitChar ≠ '0' := by decide
        rw [digits, Nat.toDigits_of_lt_base hlt]
        simpa using hdigit n hlt h
      · have hhead := ih (n / 10) (by omega) (by omega)
        have hne : Nat.toDigits 10 (n / 10) ≠ [] := Nat.toDigits_ne_nil
        rw [digits, Nat.toDigits_of_base_le (by decide) hle, List.head?_append]
        cases hds : (Nat.toDigits 10 (n / 10)).head? with
        | none => exact absurd (List.head?_eq_none_iff.mp hds) hne
        | some c =>
            rw [digits, hds] at hhead
            exact hhead

theorem spanDigits_append {ds rest : List Char} (hds : ∀ d ∈ ds, d.isDigit = true)
    (h : EndsDigits rest) : spanDigits (ds ++ rest) = (ds, rest) := by
  have htake : rest.takeWhile Char.isDigit = [] := by
    cases rest with
    | nil => rfl
    | cons c cs => exact List.takeWhile_cons_of_neg (by simp [h c rfl])
  have hdrop : rest.dropWhile Char.isDigit = rest := by
    cases rest with
    | nil => rfl
    | cons c cs => exact List.dropWhile_cons_of_neg (by simp [h c rfl])
  rw [spanDigits, List.span_eq_takeWhile_dropWhile, List.takeWhile_append_of_pos hds,
    List.dropWhile_append_of_pos hds, htake, hdrop, List.append_nil]

theorem readWhole_digits (n : Nat) {rest : List Char} (h : EndsDigits rest) :
    readWhole (digits n ++ rest) = some (digits n, rest) := by
  have hspan := spanDigits_append (fun _ => isDigit_of_mem_digits (n := n)) h
  obtain ⟨d, ds, hds⟩ := List.exists_cons_of_ne_nil (digits_ne_nil n)
  rw [hds] at hspan ⊢
  obtain rfl | hpos := Nat.eq_zero_or_pos n
  · have hzero : ['0'] = d :: ds := by rw [← hds, digits, Nat.toDigits_zero]
    cases hzero
    rfl
  · have hhead := head?_digits hpos
    rw [hds] at hhead
    unfold readWhole
    split
    · next heq =>
      cases heq
      exact absurd rfl hhead
    · rw [hspan]

theorem readFraction_of_isFraction {fraction rest : List Char} (h : IsFraction fraction)
    (hdigits : EndsDigits rest) (hpoint : rest.head? ≠ some '.') :
    readFraction (fraction ++ rest) = some (fraction, rest) := by
  cases h with
  | none =>
      rw [List.nil_append]
      unfold readFraction
      split
      · exact absurd rfl hpoint
      · rfl
  | @some ds h =>
      obtain ⟨d, ds, rfl⟩ := List.exists_cons_of_ne_nil h.nonempty
      rw [List.cons_append, readFraction, spanDigits_append h.digit hdigits]

theorem readExponentDigits_append (mark : List Char) {ds rest : List Char} (h : AreDigits ds)
    (hdigits : EndsDigits rest) :
    readExponentDigits mark (ds ++ rest) = some (mark ++ ds, rest) := by
  obtain ⟨d, ds, rfl⟩ := List.exists_cons_of_ne_nil h.nonempty
  rw [readExponentDigits, spanDigits_append h.digit hdigits]

theorem readExponent_of_isExponent {exponent rest : List Char} (h : IsExponent exponent)
    (hends : EndsNumber rest) : readExponent (exponent ++ rest) = some (exponent, rest) := by
  cases h with
  | none =>
      rw [List.nil_append]
      unfold readExponent
      split
      · next c rest =>
        obtain ⟨-, -, he, hE⟩ := hends c rfl
        rw [if_neg (by simp [he, hE])]
      · rfl
  | @some mark hmark sign hsign ds h =>
      have hdigits := fun front => readExponentDigits_append front h hends.endsDigits
      obtain rfl | rfl | rfl := hsign
      · -- without a sign a digit follows at once
        have hsign : ∀ c : Char, c.isDigit = false → ∀ cs, ds ++ rest ≠ c :: cs := by
          rintro c hc cs heq
          obtain ⟨d, ds, rfl⟩ := List.exists_cons_of_ne_nil h.nonempty
          obtain rfl := (List.cons.inj heq).1
          exact absurd ((h.digit d List.mem_cons_self).symm.trans hc) (by decide)
        rw [List.nil_append, List.cons_append, readExponent, if_pos hmark]
        · exact hdigits [mark]
        · exact hsign '+' rfl
        · exact hsign '-' rfl
      · exact (if_pos hmark).trans (hdigits [mark, '+'])
      · exact (if_pos hmark).trans (hdigits [mark, '-'])

/-- What stands behind the whole part of a number does not belong to it. -/
theorem endsDigits_fraction {fraction rest : List Char} (h : IsFraction fraction)
    (hrest : EndsDigits rest) : EndsDigits (fraction ++ rest) := by
  cases h with
  | none => exact hrest
  | some =>
      intro c hc
      obtain rfl := Option.some.inj hc
      decide

/-- What stands behind the fraction of a number does not belong to it. -/
theorem head?_exponent {exponent rest : List Char} (h : IsExponent exponent)
    (hends : EndsNumber rest) : ∀ c ∈ (exponent ++ rest).head?, c.isDigit = false ∧ c ≠ '.' := by
  cases h with
  | none => exact fun c hc => ⟨(hends c hc).1, (hends c hc).2.1⟩
  | some hmark =>
      intro c hc
      obtain rfl := Option.some.inj hc
      obtain rfl | rfl := hmark <;> decide

/-- A number without a sign is read up to what stands behind it. -/
theorem readUnsigned_append (whole : Nat) {fraction exponent rest : List Char}
    (hfraction : IsFraction fraction) (hexponent : IsExponent exponent) (hends : EndsNumber rest) :
    readUnsigned (digits whole ++ (fraction ++ exponent) ++ rest) =
      some (if fraction ++ exponent = [] then .natural whole
        else .number (String.ofList (digits whole ++ (fraction ++ exponent))), rest) := by
  have hvalue : Nat.ofDigitChars 10 (digits whole) 0 = whole := Nat.ofDigitChars_ten_toDigits
  have hbehind := head?_exponent hexponent hends
  have hdigits : EndsDigits (exponent ++ rest) := fun c hc => (hbehind c hc).1
  have hpoint : (exponent ++ rest).head? ≠ some '.' := fun h => (hbehind '.' h).2 rfl
  rw [List.append_assoc, List.append_assoc, readUnsigned]
  simp only [readWhole_digits whole (endsDigits_fraction hfraction hdigits),
    readFraction_of_isFraction hfraction hdigits hpoint, readExponent_of_isExponent hexponent hends,
    Option.bind_eq_bind, Option.bind_some, hvalue]
  by_cases hnone : fraction ++ exponent = []
  · obtain ⟨rfl, rfl⟩ := List.append_eq_nil_iff.mp hnone
    rfl
  · have hsome : (fraction.isEmpty && exponent.isEmpty) = false := by
      simpa [List.append_eq_nil_iff] using hnone
    simp [hnone, hsome]

/-- A number that begins with a digit has no sign. -/
theorem readNumber_of_isDigit {c : Char} (cs : List Char) (h : c.isDigit = true) :
    readNumber (c :: cs) = readUnsigned (c :: cs) := by
  have hminus : c ≠ '-' := by
    rintro rfl
    exact absurd h (by decide)
  simp [readNumber, hminus]

theorem exists_digits_append (n : Nat) (cs : List Char) :
    ∃ d ds, d.isDigit = true ∧ digits n ++ cs = d :: ds := by
  obtain ⟨d, ds, hds⟩ := List.exists_cons_of_ne_nil (digits_ne_nil n)
  have hd : d ∈ digits n := hds ▸ List.mem_cons_self
  exact ⟨d, ds ++ cs, isDigit_of_mem_digits hd, by rw [hds]; rfl⟩

theorem readNumber_digits_append (n : Nat) (cs : List Char) :
    readNumber (digits n ++ cs) = readUnsigned (digits n ++ cs) := by
  obtain ⟨d, ds, hd, heq⟩ := exists_digits_append n cs
  rw [heq, readNumber_of_isDigit ds hd]

/-- A natural number is read from its digits. -/
theorem readNumber_digits (n : Nat) {rest : List Char} (h : EndsNumber rest) :
    readNumber (digits n ++ rest) = some (.natural n, rest) := by
  have hread := readUnsigned_append n .none .none h
  rw [readNumber_digits_append]
  simpa using hread

/-- Any other number is kept as it is written. -/
theorem readNumber_number {cs rest : List Char} (hcs : IsNumber cs) (h : EndsNumber rest) :
    readNumber (cs ++ rest) = some (.number (String.ofList cs), rest) := by
  cases hcs with
  | unsigned whole hfraction hexponent hne =>
      have hread := readUnsigned_append whole hfraction hexponent h
      rw [if_neg hne] at hread
      rw [List.append_assoc] at hread ⊢
      rw [readNumber_digits_append, hread]
  | @negative whole fraction exponent hfraction hexponent =>
      have hread := readUnsigned_append whole hfraction hexponent h
      rw [List.cons_append, readNumber, hread, Option.map_some]
      by_cases hnone : fraction ++ exponent = []
      · simp [hnone, negated, numeral]
      · simp [hnone, negated]

/-! ## white space -/

/-- Nothing but white space. -/
def IsPadding (blanks : List Char) : Prop := ∀ c ∈ blanks, c ∈ [' ', '\t', '\n', '\r']

instance (blanks : List Char) : Decidable (IsPadding blanks) :=
  List.decidableBAll (fun c => c ∈ [' ', '\t', '\n', '\r']) blanks

/-- Characters with white space around them. -/
structure Padded where
  before : List Char
  chars : List Char
  after : List Char
  before_blank : IsPadding before := by decide
  after_blank : IsPadding after := by decide

/-- The characters and the white space around them. -/
def Padded.text (p : Padded) : List Char := p.before ++ (p.chars ++ p.after)

theorem skipBlanks_cons {c : Char} (h : isJsonBlank c = false) (cs : List Char) :
    skipBlanks (c :: cs) = c :: cs :=
  List.dropWhile_cons_of_neg (by simp [h])

theorem skipBlanks_padding {blanks : List Char} (h : IsPadding blanks) (cs : List Char) :
    skipBlanks (blanks ++ cs) = skipBlanks cs := by
  have hblank : ∀ c ∈ blanks, isJsonBlank c = true := fun c hc => by
    simpa [isJsonBlank, or_assoc] using h c hc
  exact List.dropWhile_append_of_pos hblank

theorem readValue_skip (fuel : Nat) {cs ds : List Char} (h : skipBlanks cs = skipBlanks ds) :
    readValue fuel cs = readValue fuel ds := by
  cases fuel with
  | zero => rfl
  | succ fuel => rw [readValue, readValue, h]

/-- White space does not belong to a number. -/
theorem endsNumber_padding {blanks rest : List Char} (h : IsPadding blanks)
    (hrest : EndsNumber rest) : EndsNumber (blanks ++ rest) := by
  have hblank : ∀ c ∈ [' ', '\t', '\n', '\r'],
      c.isDigit = false ∧ c ≠ '.' ∧ c ≠ 'e' ∧ c ≠ 'E' := by
    intro c hc
    simp only [List.mem_cons, List.not_mem_nil, or_false] at hc
    obtain rfl | rfl | rfl | rfl := hc <;> decide
  cases blanks with
  | nil => exact hrest
  | cons c cs =>
      intro d hd
      obtain rfl := Option.some.inj hd
      exact hblank c (h c List.mem_cons_self)

theorem endsNumber_cons {c : Char} (h : c.isDigit = false ∧ c ≠ '.' ∧ c ≠ 'e' ∧ c ≠ 'E')
    (cs : List Char) : EndsNumber (c :: cs) := by
  intro d hd
  obtain rfl := Option.some.inj hd
  exact h

/-! ## values -/

/-- A member of an object as written. -/
structure Member where
  name : String
  nameChars : Padded
  value : Json
  valueChars : Padded

/-- The name and the value of a member. -/
def Member.pair (m : Member) : String × Json := (m.name, m.value)

/-- A name, a colon and a value. -/
def Member.text (m : Member) : List Char := m.nameChars.text ++ ':' :: m.valueChars.text

/-- Parts of an array or an object with commas between them. -/
def separated (parts : List (List Char)) : List Char := [','].intercalate parts

/-- A value and characters that stand for it. -/
inductive Spells : Json → List Char → Prop
  | null : Spells .null ['n', 'u', 'l', 'l']
  | bool (value : Bool) :
      Spells (.bool value) (if value then ['t', 'r', 'u', 'e'] else ['f', 'a', 'l', 's', 'e'])
  | natural (n : Nat) : Spells (.natural n) (digits n)
  | number {cs : List Char} (h : IsNumber cs) : Spells (.number (String.ofList cs)) cs
  | text {text : String} {cs : List Char} (h : SpellsQuoted text cs) : Spells (ofText text) cs
  | emptyArray {blanks : List Char} (h : IsPadding blanks) :
      Spells (.array []) ('[' :: (blanks ++ [']']))
  | array {items : List (Json × Padded)} (hne : items ≠ [])
      (h : ∀ item ∈ items, Spells item.1 item.2.chars) :
      Spells (.array (items.map Prod.fst)) ('[' :: (separated (items.map (·.2.text)) ++ [']']))
  | emptyObject {blanks : List Char} (h : IsPadding blanks) :
      Spells (ofMembers []) ('\x7b' :: (blanks ++ ['\x7d']))
  | object {members : List Member} (hne : members ≠ [])
      (hnames : ∀ m ∈ members, SpellsQuoted m.name m.nameChars.chars)
      (h : ∀ m ∈ members, Spells m.value m.valueChars.chars) :
      Spells (ofMembers (members.map Member.pair))
        ('\x7b' :: (separated (members.map Member.text) ++ ['\x7d']))

/-- Characters are read as a value, with more fuel than there are of them. -/
def Reads (v : Json) (cs : List Char) : Prop :=
  ∀ (fuel : Nat) (rest : List Char), EndsNumber rest → cs.length ≤ fuel →
    readValue (fuel + 1) (cs ++ rest) = some (v, rest)

theorem readValue_bracket (fuel : Nat) {cs : List Char} (h : (skipBlanks cs).head? ≠ some ']') :
    readValue (fuel + 1) ('[' :: cs) =
      (readItems fuel cs).map fun (items, rest) => (.array items, rest) := by
  have hopen : skipBlanks ('[' :: cs) = '[' :: cs := rfl
  rw [readValue, hopen]
  split
  case h_2 rest heq =>
    obtain rfl := (List.cons.inj heq).2
    split
    · next hskip => exact absurd (by rw [hskip]; rfl) h
    · rfl
  case h_7 hnot _ _ _ _ => exact absurd rfl (hnot cs)
  all_goals
    next heq => simp at heq

theorem readValue_brace (fuel : Nat) {cs : List Char} (h : (skipBlanks cs).head? ≠ some '\x7d') :
    readValue (fuel + 1) ('\x7b' :: cs) =
      (readMembers fuel cs).map fun (members, rest) => (.object members, rest) := by
  have hopen : skipBlanks ('\x7b' :: cs) = '\x7b' :: cs := rfl
  rw [readValue, hopen]
  split
  case h_3 rest heq =>
    obtain rfl := (List.cons.inj heq).2
    split
    · next hskip => exact absurd (by rw [hskip]; rfl) h
    · rfl
  case h_7 hnot _ _ _ => exact absurd rfl (hnot cs)
  all_goals
    next heq => simp at heq

/-- Whether a character can begin a number. -/
def OpensNumber (c : Char) : Prop := c.isDigit = true ∨ c = '-'

theorem OpensNumber.ne {c d : Char} (h : OpensNumber c) (hdigit : d.isDigit = false)
    (hminus : d ≠ '-') : c ≠ d := by
  rintro rfl
  exact h.elim (fun hc => absurd (hdigit.symm.trans hc) (by decide)) hminus

theorem OpensNumber.not_blank {c : Char} (h : OpensNumber c) : isJsonBlank c = false := by
  simp [isJsonBlank, h.ne (d := ' ') rfl (by decide), h.ne (d := '\t') rfl (by decide),
    h.ne (d := '\n') rfl (by decide), h.ne (d := '\r') rfl (by decide)]

/-- What begins like a number is read as one. -/
theorem readValue_number (fuel : Nat) {c : Char} (cs : List Char) (h : OpensNumber c) :
    readValue (fuel + 1) (c :: cs) = readNumber (c :: cs) := by
  rw [readValue, skipBlanks_cons h.not_blank]
  split
  case h_7 => rfl
  all_goals
    next heq => exact absurd (List.cons.inj heq).1 (h.ne rfl (by decide))

theorem exists_head_digits (n : Nat) (cs : List Char) :
    ∃ c tail, digits n ++ cs = c :: tail ∧ OpensNumber c := by
  obtain ⟨d, ds, hd, hds⟩ := exists_digits_append n cs
  exact ⟨d, ds, hds, .inl hd⟩

theorem IsNumber.exists_head {cs : List Char} (h : IsNumber cs) :
    ∃ c tail, cs = c :: tail ∧ OpensNumber c := by
  cases h with
  | unsigned whole => exact exists_head_digits whole _
  | negative => exact ⟨_, _, rfl, .inr rfl⟩

/-- What stands for a value begins neither with white space nor with a closing bracket. -/
theorem Spells.exists_head {v : Json} {cs : List Char} (h : Spells v cs) :
    ∃ c tail, cs = c :: tail ∧ isJsonBlank c = false ∧ c ≠ ']' := by
  cases h with
  | natural n =>
      obtain ⟨c, tail, heq, hopens⟩ := exists_head_digits n []
      exact ⟨c, tail, by rw [← heq, List.append_nil], hopens.not_blank, hopens.ne rfl (by decide)⟩
  | number h =>
      obtain ⟨c, tail, rfl, hopens⟩ := h.exists_head
      exact ⟨c, tail, rfl, hopens.not_blank, hopens.ne rfl (by decide)⟩
  | text h =>
      obtain ⟨h⟩ := h
      exact ⟨_, _, rfl, rfl, by decide⟩
  | bool value => cases value <;> exact ⟨_, _, rfl, rfl, by decide⟩
  | _ => exact ⟨_, _, rfl, rfl, by decide⟩

/-! ## parts -/

/-- A value is read behind white space. -/
theorem Reads.padded {v : Json} {p : Padded} (h : Reads v p.chars) {fuel : Nat} {rest : List Char}
    (hends : EndsNumber rest) (hfuel : p.text.length < fuel) :
    readValue fuel (p.text ++ rest) = some (v, p.after ++ rest) := by
  obtain ⟨fuel, rfl⟩ : ∃ f, fuel = f + 1 := ⟨fuel - 1, by omega⟩
  have hlength : p.chars.length ≤ fuel := by
    simp only [Padded.text, List.length_append] at hfuel
    omega
  have htext : p.text ++ rest = p.before ++ (p.chars ++ (p.after ++ rest)) := by
    simp [Padded.text]
  rw [htext, readValue_skip _ (skipBlanks_padding p.before_blank _),
    h fuel _ (endsNumber_padding p.after_blank hends) hlength]

theorem separated_singleton {α : Type} (f : α → List Char) (part : α) :
    separated ([part].map f) = f part := by
  simp [separated]

theorem separated_cons {α : Type} (f : α → List Char) (part next : α) (parts : List α) :
    separated ((part :: next :: parts).map f) =
      f part ++ ',' :: separated ((next :: parts).map f) := by
  simp [separated, List.intercalate_cons_cons]

theorem readItems_separated {items : List (Json × Padded)} (hne : items ≠ [])
    (h : ∀ item ∈ items, Reads item.1 item.2.chars) {fuel : Nat}
    (hfuel : (separated (items.map (·.2.text))).length + 1 < fuel) (rest : List Char) :
    readItems fuel (separated (items.map (·.2.text)) ++ ']' :: rest) =
      some (items.map Prod.fst, rest) := by
  induction items generalizing fuel with
  | nil => exact absurd rfl hne
  | cons item items ih =>
      obtain ⟨fuel, rfl⟩ : ∃ f, fuel = f + 1 := ⟨fuel - 1, by omega⟩
      have hitem := h item List.mem_cons_self
      cases items with
      | nil =>
          rw [separated_singleton] at hfuel ⊢
          have hclose : skipBlanks (']' :: rest) = ']' :: rest := rfl
          rw [readItems, hitem.padded (endsNumber_cons (by decide) _) (by omega)]
          simp only [skipBlanks_padding item.2.after_blank, hclose]
          rfl
      | cons next items =>
          rw [separated_cons] at hfuel ⊢
          simp only [List.length_append, List.length_cons] at hfuel
          have hcomma : ∀ cs, skipBlanks (',' :: cs) = ',' :: cs := fun _ => rfl
          have hlength : (separated ((next :: items).map (·.2.text))).length + 1 < fuel := by omega
          have hnext := ih (List.cons_ne_nil _ _)
            (fun i hi => h i (List.mem_cons_of_mem item hi)) hlength
          rw [List.append_assoc, List.cons_append, readItems,
            hitem.padded (endsNumber_cons (by decide) _) (by omega)]
          simp only [skipBlanks_padding item.2.after_blank, hcomma, hnext, Option.map_some]
          rfl

/-- What is read of an object behind one of its members. -/
def readBehind (fuel : Nat) (m : Member) (cs : List Char) :
    Option (List (Option String × Json) × List Char) :=
  match skipBlanks cs with
  | ',' :: rest =>
    (readMembers fuel rest).map fun (members, rest) => ((some m.name, m.value) :: members, rest)
  | '\x7d' :: rest => some ([(some m.name, m.value)], rest)
  | _ => none

/-- A member is read up to what stands behind it. -/
theorem readMembers_member {m : Member} (hname : SpellsQuoted m.name m.nameChars.chars)
    (hvalue : Reads m.value m.valueChars.chars) {fuel : Nat} {rest : List Char}
    (hends : EndsNumber rest) (hfuel : m.text.length < fuel) :
    readMembers (fuel + 1) (m.text ++ rest) = readBehind fuel m rest := by
  obtain ⟨inner, hquote, hread⟩ :=
    readText_spelled (m.nameChars.after ++ (':' :: m.valueChars.text ++ rest)) hname
  have htext : skipBlanks (m.text ++ rest) = '"' :: inner := by
    have hskip : skipBlanks ('"' :: inner) = '"' :: inner := rfl
    rw [← hskip, ← hquote, Member.text, Padded.text, List.append_assoc, List.append_assoc,
      skipBlanks_padding m.nameChars.before_blank, List.append_assoc]
  have hcolon : ∀ cs, skipBlanks (':' :: cs) = ':' :: cs := fun _ => rfl
  have hlength : m.valueChars.text.length < fuel := by
    simp only [Member.text, List.length_append, List.length_cons] at hfuel
    omega
  rw [readMembers, htext]
  simp only [hread, skipBlanks_padding m.nameChars.after_blank, List.cons_append, hcolon,
    hvalue.padded hends hlength, skipBlanks_padding m.valueChars.after_blank]
  rfl

theorem readMembers_separated {members : List Member} (hne : members ≠ [])
    (hnames : ∀ m ∈ members, SpellsQuoted m.name m.nameChars.chars)
    (h : ∀ m ∈ members, Reads m.value m.valueChars.chars) {fuel : Nat}
    (hfuel : (separated (members.map Member.text)).length + 1 < fuel) (rest : List Char) :
    readMembers fuel (separated (members.map Member.text) ++ '\x7d' :: rest) =
      some (members.map fun m => (some m.name, m.value), rest) := by
  induction members generalizing fuel with
  | nil => exact absurd rfl hne
  | cons m members ih =>
      obtain ⟨fuel, rfl⟩ : ∃ f, fuel = f + 1 := ⟨fuel - 1, by omega⟩
      have hname := hnames m List.mem_cons_self
      have hvalue := h m List.mem_cons_self
      cases members with
      | nil =>
          rw [separated_singleton] at hfuel ⊢
          rw [readMembers_member hname hvalue (endsNumber_cons (by decide) _) (by omega)]
          rfl
      | cons next members =>
          rw [separated_cons] at hfuel ⊢
          simp only [List.length_append, List.length_cons] at hfuel
          have hcomma : ∀ cs, skipBlanks (',' :: cs) = ',' :: cs := fun _ => rfl
          have hlength : (separated ((next :: members).map Member.text)).length + 1 < fuel := by
            omega
          have hnext := ih (List.cons_ne_nil _ _)
            (fun m' hm => hnames m' (List.mem_cons_of_mem m hm))
            (fun m' hm => h m' (List.mem_cons_of_mem m hm)) hlength
          rw [List.append_assoc, List.cons_append,
            readMembers_member hname hvalue (endsNumber_cons (by decide) _) (by omega), readBehind]
          simp only [hcomma, hnext, Option.map_some]
          rfl

/-- The first part stands in front of the others. -/
theorem exists_separated_append {α : Type} (f : α → List Char) (part : α) (parts : List α)
    (cs : List Char) : ∃ behind, separated ((part :: parts).map f) ++ cs = f part ++ behind := by
  cases parts with
  | nil => exact ⟨cs, by rw [separated_singleton]⟩
  | cons next parts => exact ⟨_, by rw [separated_cons, List.append_assoc]⟩

/-- Items do not begin with a closing bracket. -/
theorem head?_items {items : List (Json × Padded)} (hne : items ≠ [])
    (h : ∀ item ∈ items, Spells item.1 item.2.chars) (cs : List Char) :
    (skipBlanks (separated (items.map (·.2.text)) ++ cs)).head? ≠ some ']' := by
  obtain ⟨item, items, rfl⟩ := List.exists_cons_of_ne_nil hne
  obtain ⟨behind, hbehind⟩ :=
    exists_separated_append (fun i : Json × Padded => i.2.text) item items cs
  obtain ⟨c, tail, htail, hblank, hc⟩ := (h item List.mem_cons_self).exists_head
  rw [hbehind, Padded.text, List.append_assoc, skipBlanks_padding item.2.before_blank, htail]
  simpa [skipBlanks_cons hblank] using hc

/-- Members do not begin with a closing brace. -/
theorem head?_members {members : List Member} (hne : members ≠ [])
    (hnames : ∀ m ∈ members, SpellsQuoted m.name m.nameChars.chars) (cs : List Char) :
    (skipBlanks (separated (members.map Member.text) ++ cs)).head? ≠ some '\x7d' := by
  obtain ⟨m, members, rfl⟩ := List.exists_cons_of_ne_nil hne
  obtain ⟨behind, hbehind⟩ := exists_separated_append Member.text m members cs
  obtain ⟨inner, hinner, -⟩ := readText_spelled
    (m.nameChars.after ++ (':' :: m.valueChars.text ++ behind)) (hnames m List.mem_cons_self)
  rw [hbehind, Member.text, Padded.text, List.append_assoc, List.append_assoc,
    skipBlanks_padding m.nameChars.before_blank, List.append_assoc, hinner]
  exact fun heq => absurd (Option.some.inj heq) (by decide)

/-! ## whole texts -/

/-- A value is read with more fuel than characters. -/
theorem reads_of_spells {v : Json} {cs : List Char} (h : Spells v cs) : Reads v cs := by
  induction h with
  | null =>
      intro fuel rest _ hfuel
      rfl
  | bool value =>
      intro fuel rest _ hfuel
      cases value <;> rfl
  | natural n =>
      intro fuel rest hends hfuel
      obtain ⟨c, tail, heq, hopens⟩ := exists_head_digits n rest
      rw [heq, readValue_number fuel tail hopens, ← heq, readNumber_digits n hends]
  | @number cs h =>
      intro fuel rest hends hfuel
      have hread := readNumber_number h hends
      obtain ⟨c, tail, rfl, hopens⟩ := h.exists_head
      rw [List.cons_append, readValue_number fuel _ hopens, ← List.cons_append, hread]
  | @text text cs h =>
      intro fuel rest _ hfuel
      obtain ⟨inner, hinner, hread⟩ := readText_spelled rest h
      have hskip : skipBlanks ('"' :: inner) = '"' :: inner := rfl
      rw [hinner, readValue, hskip]
      simp only [hread, Option.map_some]
      rfl
  | @emptyArray blanks h =>
      intro fuel rest _ hfuel
      have hopen : ∀ cs, skipBlanks ('[' :: cs) = '[' :: cs := fun _ => rfl
      have hclose : skipBlanks (']' :: rest) = ']' :: rest := rfl
      rw [List.cons_append, List.append_assoc, List.singleton_append, readValue, hopen]
      simp only [skipBlanks_padding h, hclose]
  | @array items hne h ih =>
      intro fuel rest _ hfuel
      simp only [List.length_cons, List.length_append, List.length_nil] at hfuel
      rw [List.cons_append, List.append_assoc, List.singleton_append,
        readValue_bracket fuel (head?_items hne h _), readItems_separated hne ih (by omega)]
      rfl
  | @emptyObject blanks h =>
      intro fuel rest _ hfuel
      have hopen : ∀ cs, skipBlanks ('\x7b' :: cs) = '\x7b' :: cs := fun _ => rfl
      have hclose : skipBlanks ('\x7d' :: rest) = '\x7d' :: rest := rfl
      rw [List.cons_append, List.append_assoc, List.singleton_append, readValue, hopen]
      simp only [skipBlanks_padding h, hclose]
      rfl
  | @object members hne hnames h ih =>
      intro fuel rest _ hfuel
      simp only [List.length_cons, List.length_append, List.length_nil] at hfuel
      rw [List.cons_append, List.append_assoc, List.singleton_append,
        readValue_brace fuel (head?_members hne hnames _),
        readMembers_separated hne hnames ih (by omega), ofMembers, List.map_map]
      rfl

/-- A text that is one value, with white space around it, is read. -/
theorem parse?_of_spells {v : Json} {p : Padded} (h : Spells v p.chars) :
    parse? (String.ofList p.text) = some v := by
  have hends : EndsNumber [] := fun _ hc => by cases hc
  have hfuel : p.text.length < 2 * p.text.length + 1 := by omega
  have hread := (reads_of_spells h).padded hends hfuel
  rw [List.append_nil, List.append_nil] at hread
  have hskip : skipBlanks p.after = [] := by
    have := skipBlanks_padding p.after_blank []
    rwa [List.append_nil] at this
  unfold parse?
  simp only [String.toList_ofList, hread, hskip]
  rfl

end Concordance.Json
