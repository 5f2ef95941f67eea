import Concordance.Proofs.Analyzer.Runs
import Concordance.Query.Clause
import Mathlib.Data.List.TakeDrop
import Mathlib.Data.List.TakeWhile

/-!
# Concordance.Proofs.Query.Word

A query of one word.  Letters and digits have no meaning of their own in either way of reading, so a
word is read as itself, unless it is one of the words that cannot be looked for.

* `Classic.parse?_word`, `Lenient.parse_word` — the tree of a word;
* `parseClassic_word`, `parseLenient_word` — a word asks for its tokens in the default field.
-/

namespace Concordance.Query

open Analyzer (IsWord)
open Text (isAlphanumeric isBlank)

/-! ## letters and digits -/

/-- The code points of white space. -/
def blankPoints : List Nat :=
  [9, 10, 11, 12, 13, 0x20, 0x85, 0xA0, 0x1680, 0x2000, 0x2001, 0x2002, 0x2003, 0x2004, 0x2005,
    0x2006, 0x2007, 0x2008, 0x2009, 0x200A, 0x2028, 0x2029, 0x202F, 0x205F, 0x3000]

theorem toNat_mem_blankPoints {c : Char} (h : isBlank c = true) : c.toNat ∈ blankPoints := by
  simp only [isBlank, Bool.or_eq_true, Bool.and_eq_true, decide_eq_true_eq, beq_iff_eq] at h
  simp only [blankPoints, List.mem_cons, List.not_mem_nil, or_false]
  omega

/-- The characters that begin, end or join parts of a query. -/
def marks : List Char :=
  ['+', '-', '^', '\x60', ':', '\x7b', '\x7d', '"', '\'', '[', ']', '(', ')', '!', '\\', '*', ' ',
    '\t', '\n', '\r']

section Character

variable {c : Char} (h : isAlphanumeric c = true)
include h

theorem isBlank_of_isAlphanumeric : isBlank c = false := by
  have hpoints : blankPoints.all (fun n => !isAlphanumeric (Char.ofNat n)) = true := by
    decide +kernel
  cases hblank : isBlank c with
  | false => rfl
  | true =>
      have hc := List.all_eq_true.mp hpoints _ (toNat_mem_blankPoints hblank)
      rw [Char.ofNat_toNat, h] at hc
      cases hc

theorem not_mem_marks : c ∉ marks := by
  have hmarks : marks.all (!isAlphanumeric ·) = true := by decide +kernel
  intro hmem
  have hc := List.all_eq_true.mp hmarks c hmem
  rw [h] at hc
  cases hc

theorem isGap_of_isAlphanumeric : isGap c = false := by
  have hmarks := not_mem_marks h
  simp_all [marks, isGap]

theorem isSpecial_of_isAlphanumeric : isSpecial c = false := by
  have hmarks := not_mem_marks h
  simp_all [marks, isSpecial]

theorem continuesWord_of_isAlphanumeric : Classic.continuesWord c = true := by
  have hmarks := not_mem_marks h
  simp_all [marks, Classic.continuesWord, isBlank_of_isAlphanumeric h]

theorem beginsWord_of_isAlphanumeric : Classic.beginsWord c = true := by
  have hmarks := not_mem_marks h
  simp_all [marks, Classic.beginsWord, continuesWord_of_isAlphanumeric h]

theorem inWord_of_isAlphanumeric : Lenient.inWord c = true := by
  have hmarks := not_mem_marks h
  simp_all [marks, Lenient.inWord, isBlank_of_isAlphanumeric h]

end Character

/-! ## what a word is not -/

section Word

variable {cs : List Char} (h : ∀ c ∈ cs, isAlphanumeric c = true)
include h

theorem skipGaps_word : skipGaps cs = cs := by
  cases cs with
  | nil => rfl
  | cons c cs =>
      have hc := isGap_of_isAlphanumeric (h c (by simp))
      exact List.dropWhile_cons_of_neg (by simp [hc])

theorem gaps?_word : gaps? cs = none := by
  cases cs with
  | nil => rfl
  | cons c cs => simp [gaps?, isGap_of_isAlphanumeric (h c (by simp))]

theorem sign_word : sign cs = (none, cs) := by
  unfold sign
  split
  · exact absurd (not_mem_marks (h '-' (by simp))) (by decide)
  · exact absurd (not_mem_marks (h '+' (by simp))) (by decide)
  · rfl

/-- What begins with a word and a mark does not stand in front. -/
theorem after?_word {word : String} {c : Char} (hc : c ∈ word.toList) (hmark : c ∈ marks) :
    after? word cs = none := by
  refine if_neg fun hprefix => ?_
  have hmem : c ∈ cs := (List.isPrefixOf_iff_prefix.mp hprefix).subset hc
  exact not_mem_marks (h c hmem) hmark

theorem operator?_word : operator? cs = none := by
  have hand : after? "AND " cs = none := after?_word h (c := ' ') (by decide) (by decide)
  have hor : after? "OR " cs = none := after?_word h (c := ' ') (by decide) (by decide)
  rw [operator?, hand, hor]
  rfl

/-- A name has its colon. -/
theorem nameRest_word (before : List Char) : nameRest before cs = none := by
  induction cs generalizing before with
  | nil => rfl
  | cons c cs ih =>
      have hc := h c (by simp)
      have hmarks := not_mem_marks hc
      unfold nameRest
      split
      · cases cs <;> simp_all
      · simp_all [marks]
      · simp_all [marks]
      · simp_all [marks]
      · next heq =>
        cases heq
        rw [isSpecial_of_isAlphanumeric hc]
        exact ih (fun d hd => h d (by simp [hd])) _

theorem fieldName?_word : fieldName? cs = none := by
  unfold fieldName?
  split
  · exact absurd (not_mem_marks (h '\\' (by simp))) (by decide)
  · next c cs _ =>
    have hc := h c (by simp)
    have hdash : c ≠ '-' := fun heq => not_mem_marks hc (heq ▸ by decide)
    have hcs : ∀ d ∈ cs, isAlphanumeric d = true := fun d hd => h d (by simp [hd])
    have hname := nameRest_word hcs [c]
    simp [isSpecial_of_isAlphanumeric hc, hdash, hname]
  · rfl

end Word

/-! ## strict reading -/

namespace Classic

section Word

variable {cs : List Char} (h : IsWord cs)
include h

theorem word?_word (hreserved : String.ofList cs ∉ reserved) :
    word? cs = some (String.ofList cs, []) := by
  obtain ⟨hne, hcs⟩ := h
  cases cs with
  | nil => exact absurd rfl hne
  | cons c cs =>
      have hcontinues : ∀ d ∈ cs, continuesWord d = true := fun d hd =>
        continuesWord_of_isAlphanumeric (hcs d (by simp [hd]))
      have htake : cs.takeWhile continuesWord = cs := List.takeWhile_eq_self_iff.mpr hcontinues
      have hdrop : cs.dropWhile continuesWord = [] := List.dropWhile_eq_nil_iff.mpr hcontinues
      rw [word?, if_pos (beginsWord_of_isAlphanumeric (hcs c (by simp))), htake, hdrop]
      exact if_neg (by simpa using hreserved)

theorem text?_word (hreserved : String.ofList cs ∉ reserved) :
    text? cs = some (String.ofList cs, []) := by
  have hword := word?_word h hreserved
  have hnumber : negativeNumber? cs = none := by
    unfold negativeNumber?
    split
    · exact absurd (not_mem_marks (h.alphanumeric '-' (by simp))) (by decide)
    · rfl
  unfold text?
  rw [hnumber]
  dsimp only
  split
  · exact absurd (not_mem_marks (h.alphanumeric '\'' (by simp))) (by decide)
  · exact absurd (not_mem_marks (h.alphanumeric '"' (by simp))) (by decide)
  · exact hword

theorem literal?_word (hreserved : String.ofList cs ∉ reserved) :
    literal? cs = some (.literal ⟨none, String.ofList cs⟩, []) := by
  simp only [literal?, fieldName?_word h.alphanumeric, text?_word h hreserved]

theorem leaf?_word (hreserved : String.ofList cs ∉ reserved) (fuel : Nat) :
    leaf? (fuel + 1) cs = some (.literal ⟨none, String.ofList cs⟩, []) := by
  have hliteral := literal?_word h hreserved
  -- what is left behind a sign has no white space in front either
  have hnot : (after? "NOT" cs).bind gaps? = none := by
    unfold after?
    split
    · exact gaps?_word fun c hc => h.alphanumeric c (List.mem_of_mem_drop hc)
    · rfl
  unfold leaf?
  split
  · exact absurd (not_mem_marks (h.alphanumeric '(' (by simp))) (by decide)
  · exact absurd (not_mem_marks (h.alphanumeric '*' (by simp))) (by decide)
  · rw [hnot]
    exact hliteral

theorem part?_word (hreserved : String.ofList cs ∉ reserved) (fuel : Nat) :
    part? (fuel + 2) cs = some (.literal ⟨none, String.ofList cs⟩, []) := by
  rw [part?, leaf?_word h hreserved]
  rfl

theorem query?_word (hreserved : String.ofList cs ∉ reserved) (fuel : Nat) :
    query? (fuel + 3) cs = some (.literal ⟨none, String.ofList cs⟩, []) := by
  have hmore : moreParts (fuel + 2) [] = ([], []) := rfl
  rw [query?]
  simp only [skipGaps_word h.alphanumeric, part?_word h hreserved, sign_word h.alphanumeric]
  simp [gaps?, hmore, listed, Tree.single, skipGaps]

end Word

/-- A word is read as itself. -/
theorem parse?_word {word : String} (h : IsWord word.toList) (hreserved : word ∉ reserved) :
    parse? word = some (.literal ⟨none, word⟩) := by
  have hquery : query? (fuelFor word.toList) word.toList =
      some (.literal ⟨none, word⟩, []) := by
    have hread := query?_word h (by rwa [String.ofList_toList]) (4 * word.toList.length + 1)
    rwa [String.ofList_toList] at hread
  simp only [parse?, skipGaps_word h.alphanumeric, hquery]
  rfl

end Classic

/-! ## forgiving reading -/

namespace Lenient

/-- Nothing more is read at the end of a text. -/
theorem moreParts_nil (fuel : Nat) : moreParts fuel [] = ⟨[], 0, []⟩ := by
  have hleaf : ∀ fuel, (leaf fuel []).rest = [] := fun fuel => by cases fuel <;> rfl
  cases fuel with
  | zero => rfl
  | succ fuel =>
      have hpart : (part fuel []).rest = [] := by
        cases fuel with
        | zero => rfl
        | succ fuel =>
            show (boostAfter (leaf fuel []).rest).2 = []
            rw [hleaf]
            rfl
      have hstart : skipGaps [] = [] := rfl
      simp [moreParts, hstart, hpart]

section Word

variable {cs : List Char} (h : IsWord cs)
include h

theorem word_word : word cs = ⟨some (String.ofList cs), 0, []⟩ := by
  have hin : ∀ c ∈ cs, inWord c = true := fun c hc => inWord_of_isAlphanumeric (h.alphanumeric c hc)
  have hspan : (skipGaps cs).span inWord = (cs, []) := by
    rw [skipGaps_word h.alphanumeric, List.span_eq_takeWhile_dropWhile,
      List.takeWhile_eq_self_iff.mpr hin, List.dropWhile_eq_nil_iff.mpr hin]
  unfold word
  split
  · next hnil =>
    rw [hspan] at hnil
    exact absurd (congrArg Prod.fst hnil) h.ne_nil
  · next heq =>
    cases hspan.symm.trans heq
    rfl

theorem literal_word : literal cs = ⟨some (.literal ⟨none, String.ofList cs⟩), 0, []⟩ := by
  have hword := word_word h
  have htext : text cs = ⟨some (String.ofList cs), 0, []⟩ := by
    unfold text
    split
    · exact absurd (not_mem_marks (h.alphanumeric '"' (by simp))) (by decide)
    · exact absurd (not_mem_marks (h.alphanumeric '\'' (by simp))) (by decide)
    · exact hword
  have hgroup : groupStart? cs = none := by rw [groupStart?, fieldName?_word h.alphanumeric]
  simp only [literal, hgroup, fieldName?_word h.alphanumeric, skipGaps_word h.alphanumeric, htext]
  rfl

theorem leaf_word (fuel : Nat) :
    leaf (fuel + 1) cs = ⟨some (.literal ⟨none, String.ofList cs⟩), 0, []⟩ := by
  have hliteral := literal_word h
  have hnot : after? "NOT " cs = none :=
    after?_word h.alphanumeric (c := ' ') (by decide) (by decide)
  unfold leaf
  split
  · exact absurd (not_mem_marks (h.alphanumeric '(' (by simp))) (by decide)
  · exact absurd (not_mem_marks (h.alphanumeric '*' (by simp))) (by decide)
  · rw [hnot]
    exact hliteral

theorem part_word (fuel : Nat) :
    part (fuel + 2) cs = ⟨some ⟨none, none, .literal ⟨none, String.ofList cs⟩⟩, 0, []⟩ := by
  simp only [part, operator?_word h.alphanumeric, skipGaps_word h.alphanumeric,
    sign_word h.alphanumeric, leaf_word h]
  rfl

theorem query_word (fuel : Nat) :
    query (fuel + 3) cs = ⟨.literal ⟨none, String.ofList cs⟩, 0, []⟩ := by
  rw [query, skipGaps_word h.alphanumeric, part_word h]
  simp only [Read.bind, moreParts_nil]
  rfl

end Word

/-- A word is read as itself, and without a mistake. -/
theorem parse_word {word : String} (h : IsWord word.toList) :
    parse word = (.literal ⟨none, word⟩, 0) := by
  have hblank : ¬word.toList.all isBlank = true := by
    intro hall
    obtain ⟨c, cs, hcs⟩ := List.exists_cons_of_ne_nil h.ne_nil
    have hc : c ∈ word.toList := by simp [hcs]
    have hnot := isBlank_of_isAlphanumeric (h.alphanumeric c hc)
    rw [List.all_eq_true.mp hall c hc] at hnot
    cases hnot
  have hquery : query (fuelFor word.toList) word.toList = ⟨.literal ⟨none, word⟩, 0, []⟩ := by
    have hread := query_word h (4 * word.toList.length + 1)
    rwa [String.ofList_toList] at hread
  simp only [parse, if_neg hblank, hquery]
  rfl

end Lenient

/-! ## what a word asks for -/

/-- A query for tokens is not mended, and nothing of it is trimmed. -/
theorem settle_ofTokens (field : TextField) (tokens : List Token) :
    settle (ofTokens field tokens) [] = (ofTokens field tokens, []) ∧
      (ofTokens field tokens).trim = ofTokens field tokens := by
  rcases tokens with _ | ⟨t, _ | ⟨u, tokens⟩⟩
  · exact ⟨rfl, rfl⟩
  · simp [ofTokens, settle, isNothing, onlyExcludes, trim]
  · simp [ofTokens, settle, isNothing, onlyExcludes, trim]

section Word

variable {word : String} (h : IsWord word.toList) (a : Analyzer) (field : TextField)
include h

/-- Read strictly, a word asks for its tokens in the default field. -/
theorem parseClassic_word (hreserved : word ∉ Classic.reserved) :
    parseClassic a field word = .ok (ofTokens field (a.tokens field word)) := by
  obtain ⟨hsettle, htrim⟩ := settle_ofTokens field (a.tokens field word)
  simp only [parseClassic, Classic.parse?_word h hreserved, ofTree, ofLiteral, ofText, hsettle,
    htrim]

/-- Read leniently, a word asks for its tokens in the default field. -/
theorem parseLenient_word :
    parseLenient a field word = (ofTokens field (a.tokens field word), 0) := by
  obtain ⟨hsettle, htrim⟩ := settle_ofTokens field (a.tokens field word)
  simp only [parseLenient, Lenient.parse_word h, ofTree, ofLiteral, ofText, hsettle, htrim]
  rfl

end Word

end Concordance.Query
