/-!
# Concordance.Text.Blank

White space as Unicode's `White_Space` property gives it, and trimming by it.

* `trimEnd_eq_nil_iff` — only blank text trims to nothing;
* `getLast?_trimEnd` — trimmed text never ends in a blank.
-/

namespace Concordance.Text

/-- The characters with Unicode's `White_Space` property. -/
def isBlank (c : Char) : Bool :=
  let n := c.toNat
  (9 ≤ n && n ≤ 13) || n == 0x20 || n == 0x85 || n == 0xA0 || n == 0x1680 ||
    (0x2000 ≤ n && n ≤ 0x200A) || n == 0x2028 || n == 0x2029 || n == 0x202F || n == 0x205F ||
    n == 0x3000

/-- Text without the blanks in front. -/
def trimStart (cs : List Char) : List Char := cs.dropWhile isBlank

/-- One step of `trimEnd`: a blank is kept only in front of something kept. -/
def keepBefore (c : Char) (kept : List Char) : List Char :=
  if kept.isEmpty && isBlank c then [] else c :: kept

/-- Text without the blanks at its end. -/
def trimEnd (cs : List Char) : List Char := cs.foldr keepBefore []

/-- Text without the blanks on both sides. -/
def trim (cs : List Char) : List Char := trimEnd (trimStart cs)

@[simp] theorem trimEnd_nil : trimEnd [] = [] := rfl

theorem trimEnd_cons (c : Char) (cs : List Char) :
    trimEnd (c :: cs) = keepBefore c (trimEnd cs) := rfl

/-- Only blank text trims to nothing. -/
theorem trimEnd_eq_nil_iff {cs : List Char} : trimEnd cs = [] ↔ ∀ c ∈ cs, isBlank c = true := by
  induction cs with
  | nil => simp
  | cons c cs ih =>
    rw [trimEnd_cons, keepBefore]
    cases h : trimEnd cs with
    | nil => simp_all
    | cons d ds =>
      have hne : ¬ ∀ c ∈ cs, isBlank c = true := fun hall => by simp [ih.2 hall] at h
      simp only [List.isEmpty_cons, Bool.false_and, Bool.false_eq_true, if_false, reduceCtorEq,
        false_iff, List.mem_cons, forall_eq_or_imp, not_and]
      exact fun _ => hne

/-- Trimmed text never ends in a blank. -/
theorem getLast?_trimEnd {cs : List Char} {c : Char} (h : (trimEnd cs).getLast? = some c) :
    isBlank c = false := by
  induction cs with
  | nil => simp at h
  | cons d cs ih =>
    rw [trimEnd_cons, keepBefore] at h
    cases ht : trimEnd cs with
    | nil =>
      simp only [ht, List.isEmpty_nil, Bool.true_and] at h
      split at h <;> simp_all
    | cons e es =>
      refine ih ?_
      simpa [ht, List.getLast?_cons_cons] using h

end Concordance.Text
