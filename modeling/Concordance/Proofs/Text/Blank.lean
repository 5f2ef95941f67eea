import Concordance.Text.Blank

/-!
# Concordance.Proofs.Text.Blank

What trimming leaves: everything that is not blank, and no blank at either end.

* `ink_trim` — nothing but blanks is lost;
* `trim_trim` — trimmed text stays as it is.
-/

namespace Concordance.Text

/-- The characters of a text that are not blank. -/
def ink (cs : List Char) : List Char := cs.filter (!isBlank ·)

@[simp] theorem ink_nil : ink [] = [] := rfl

@[simp] theorem ink_append (cs ds : List Char) : ink (cs ++ ds) = ink cs ++ ink ds :=
  List.filter_append cs ds

theorem ink_cons_blank {c : Char} (h : isBlank c = true) (cs : List Char) :
    ink (c :: cs) = ink cs := List.filter_cons_of_neg (by simp [h])

theorem ink_cons {c : Char} (h : isBlank c = false) (cs : List Char) :
    ink (c :: cs) = c :: ink cs := List.filter_cons_of_pos (by simp [h])

/-- A character that is not blank is kept. -/
theorem ink_ne_nil {cs : List Char} {c : Char} (hmem : c ∈ cs) (h : isBlank c = false) :
    ink cs ≠ [] := List.ne_nil_of_mem (List.mem_filter.mpr ⟨hmem, by simp [h]⟩)

/-! ## blanks in front -/

theorem trimStart_cons_blank {c : Char} (h : isBlank c = true) (cs : List Char) :
    trimStart (c :: cs) = trimStart cs := List.dropWhile_cons_of_pos h

theorem trimStart_cons {c : Char} (h : isBlank c = false) (cs : List Char) :
    trimStart (c :: cs) = c :: cs := List.dropWhile_cons_of_neg (by simp [h])

theorem ink_trimStart (cs : List Char) : ink (trimStart cs) = ink cs := by
  induction cs with
  | nil => rfl
  | cons c cs ih =>
      cases h : isBlank c with
      | false => rw [trimStart_cons h]
      | true => rw [trimStart_cons_blank h, ih, ink_cons_blank h]

/-- Text without blanks in front is empty or begins with something else. -/
theorem trimStart_cases (cs : List Char) :
    trimStart cs = [] ∨ ∃ c rest, trimStart cs = c :: rest ∧ isBlank c = false := by
  cases h : trimStart cs with
  | nil => exact .inl rfl
  | cons c rest =>
      refine .inr ⟨c, rest, rfl, ?_⟩
      have hhead := List.head?_dropWhile_not isBlank cs
      rw [trimStart] at h
      rwa [h] at hhead

/-! ## blanks at the end -/

theorem trimEnd_cons_ink {c : Char} (h : isBlank c = false) (cs : List Char) :
    trimEnd (c :: cs) = c :: trimEnd cs := by
  rw [trimEnd_cons, keepBefore, h, Bool.and_false, if_neg Bool.false_ne_true]

theorem trimEnd_cons_of_ne_nil {cs : List Char} (h : trimEnd cs ≠ []) (c : Char) :
    trimEnd (c :: cs) = c :: trimEnd cs := by
  rw [trimEnd_cons, keepBefore, List.isEmpty_eq_false_iff.mpr h, Bool.false_and,
    if_neg Bool.false_ne_true]

theorem isPrefix_trimEnd (cs : List Char) : trimEnd cs <+: cs := by
  induction cs with
  | nil => exact List.prefix_rfl
  | cons c cs ih =>
      rw [trimEnd_cons, keepBefore]
      split
      · exact List.nil_prefix
      · exact (List.prefix_cons_inj c).mpr ih

theorem ink_trimEnd (cs : List Char) : ink (trimEnd cs) = ink cs := by
  induction cs with
  | nil => rfl
  | cons c cs ih =>
      cases h : isBlank c with
      | false => rw [trimEnd_cons_ink h, ink_cons h, ink_cons h, ih]
      | true =>
          rw [ink_cons_blank h, ← ih]
          by_cases hnil : trimEnd cs = []
          · rw [trimEnd_cons, keepBefore, hnil, h]
            rfl
          · rw [trimEnd_cons_of_ne_nil hnil, ink_cons_blank h]

/-- What ends in something else than a blank stays as it is. -/
theorem trimEnd_eq_self {cs : List Char} (h : ∀ c, cs.getLast? = some c → isBlank c = false) :
    trimEnd cs = cs := by
  induction cs with
  | nil => rfl
  | cons c cs ih =>
      cases cs with
      | nil => rw [trimEnd_cons_ink (h c rfl), trimEnd_nil]
      | cons d ds =>
          have hrest : trimEnd (d :: ds) = d :: ds := ih fun e he => h e (by
            rwa [List.getLast?_cons_cons])
          rw [trimEnd_cons_of_ne_nil (by simp [hrest]), hrest]

/-- Blanks at the end make no difference. -/
theorem trimEnd_append_blanks {blanks : List Char} (h : ∀ c ∈ blanks, isBlank c = true)
    (cs : List Char) : trimEnd (cs ++ blanks) = trimEnd cs := by
  have hblanks : blanks.foldr keepBefore [] = [] := trimEnd_eq_nil_iff.mpr h
  rw [trimEnd, List.foldr_append, hblanks, trimEnd]

/-- Text in front of something that is kept is kept. -/
theorem trimEnd_append_of_ne_nil {ds : List Char} (h : trimEnd ds ≠ []) (cs : List Char) :
    trimEnd (cs ++ ds) = cs ++ trimEnd ds := by
  induction cs with
  | nil => rfl
  | cons c cs ih =>
      have hne : trimEnd (cs ++ ds) ≠ [] := by
        rw [ih]
        exact List.append_ne_nil_of_right_ne_nil cs h
      rw [List.cons_append, trimEnd_cons_of_ne_nil hne, ih, List.cons_append]

/-! ## blanks on both sides -/

theorem trim_cons_blank {c : Char} (h : isBlank c = true) (cs : List Char) :
    trim (c :: cs) = trim cs := by
  rw [trim, trimStart_cons_blank h, trim]

/-- Nothing but blanks is lost. -/
theorem ink_trim (cs : List Char) : ink (trim cs) = ink cs := by
  rw [trim, ink_trimEnd, ink_trimStart]

theorem trim_ne_nil {cs : List Char} (h : ink cs ≠ []) : trim cs ≠ [] := by
  rw [← ink_trim] at h
  rintro hnil
  exact h (congrArg ink hnil)

theorem mem_of_mem_trim {cs : List Char} {c : Char} (h : c ∈ trim cs) : c ∈ cs :=
  (List.dropWhile_sublist isBlank).subset ((isPrefix_trimEnd _).subset h)

/-- Trimmed text stays as it is. -/
theorem trim_trim (cs : List Char) : trim (trim cs) = trim cs := by
  have hstart : trimStart (trim cs) = trim cs := by
    obtain hnil | ⟨c, rest, hcons, hc⟩ := trimStart_cases cs
    · rw [trim, hnil]
      rfl
    · rw [trim, hcons, trimEnd_cons_ink hc, trimStart_cons hc]
  calc
    trim (trim cs) = trimEnd (trim cs) := by rw [trim, hstart]
    _ = trim cs := trimEnd_eq_self fun _ hlast => getLast?_trimEnd hlast

end Concordance.Text
