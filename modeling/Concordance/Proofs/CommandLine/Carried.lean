import Concordance.CommandLine.Arguments
import Concordance.Proofs.CommandLine.Spelling

/-!
# Concordance.Proofs.CommandLine.Carried

What items tell that stand for parts of a command line, and that they pass their checks.

* `Carries.texts_eq`, `Carries.times_eq`, `Carries.operands_eq` — items tell what the parts give;
* `checkItems_of_carries` — items pass if the values of the parts do and no name is given twice.
-/

namespace Concordance.CommandLine

/-- The names that parts are given by, in order. -/
def namesOf (parts : List Part) : List Name := parts.filterMap Part.name?

@[simp] theorem namesOf_append (xs ys : List Part) :
    namesOf (xs ++ ys) = namesOf xs ++ namesOf ys := List.filterMap_append

/-- A name is given as often as its flag stands and as it has values. -/
theorem count_namesOf (name : Name) (parts : List Part) :
    (namesOf parts).count name = parts.count (.flag name) + (valuesOf name parts).length := by
  induction parts with
  | nil => rfl
  | cons part parts ih =>
      cases part with
      | flag n =>
          have hnames : namesOf (.flag n :: parts) = n :: namesOf parts := rfl
          have hvalues : valuesOf name (.flag n :: parts) = valuesOf name parts := rfl
          rw [hnames, hvalues, List.count_cons, List.count_cons, ih]
          simp [Nat.add_right_comm]
      | valued n value =>
          have hnames : namesOf (.valued n value :: parts) = n :: namesOf parts := rfl
          rw [hnames, List.count_cons, List.count_cons_of_ne (by simp), ih]
          by_cases hn : n = name
          · simp [valuesOf, Part.value?, hn, Nat.add_assoc]
          · simp [valuesOf, Part.value?, hn]
      | operand value =>
          rw [List.count_cons_of_ne (by simp)]
          exact ih

namespace Carries

variable {position : Nat} {parts : List Part} {items : List Item}

theorem texts_eq (h : Carries position parts items) (name : Name) :
    texts name items = valuesOf name parts := by
  unfold texts valuesOf
  induction h with
  | nil => rfl
  | flag _ ih => exact ih
  | attached _ ih => simp only [List.filterMap_cons, Item.valueOf?, Part.value?, ih]
  | spaced _ ih => simp only [List.filterMap_cons, Item.valueOf?, Part.value?, ih]
  | operand _ ih => exact ih

theorem times_eq (h : Carries position parts items) (name : Name) :
    times name items = parts.count (.flag name) := by
  unfold times
  induction h with
  | nil => rfl
  | flag _ ih => simp [List.count_cons, ih]
  | attached _ ih => simpa [List.count_cons] using ih
  | spaced _ ih => simpa [List.count_cons] using ih
  | operand _ ih => simpa [List.count_cons] using ih

theorem operands_eq (h : Carries position parts items) : operands items = operandsOf parts := by
  unfold operands operandsOf
  induction h with
  | nil => rfl
  | flag _ ih => exact ih
  | attached _ ih => exact ih
  | spaced _ ih => exact ih
  | operand _ ih => exact congrArg (List.cons _) ih

theorem names_eq (h : Carries position parts items) :
    items.filterMap Item.name? = namesOf parts := by
  unfold namesOf
  induction h with
  | nil => rfl
  | flag _ ih => exact congrArg (List.cons _) ih
  | attached _ ih => exact congrArg (List.cons _) ih
  | spaced _ ih => exact congrArg (List.cons _) ih
  | operand _ ih => exact ih

theorem isGiven_eq (h : Carries position parts items) (name : Name) :
    isGiven name items = decide (name ∈ namesOf parts) := by
  rw [← h.names_eq, isGiven, Bool.eq_iff_iff]
  simp [List.any_eq_true]

/-- A name that has no value is given if its flag stands. -/
theorem isGiven_flag (h : Carries position parts items) {name : Name}
    (hvalues : valuesOf name parts = []) :
    isGiven name items = decide (0 < parts.count (.flag name)) := by
  have hcount := count_namesOf name parts
  rw [hvalues] at hcount
  rw [h.isGiven_eq, decide_eq_decide, ← List.count_pos_iff, hcount]
  rfl

end Carries

/-! ## checks -/

/-- A name that was not given before may be given. -/
theorem Name.checkRepeated_ok {name : Name} {before : List Item}
    (hnew : name.isRepeatable = false → name ∉ before.filterMap Item.name?) :
    name.checkRepeated before = .ok () := by
  unfold checkRepeated
  cases hname : name.isRepeatable with
  | true => rfl
  | false =>
      have hany : before.any (·.name? == some name) = false := by
        simpa [List.any_eq_false] using hnew hname
      simp [hany]

theorem Name.checkValue_of_new {name : Name} {before : List Item} (value : String)
    (hnew : name.isRepeatable = false → name ∉ before.filterMap Item.name?) :
    name.checkValue value before = name.kind.check value := by
  rw [checkValue, checkRepeated_ok hnew]

theorem Name.checkValue_nil (name : Name) (value : String) :
    name.checkValue value [] = name.kind.check value :=
  checkValue_of_new value fun _ => List.not_mem_nil

/-- An item that passes as the first one passes behind others if its name is new. -/
theorem Item.check_behind {level : Level} {item : Item} {before : List Item}
    (h : item.check level [] = .ok ())
    (hnew : ∀ name, item.name? = some name → name.isRepeatable = false →
      name ∉ before.filterMap Item.name?) :
    item.check level before = .ok () := by
  cases item with
  | flag name =>
      have hrepeated := Name.checkRepeated_ok (hnew name rfl)
      cases name <;> first | exact hrepeated | cases h
  | attached name value =>
      rw [check, Name.checkValue_nil] at h
      rw [check, Name.checkValue_of_new value (hnew name rfl), h]
  | spaced name value =>
      cases value with
      | none => cases h
      | some value =>
          rw [check, Name.checkValue_nil] at h
          rw [check, Name.checkValue_of_new value (hnew name rfl), h]
  | operand position value => exact h

/-- Items pass if each passes as the first one and no name is given twice that may not. -/
theorem checkItems_ok {level : Level} {before items : List Item}
    (hfirst : ∀ item ∈ items, item.check level [] = .ok ())
    (honce : ∀ name, name.isRepeatable = false →
      ((before ++ items).filterMap Item.name?).count name ≤ 1) :
    checkItems level before items = .ok () := by
  induction items generalizing before with
  | nil => rfl
  | cons item items ih =>
      have hcheck : item.check level before = .ok () := by
        refine Item.check_behind (hfirst item List.mem_cons_self) fun name hname hrepeat hmem => ?_
        have hcount := honce name hrepeat
        rw [List.filterMap_append, List.filterMap_cons_some hname, List.count_append,
          List.count_cons_self] at hcount
        have hbefore := List.count_pos_iff.mpr hmem
        omega
      rw [checkItems, hcheck]
      refine ih (fun i hi => hfirst i (List.mem_cons_of_mem item hi)) fun name hrepeat => ?_
      rw [List.append_assoc]
      exact honce name hrepeat

/-- A part that is allowed: help is not asked for, and a value is such as its name takes. -/
def Part.IsAllowed : Part → Prop
  | .flag name => name ≠ .help ∧ name ≠ .version
  | .valued name value => name.kind.check value = .ok ()
  | .operand _ => True

/-- Items pass as first ones if their parts are allowed and the operands are such as the level takes
at their positions. -/
theorem Carries.check_ok {level : Level} {position : Nat} {parts : List Part} {items : List Item}
    (h : Carries position parts items) (hparts : ∀ part ∈ parts, part.IsAllowed)
    (hoperands : ∀ k value, (operandsOf parts)[k]? = some value →
      ((level.operand? (position + k)).getD .text).check value = .ok ()) :
    ∀ item ∈ items, item.check level [] = .ok () := by
  induction h with
  | nil => simp
  | @flag position name parts items _ ih =>
      rw [List.forall_mem_cons] at hparts ⊢
      refine ⟨?_, ih hparts.2 hoperands⟩
      obtain ⟨hhelp, hversion⟩ := hparts.1
      cases name <;> first | rfl | exact absurd rfl hhelp | exact absurd rfl hversion
  | @attached position name value parts items _ ih =>
      rw [List.forall_mem_cons] at hparts ⊢
      exact ⟨(name.checkValue_nil value).trans hparts.1, ih hparts.2 hoperands⟩
  | @spaced position name value parts items _ ih =>
      rw [List.forall_mem_cons] at hparts ⊢
      exact ⟨(name.checkValue_nil value).trans hparts.1, ih hparts.2 hoperands⟩
  | @operand position value parts items _ ih =>
      rw [List.forall_mem_cons] at hparts ⊢
      refine ⟨hoperands 0 value rfl, ih hparts.2 fun k v hk => ?_⟩
      rw [Nat.add_assoc, Nat.add_comm 1 k]
      exact hoperands (k + 1) v hk

/-- Where all items pass, those in front of the open one do, and then the open one. -/
theorem Reading.check_ok {level : Level} {r : Reading} (h : checkItems level [] r.items = .ok ()) :
    r.checkClosed level = .ok () ∧ r.checkOpened level = .ok () := by
  have hclosed : r.closed <+: r.items := by
    unfold closed
    split
    · split
      · exact List.dropLast_prefix _
      · exact List.prefix_refl _
    · exact List.nil_prefix
  have hitems : r.items = r.closed ++ r.opened := by
    rw [opened]
    exact (List.prefix_iff_eq_append.mp hclosed).symm
  rw [hitems, checkItems_append] at h
  rw [checkClosed, checkOpened]
  cases hfirst : checkItems level [] r.closed with
  | error stop => rw [hfirst] at h; cases h
  | ok u => rw [hfirst] at h; exact ⟨rfl, h⟩

end Concordance.CommandLine
