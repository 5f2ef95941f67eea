import Concordance.Proofs.Json.Floating

/-!
# Concordance.Proofs.Json.RoundTrip

JSON values that were written are read back, because what is written for a value stands for it.

* `spellsQuoted_quote` — texts;
* `spells_render` — values;
* `parse?_pretty`, `parse?_pretty_append` — a value that was written is read back.
-/

namespace Concordance.Json

open Decimal

/-- A value that is read as it was written: what is written for its numbers is a number, and no text
and no name is missing. -/
inductive IsWhole : Json → Prop
  | null : IsWhole .null
  | bool (value : Bool) : IsWhole (.bool value)
  | natural (value : Nat) : IsWhole (.natural value)
  | number {written : String} (h : IsNumber written.toList) : IsWhole (.number written)
  | text (value : String) : IsWhole (ofText value)
  | array {items : List Json} (h : ∀ item ∈ items, IsWhole item) : IsWhole (.array items)
  | object {members : List (String × Json)} (h : ∀ m ∈ members, IsWhole m.2) :
      IsWhole (ofMembers members)

theorem isWhole_ofDouble (x : Float) : IsWhole (ofDouble x) := by
  unfold ofDouble
  cases Decimal.ofDouble x with
  | finite x => exact .number (isNumber_render _ x)
  | _ => exact .null

/-! ## texts -/

theorem spellsCode_control {n : Nat} (h : n < 32) :
    SpellsCode n ['0', '0', hexDigit (n / 16), hexDigit (n % 16)] := by
  have hdigit : ∀ k < 16, IsHexDigit k (hexDigit k) := by
    have heq : ∀ k < 16, hexDigit k = k.digitChar := by decide
    exact fun k hk => .inl (heq k hk)
  have hhigh := hdigit (n / 0x10 % 16) (Nat.mod_lt _ (by decide))
  have hzero : n / 0x1000 = 0 ∧ n / 0x100 % 16 = 0 := by omega
  rw [SpellsCode, hzero.1, hzero.2]
  rw [Nat.mod_eq_of_lt (show n / 0x10 < 16 by omega)] at hhigh ⊢
  exact .cons (.inl rfl) (.cons (.inl rfl) (.cons hhigh
    (.cons (hdigit _ (Nat.mod_lt _ (by decide))) .nil)))

/-- What is written for a character stands for it. -/
theorem spellsChar_escapeChar (c : Char) : SpellsChar c (escapeChar c) := by
  unfold escapeChar
  iterate 7
    split
    · next h =>
      subst h
      exact .short (by decide)
  split
  · next h => exact .code (by omega) (spellsCode_control h)
  · next hquote hslash _ _ _ _ _ hcontrol =>
    exact .plain hquote hslash (Nat.not_lt.mp hcontrol)

theorem spellsQuoted_quote (text : String) : SpellsQuoted text (quote text).toList := by
  have hchars : ∀ cs : List Char, SpellsChars cs (cs.flatMap escapeChar) := by
    intro cs
    induction cs with
    | nil => exact .nil
    | cons c cs ih => exact .cons (spellsChar_escapeChar c) ih
  rw [quote, String.toList_ofList]
  exact .quoted (hchars text.toList)

/-! ## parts -/

theorem isPadding_newLine (n : Nat) : IsPadding (newLine n).toList := by
  intro c hc
  rw [newLine, String.toList_ofList] at hc
  obtain rfl | hc := List.mem_cons.mp hc
  · decide
  · rw [List.eq_of_mem_replicate hc]
    decide

/-- Characters on a line of their own, up to the next part or the closing bracket. -/
def onLine (indent : Nat) (chars after : List Char) (hafter : IsPadding after) : Padded where
  before := (newLine indent).toList
  chars := chars
  after := after
  before_blank := isPadding_newLine indent
  after_blank := hafter

section Lines

variable {α β : Type} (value : β → α) (text : β → List Char) (Stands : β → Prop)
  (front : α → List Char) (behind : List Char)

/-- Values that can each be written as a part can be written as parts with something behind the last
one. -/
theorem exists_parts (hbehind : IsPadding behind) {values : List α} (hne : values ≠ [])
    (h : ∀ v ∈ values, ∀ after, IsPadding after → ∃ part, value part = v ∧ Stands part ∧
      text part = front v ++ after) :
    ∃ parts, parts ≠ [] ∧ parts.map value = values ∧ (∀ part ∈ parts, Stands part) ∧
      separated (parts.map text) = separated (values.map front) ++ behind := by
  induction values with
  | nil => exact absurd rfl hne
  | cons v values ih =>
      cases values with
      | nil =>
          obtain ⟨part, hvalue, hpart, htext⟩ := h v List.mem_cons_self behind hbehind
          refine ⟨[part], by simp, by rw [List.map_singleton, hvalue], by simpa using hpart, ?_⟩
          rw [separated_singleton, separated_singleton, htext]
      | cons next values =>
          obtain ⟨parts, hparts_ne, hvalues, hparts, htexts⟩ := ih (List.cons_ne_nil _ _)
            fun v' hv => h v' (List.mem_cons_of_mem v hv)
          obtain ⟨part, hvalue, hpart, htext⟩ := h v List.mem_cons_self [] (by decide)
          obtain ⟨p, parts, rfl⟩ := List.exists_cons_of_ne_nil hparts_ne
          refine ⟨part :: p :: parts, by simp, by rw [List.map_cons, hvalue, hvalues], ?_, ?_⟩
          · rintro q (_ | ⟨_, hq⟩)
            · exact hpart
            · exact hparts q hq
          · rw [separated_cons, separated_cons, htexts, htext]
            simp

end Lines

/-- An item with the line that it stands on. -/
def itemLine (indent : Nat) (item : Json) : List Char :=
  (newLine indent).toList ++ (render indent item).toList

/-- A member with the line that it stands on. -/
def memberLine (indent : Nat) (m : String × Json) : List Char :=
  (newLine indent).toList ++ ((quote m.1).toList ++ ':' :: ' ' :: (render indent m.2).toList)

theorem toList_render_array (indent : Nat) (item : Json) (items : List Json) :
    (render indent (.array (item :: items))).toList =
      '[' :: (separated ((item :: items).map (itemLine (indent + 1))) ++
        (newLine indent).toList ++ [']']) := by
  have hitems : ∀ n item, (newLine n).toList ++ (render n item).toList ++
      (renderItems n items).toList = separated ((item :: items).map (itemLine n)) := by
    intro n
    induction items with
    | nil =>
        intro item
        rw [separated_singleton]
        simp [renderItems, itemLine]
    | cons next items ih =>
        intro item
        rw [separated_cons, ← ih next]
        simp [renderItems, itemLine]
  rw [← hitems]
  simp [render]

theorem toList_render_object (indent : Nat) (m : String × Json) (members : List (String × Json)) :
    (render indent (ofMembers (m :: members))).toList =
      '\x7b' :: (separated ((m :: members).map (memberLine (indent + 1))) ++
        (newLine indent).toList ++ ['\x7d']) := by
  have hmembers : ∀ n (m : String × Json), (newLine n).toList ++ ((quote m.1).toList ++
      ':' :: ' ' :: (render n m.2).toList) ++
        (renderMembers n (members.map fun m => (some m.1, m.2))).toList =
          separated ((m :: members).map (memberLine n)) := by
    intro n
    induction members with
    | nil =>
        intro m
        rw [separated_singleton]
        simp [renderMembers, memberLine]
    | cons next members ih =>
        intro m
        rw [separated_cons, ← ih next]
        simp [renderMembers, memberLine]
  rw [← hmembers]
  simp [ofMembers, render]

/-! ## values -/

/-- What is written for a value stands for it. -/
theorem spells_render {v : Json} (h : IsWhole v) (indent : Nat) :
    Spells v (render indent v).toList := by
  induction h generalizing indent with
  | null =>
      have htext : (render indent .null).toList = ['n', 'u', 'l', 'l'] := by simp [render]
      exact htext ▸ .null
  | bool value =>
      have htext : (render indent (.bool value)).toList =
          if value then ['t', 'r', 'u', 'e'] else ['f', 'a', 'l', 's', 'e'] := by
        cases value <;> simp [render]
      exact htext ▸ .bool value
  | natural n =>
      have htext : (render indent (.natural n)).toList = digits n := by simp [render, numeral]
      exact htext ▸ .natural n
  | @number written h =>
      have hspells := Spells.number h
      rwa [String.ofList_toList] at hspells
  | text value => exact .text (spellsQuoted_quote value)
  | @array items h ih =>
      cases items with
      | nil =>
          have htext : (render indent (.array [])).toList = '[' :: ([] ++ [']']) := by simp [render]
          exact htext ▸ .emptyArray (by decide)
      | cons item items =>
          obtain ⟨parts, hne, hvalues, hparts, htext⟩ := exists_parts Prod.fst
            (fun part : Json × Padded => part.2.text) (fun part => Spells part.1 part.2.chars)
            (itemLine (indent + 1)) (newLine indent).toList (isPadding_newLine indent)
            (List.cons_ne_nil item items) fun v hv after hafter =>
              ⟨(v, onLine (indent + 1) (render (indent + 1) v).toList after hafter), rfl,
                ih v hv (indent + 1), by simp [Padded.text, onLine, itemLine]⟩
          rw [toList_render_array, ← htext, ← hvalues]
          exact .array hne hparts
  | @object members h ih =>
      cases members with
      | nil =>
          have htext : (render indent (ofMembers [])).toList = '\x7b' :: ([] ++ ['\x7d']) := by
            simp [ofMembers, render]
          exact htext ▸ .emptyObject (by decide)
      | cons m members =>
          obtain ⟨parts, hne, hpairs, hparts, htext⟩ := exists_parts Member.pair Member.text
            (fun part => SpellsQuoted part.name part.nameChars.chars ∧
              Spells part.value part.valueChars.chars)
            (memberLine (indent + 1)) (newLine indent).toList (isPadding_newLine indent)
            (List.cons_ne_nil m members) fun m hm after hafter =>
              ⟨⟨m.1, onLine (indent + 1) (quote m.1).toList [] (by decide), m.2,
                [' '], (render (indent + 1) m.2).toList, after, by decide, hafter⟩, rfl,
                ⟨spellsQuoted_quote m.1, ih m hm (indent + 1)⟩,
                by simp [Member.text, Padded.text, onLine, memberLine]⟩
          rw [toList_render_object, ← htext, ← hpairs]
          exact .object hne (fun m hm => (hparts m hm).1) fun m hm => (hparts m hm).2

/-- A value that was written is read back, also with white space behind it. -/
theorem parse?_pretty_append {v : Json} (h : IsWhole v) (blanks : String)
    (hblanks : IsPadding blanks.toList) : parse? (pretty v ++ blanks) = some v := by
  have hread := parse?_of_spells
    (p := ⟨[], (pretty v).toList, blanks.toList, by decide, hblanks⟩) (spells_render h 0)
  rwa [Padded.text, List.nil_append, String.ofList_append, String.ofList_toList,
    String.ofList_toList] at hread

/-- **Round trip**: a value that was written is read back. -/
theorem parse?_pretty {v : Json} (h : IsWhole v) : parse? (pretty v) = some v := by
  have hread := parse?_pretty_append h "" (by decide)
  rwa [String.append_empty] at hread

end Concordance.Json
