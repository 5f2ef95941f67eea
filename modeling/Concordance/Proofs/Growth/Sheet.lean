import Concordance.Proofs.Growth.Layout
import Mathlib.Data.List.Forall2

/-!
# Concordance.Proofs.Growth.Sheet

A growth file that was written is read back.

* `bytesOf_render` — the bytes of a growth file as lines of records;
* `read_bytesOf_render` — the points of a growth file are those it was written from.
-/

namespace Concordance.Growth

open Decimal Delimited
open Files.Tree (bytesOf bytesOf_append bytesOf_ofList_of_ascii)

/-- The bytes of a number. -/
def numberField (n : UInt64) : Field := bytesOf (numeral n.toNat)

/-- The names in the header. -/
def columnNames : List String := [Column.tokens.name, Column.vocabulary.name]

/-- The texts of a point. -/
def pointTexts (p : Point) : List String := [numeral p.tokens.toNat, numeral p.vocabulary.toNat]

/-- The record of a point. -/
def pointRecord (p : Point) : Record := recordOf (pointTexts p)

/-- The record of the header. -/
def headerRecord : Record := recordOf columnNames

theorem ascii_of_isDigit {c : Char} (h : c.isDigit = true) : 48 ≤ c.toNat ∧ c.toNat ≤ 57 := by
  rw [Char.isDigit, Bool.and_eq_true, decide_eq_true_eq, decide_eq_true_eq] at h
  exact h

theorem numberField_eq (n : UInt64) : numberField n = (digits n.toNat).map (·.toNat.toUInt8) := by
  refine bytesOf_ofList_of_ascii fun c hc => ?_
  have hdigit := ascii_of_isDigit (isDigit_of_mem_digits hc)
  omega

theorem numberField_plain (n : UInt64) :
    numberField n ≠ [] ∧ ∀ b ∈ numberField n, IsPlain b := by
  have hplain : ∀ k < 10, IsPlain (48 + k).toUInt8 := by decide
  rw [numberField_eq]
  refine ⟨by simpa using digits_ne_nil n.toNat, fun b hb => ?_⟩
  obtain ⟨c, hc, rfl⟩ := List.mem_map.mp hb
  have hdigit := ascii_of_isDigit (isDigit_of_mem_digits hc)
  have hc' := hplain (c.toNat - 48) (by omega)
  rwa [Nat.add_sub_cancel' hdigit.1] at hc'

theorem headerRecord_eq :
    headerRecord = [[116, 116, 108], [117, 110, 105, 113, 117, 101]] := by rfl

theorem headerRecord_plain : ∀ field ∈ headerRecord, field ≠ [] ∧ ∀ b ∈ field, IsPlain b := by
  rw [headerRecord_eq]
  simp [IsPlain, quote, comma, lineFeed, carriageReturn]

/-! ## writing -/

/-- The text of a growth file: the header, a line for each point, and an empty line. -/
theorem render_eq (points : List Point) :
    render points = "ttl,unique\n" ++ String.join (points.map fun p =>
      numeral p.tokens.toNat ++ "," ++ numeral p.vocabulary.toNat ++ "\n") ++ "\n" := by
  have hpoint : ∀ p : Point, (numeral p.tokens.toNat ++ "," ++ numeral p.vocabulary.toNat ++
      "\n").toList = renderPoint p := fun p => by
    simp [numeral, renderPoint]
  have hlines : (String.join (points.map fun p =>
      numeral p.tokens.toNat ++ "," ++ numeral p.vocabulary.toNat ++ "\n")).toList =
        points.flatMap renderPoint := by
    rw [String.toList_join, List.flatMap_map]
    simp only [hpoint]
  have hend : ['\n'] = "\n".toList := by simp
  unfold render
  simp only [← hlines, hend, String.ofList_append, String.ofList_toList]

theorem line_pointRecord (p : Point) :
    line (pointRecord p) =
      bytesOf (numeral p.tokens.toNat ++ "," ++ numeral p.vocabulary.toNat ++ "\n") := by
  have hcomma : bytesOf "," = [comma] := rfl
  have hend : bytesOf "\n" = [lineFeed] := rfl
  simp only [bytesOf_append, hcomma, hend]
  simp [pointRecord, pointTexts, recordOf, line]

/-- The bytes of a growth file are lines of records, and an empty line. -/
theorem bytesOf_render (points : List Point) :
    bytesOf (render points) =
      (headerRecord :: points.map pointRecord).flatMap line ++ List.replicate 1 lineFeed := by
  have hjoin : ∀ ps : List Point, bytesOf (String.join (ps.map fun p =>
      numeral p.tokens.toNat ++ "," ++ numeral p.vocabulary.toNat ++ "\n")) =
        (ps.map pointRecord).flatMap line := by
    intro ps
    induction ps with
    | nil => rfl
    | cons p ps ih =>
        rw [List.map_cons, String.join_cons, bytesOf_append, ih, List.map_cons, List.flatMap_cons,
          line_pointRecord]
  rw [render_eq, bytesOf_append, bytesOf_append, hjoin]
  rfl

/-! ## reading -/

theorem headsColumns_columnNames : HeadsColumns columnNames := by
  intro column
  cases column <;> decide

theorem shows_pointTexts (p : Point) : Shows columnNames p (pointTexts p) := by
  refine ⟨rfl, fun column text hmem => ?_⟩
  have htext : text = numeral (p.value column).toNat := by
    cases column <;>
      simpa [columnNames, pointTexts, Column.name, Point.value] using hmem
  rw [htext, numeral, String.toList_ofList]
  exact .unsigned 0

theorem laysOut_render (points : List Point) :
    LaysOut ((columnNames :: points.map pointTexts).map recordOf) (bytesOf (render points)) := by
  rw [bytesOf_render, List.map_cons, List.map_map]
  refine laysOut_lines 1 fun record hr => ?_
  obtain rfl | hr := List.mem_cons.mp hr
  · exact ⟨List.cons_ne_nil _ _, headerRecord_plain⟩
  · obtain ⟨p, -, rfl⟩ := List.mem_map.mp hr
    refine ⟨List.cons_ne_nil _ _, fun field hf => ?_⟩
    have hfields : field = numberField p.tokens ∨ field = numberField p.vocabulary := by
      simpa [recordOf, pointTexts, numberField] using hf
    obtain rfl | rfl := hfields
    · exact numberField_plain p.tokens
    · exact numberField_plain p.vocabulary

/-- The points of a growth file are those it was written from. -/
theorem read_bytesOf_render (points : List Point) :
    read (bytesOf (render points)) = .ok points := by
  have hrows : List.Forall₂ (Shows columnNames) points (points.map pointTexts) :=
    List.forall₂_map_right_iff.mpr (List.forall₂_same.mpr fun p _ => shows_pointTexts p)
  refine read_laidOut headsColumns_columnNames hrows (laysOut_render points) (.unmarked ?_)
  rintro ⟨rest, hrest⟩
  rw [bytesOf_render, headerRecord_eq] at hrest
  exact absurd (List.cons.inj hrest).1 (by decide)

end Concordance.Growth
