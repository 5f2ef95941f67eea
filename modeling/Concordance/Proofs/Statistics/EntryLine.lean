import Concordance.Proofs.Decimal.Places
import Concordance.Proofs.Text.Column
import Concordance.Statistics.Report
import Mathlib.Data.List.Induction

/-!
# Concordance.Proofs.Statistics.EntryLine

The line of a term is read from its end: numerals are the frequencies in documents, up to the first
word with a point in it, and two more numerals stand in front of that.  What is left is the term in
its column, whatever spaces, digits and points it has.

* `append_frequencyColumns_inj` — where the frequencies in documents begin;
* `entryLine_inj` — what a line tells of its entry.
-/

namespace Concordance.Statistics

open Decimal Text

/-- The columns of the frequencies in documents. -/
def frequencyColumns (frequencies : List UInt64) : String :=
  String.join (frequencies.map fun n => " " ++ toRight 5 (numeral n.toNat))

theorem append_frequencyColumns_snoc (a : String) (frequencies : List UInt64) (n : UInt64) :
    a ++ frequencyColumns (frequencies ++ [n]) =
      (a ++ frequencyColumns frequencies) ++ " " ++ toRight 5 (numeral n.toNat) := by
  simp [frequencyColumns, String.join_append, String.append_assoc]

theorem space_not_mem_numeral (n : Nat) : ' ' ∉ (numeral n).toList := by
  rw [numeral, String.toList_ofList]
  exact not_mem_digits (by decide)

theorem frequency_inj {m n : UInt64} (h : numeral m.toNat = numeral n.toNat) : m = n :=
  UInt64.toNat_inj.mp (numeral_inj h)

/-- A word with a point in it is no numeral. -/
theorem ne_numeral_of_point {t : String} (h : '.' ∈ t.toList) (n : Nat) : t ≠ numeral n := by
  rintro rfl
  rw [numeral, String.toList_ofList] at h
  exact not_mem_digits (by decide) h

/-- A word with a point in it is the last one before the numerals. -/
theorem append_frequencyColumns_inj {a b t u : String} {v w : Nat} (ht : ' ' ∉ t.toList)
    (hu : ' ' ∉ u.toList) (htpoint : '.' ∈ t.toList) (hupoint : '.' ∈ u.toList)
    {xs ys : List UInt64}
    (h : a ++ " " ++ toRight v t ++ frequencyColumns xs =
      b ++ " " ++ toRight w u ++ frequencyColumns ys) :
    a ++ " " ++ toRight v t = b ++ " " ++ toRight w u ∧ xs = ys := by
  have hnone : ∀ c : String, c ++ frequencyColumns [] = c := fun _ => String.append_empty
  induction xs using List.reverseRecOn generalizing ys with
  | nil =>
      obtain rfl | ⟨zs, y, rfl⟩ := List.eq_nil_or_concat' ys
      · rw [hnone, hnone] at h
        exact ⟨h, rfl⟩
      · rw [hnone, append_frequencyColumns_snoc] at h
        have hlast := eq_of_lastColumn ht (space_not_mem_numeral y.toNat) h
        exact absurd hlast (ne_numeral_of_point htpoint y.toNat)
  | append_singleton xs x ih =>
      rw [append_frequencyColumns_snoc] at h
      obtain rfl | ⟨zs, y, rfl⟩ := List.eq_nil_or_concat' ys
      · rw [hnone] at h
        have hlast := eq_of_lastColumn hu (space_not_mem_numeral x.toNat) h.symm
        exact absurd hlast (ne_numeral_of_point hupoint x.toNat)
      · rw [append_frequencyColumns_snoc] at h
        obtain ⟨hbefore, hnumeral⟩ :=
          append_toRight_inj (space_not_mem_numeral x.toNat) (space_not_mem_numeral y.toNat) h
        obtain ⟨hcolumn, rfl⟩ := ih hbefore
        exact ⟨hcolumn, by rw [frequency_inj hnumeral]⟩

/-- The text of the inverse document frequency of an entry. -/
def inverseText (e : Entry) : String :=
  (ofDouble e.inverseDocumentFrequency).toPlaces frequencyPlaces

theorem entryLine_eq (e : Entry) :
    entryLine e = toRight 20 e.term ++ " " ++ toRight 5 (numeral e.documentFrequency.toNat) ++
      " " ++ toRight 6 (numeral e.collectionFrequency.toNat) ++ " " ++ toRight 10 (inverseText e) ++
      frequencyColumns e.termFrequencies := rfl

/-- A finite inverse document frequency is written as one word with a point in it. -/
theorem inverseText_finite {e : Entry} (h : e.inverseDocumentFrequency.isFinite = true) :
    ' ' ∉ (inverseText e).toList ∧ '.' ∈ (inverseText e).toList := by
  obtain ⟨x, hx⟩ := exists_finite h
  rw [inverseText, hx, Parts.toPlaces, String.toList_ofList]
  exact ⟨space_not_mem_toPlaces frequencyPlaces x, point_mem_toPlaces frequencyPlaces x⟩

/-- **What a line tells**: two entries with the same line have the same term and the same
frequencies, however wide they are and however many documents there are, if their inverse document
frequencies are finite and their terms do not begin with a space.  The inverse document frequencies
are the same as far as they are written. -/
theorem entryLine_inj {e e' : Entry} (hfinite : e.inverseDocumentFrequency.isFinite = true)
    (hfinite' : e'.inverseDocumentFrequency.isFinite = true)
    (hterm : e.term.toList.head? ≠ some ' ') (hterm' : e'.term.toList.head? ≠ some ' ')
    (h : entryLine e = entryLine e') :
    e.term = e'.term ∧ e.documentFrequency = e'.documentFrequency ∧
      e.collectionFrequency = e'.collectionFrequency ∧ e.termFrequencies = e'.termFrequencies ∧
      inverseText e = inverseText e' := by
  obtain ⟨hspace, hpoint⟩ := inverseText_finite hfinite
  obtain ⟨hspace', hpoint'⟩ := inverseText_finite hfinite'
  rw [entryLine_eq, entryLine_eq] at h
  -- column by column, from the end of the line
  obtain ⟨hline, hfrequencies⟩ := append_frequencyColumns_inj hspace hspace' hpoint hpoint' h
  obtain ⟨hline, hinverse⟩ := append_toRight_inj hspace hspace' hline
  obtain ⟨hline, hcollection⟩ :=
    append_toRight_inj (space_not_mem_numeral _) (space_not_mem_numeral _) hline
  obtain ⟨hline, hdocuments⟩ :=
    append_toRight_inj (space_not_mem_numeral _) (space_not_mem_numeral _) hline
  exact ⟨toRight_inj hterm hterm' hline, frequency_inj hdocuments, frequency_inj hcollection,
    hfrequencies, hinverse⟩

/-- An entry whose term looks like columns and whose frequencies are wider than theirs. -/
def wideEntry (inverse : Float) : Entry where
  term := "naca 0012  7 0.301030 "
  documentFrequency := 1234567
  collectionFrequency := 18446744073709551615
  inverseDocumentFrequency := inverse
  termFrequencies := [0, 123456, 7]

/-- Two inverse document frequencies that are written alike make the same line. -/
theorem entryLine_inj_wideEntry :
    (0.3 : Float).toBits ≠ (0.30000001 : Float).toBits ∧
      (wideEntry 0.3).inverseDocumentFrequency.isFinite = true ∧
      (wideEntry 0.30000001).inverseDocumentFrequency.isFinite = true ∧
      (∀ x, (wideEntry x).term.toList.head? ≠ some ' ') ∧
      entryLine (wideEntry 0.3) = entryLine (wideEntry 0.30000001) ∧
      inverseText (wideEntry 0.3) = inverseText (wideEntry 0.30000001) := by
  have hfinite : (wideEntry 0.3).inverseDocumentFrequency.isFinite = true := by decide
  have hfinite' : (wideEntry 0.30000001).inverseDocumentFrequency.isFinite = true := by decide
  have hterm : ∀ x, (wideEntry x).term.toList.head? ≠ some ' ' := by
    intro x
    change "naca 0012  7 0.301030 ".toList.head? ≠ some ' '
    decide
  have hline : entryLine (wideEntry 0.3) = entryLine (wideEntry 0.30000001) := by decide +kernel
  have htold := entryLine_inj hfinite hfinite' (hterm _) (hterm _) hline
  exact ⟨by decide, hfinite, hfinite', hterm, hline, htold.2.2.2.2⟩

end Concordance.Statistics
