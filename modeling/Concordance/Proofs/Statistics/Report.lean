import Concordance.Proofs.Files.Folder
import Concordance.Statistics.Report

/-!
# Concordance.Proofs.Statistics.Report

What a report changes: nothing but the file at its destination.  Where that is outside a folder, the
folder is left alone.
-/

namespace Concordance.Statistics

open Files
open Files.Tree (Around IsElsewhere Spares)

variable {place : Place} {t u : Tree}

namespace Destination

/-- A step of the writing has changed nothing in a folder, and goes on writing outside of it. -/
structure WritesElsewhere (place : Place) (t : Tree) (r : Tree × Except Fault Destination) :
    Prop where
  spares : Spares place t r.1
  place : ∀ d, r.2 = .ok d → ¬place <+: d.place

theorem flush_writes {d : Destination} (hd : ¬place <+: d.place) (t : Tree) :
    WritesElsewhere place t (d.flush t) := by
  have hspares := (Tree.append_alters t d.place d.waiting).spares hd
  unfold flush
  split
  · next heq =>
    rw [heq] at hspares
    refine ⟨hspares, fun d' h => ?_⟩
    cases h
    exact hd
  · next heq =>
    rw [heq] at hspares
    exact ⟨hspares, fun d' h => by cases h⟩

theorem write_writes {d : Destination} (hd : ¬place <+: d.place) (t : Tree) (bytes : List UInt8) :
    WritesElsewhere place t (d.write t bytes) := by
  have hflushed : WritesElsewhere place t
      (if bufferSize < d.waiting.length + bytes.length then d.flush t else (t, .ok d)) := by
    split
    · exact flush_writes hd t
    · refine ⟨.refl place t, fun d' h => ?_⟩
      cases h
      exact hd
  unfold write
  dsimp only
  split
  · next heq =>
    rw [heq] at hflushed
    exact ⟨hflushed.spares, fun d' h => by cases h⟩
  next u d' heq =>
  rw [heq] at hflushed
  have hd' : ¬place <+: d'.place := hflushed.place d' rfl
  split
  · have hlast := flush_writes (d := { d' with waiting := d'.waiting ++ bytes }) hd' u
    exact ⟨hflushed.spares.trans hlast.spares, hlast.place⟩
  · refine ⟨hflushed.spares, fun d'' h => ?_⟩
    cases h
    exact hd'

theorem writeLine_writes {d : Destination} (hd : ¬place <+: d.place) (t : Tree) (line : String) :
    WritesElsewhere place t (d.writeLine t line) := by
  have hline := write_writes hd t (Tree.bytesOf line)
  unfold writeLine
  split
  · next heq =>
    rw [heq] at hline
    exact ⟨hline.spares, fun d' h => by cases h⟩
  · next u d' heq =>
    rw [heq] at hline
    have hend := write_writes (hline.place d' rfl) u (Tree.bytesOf "\n")
    exact ⟨hline.spares.trans hend.spares, hend.place⟩

end Destination

open Destination (WritesElsewhere)

theorem start_spares {destination : Option String} (ht : Around place t u)
    (hpath : ∀ path, destination = some path → IsElsewhere t place path) :
    Spares place u (Destination.start u destination).1 ∧
      ∀ d, (Destination.start u destination).2 = .ok (some d) → ¬place <+: d.place := by
  cases destination with
  | none => exact ⟨.refl place u, fun d h => by cases h⟩
  | some path =>
      unfold Destination.start
      dsimp only
      split
      · exact ⟨.refl place u, fun d h => by cases h⟩
      · next p v hcreate =>
        obtain ⟨node, hspot, halters, -⟩ := Tree.create_ok hcreate
        have hp : ¬place <+: p := hpath path rfl u ht _ hspot
        refine ⟨halters.spares hp, fun d h => ?_⟩
        cases h
        exact hp

theorem finish_spares (t : Tree) {d : Option Destination}
    (hd : ∀ d', d = some d' → ¬place <+: d'.place) : Spares place t (finish t d).1 := by
  cases d with
  | none => exact .refl place t
  | some d =>
      have hflush := Destination.flush_writes (hd d rfl) t
      unfold finish
      dsimp only
      split
      all_goals
        next heq =>
        rw [heq] at hflush
        exact hflush.spares

theorem writeLines_spares (console : Console) (t : Tree) (lines : List String)
    {d : Option Destination} (hd : ∀ d', d = some d' → ¬place <+: d'.place) :
    Spares place t (writeLines console t d lines).2.1 ∧
      ∀ d', (writeLines console t d lines).2.2 = .ok (some d') → ¬place <+: d'.place := by
  induction lines generalizing console t d with
  | nil =>
      refine ⟨.refl place t, fun d' h => hd d' ?_⟩
      exact Except.ok.inj h
  | cons line lines ih =>
      unfold writeLines
      split
      · exact ⟨finish_spares t hd, fun d' h => by cases h⟩
      split
      · exact ih _ t hd
      · next d =>
        have hline := Destination.writeLine_writes (hd d rfl) t line
        split
        · next heq =>
          rw [heq] at hline
          exact ⟨hline.spares, fun d' h => by cases h⟩
        · next console _ u d' heq =>
          rw [heq] at hline
          obtain ⟨hspares, hplace⟩ := ih _ u (d := some d')
            fun d'' h => hline.place d'' (congrArg _ (Option.some.inj h))
          exact ⟨hline.spares.trans hspares, hplace⟩

theorem reportLines_spares (console : Console) (t : Tree) {d : Option Destination}
    (hd : ∀ d', d = some d' → ¬place <+: d'.place) (lines : List String) (entries : Nat) :
    Spares place t (reportLines console t d lines entries).files := by
  obtain ⟨hspares, hplace⟩ := writeLines_spares console t lines hd
  unfold reportLines
  split
  · next heq =>
    rw [heq] at hspares
    exact hspares
  · next console u d' heq =>
    rw [heq] at hspares hplace
    have hfinish := finish_spares u fun d'' h => hplace d'' (congrArg _ h)
    split
    all_goals
      next heq' =>
      rw [heq'] at hfinish
      exact hspares.trans hfinish

section Reports

variable {destination : Option String} (hu : Around place t u)
  (hpath : ∀ path, destination = some path → IsElsewhere t place path)
include hu hpath

theorem reportRows_spares (entries : List Entry) (console : Console) :
    Spares place u (reportRows entries console u destination).files := by
  obtain ⟨hstart, hplace⟩ := start_spares hu hpath
  unfold reportRows
  split
  · next heq =>
    rw [heq] at hstart
    exact hstart
  · next v d heq =>
    rw [heq] at hstart hplace
    exact hstart.trans (reportLines_spares _ v (fun d' h => hplace d' (congrArg _ h)) _ _)

theorem reportTerm_spares (table : Table) (term : String) (console : Console) :
    Spares place u (reportTerm table term console u destination).files := by
  obtain ⟨hstart, hplace⟩ := start_spares hu hpath
  unfold reportTerm
  split
  · next heq =>
    rw [heq] at hstart
    exact hstart
  · next v d heq =>
    rw [heq] at hstart hplace
    split
    · split <;> exact hstart
    · exact hstart.trans (reportLines_spares _ v (fun d' h => hplace d' (congrArg _ h)) _ _)

theorem Request.report_spares (table : Table) (request : Request) (console : Console) :
    Spares place u (request.report table console u destination).files := by
  cases request with
  | one term => exact reportTerm_spares hu hpath table term console
  | mostFrequent n => exact reportRows_spares hu hpath (table.top n) console
  | all => exact reportRows_spares hu hpath table.entries console

end Reports

end Concordance.Statistics
