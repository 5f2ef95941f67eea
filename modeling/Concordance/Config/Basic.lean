import Concordance.Corpus.Document
import Concordance.Fault
import Concordance.Query.Style

/-!
# Concordance.Config.Basic

The settings of a run and the check of their values.

* `check_eq_ok_iff` — exactly which settings pass the check.
-/

namespace Concordance

/-- The settings of a run. -/
structure Config where
  /-- The folder of the index. -/
  indexFolder : String := "./index"
  /-- The folder of the growth files; without one growth is not tracked. -/
  growthFolder : Option String := none
  /-- The field that statistics and growth are about. -/
  field : String := TextField.content.name
  /-- Whether an index that is there is deleted and built again. -/
  regenerate : Bool := false
  /-- The memory of the writer, in bytes. -/
  writerMemory : Nat := 50000000
  /-- The words that the analyzer leaves out. -/
  stopWords : List String := []
  /-- The length in bytes from which on the analyzer leaves out tokens. -/
  maxTokenLength : Nat := 40
  /-- How strictly queries are read. -/
  parser : Query.Style := .classic
  /-- The most hits that a search prints. -/
  resultLimit : Nat := 100
  deriving DecidableEq, Repr

/-- The least memory that a writer can work with. -/
def leastWriterMemory : Nat := 15000000

namespace Config

/-- Whether vocabulary growth is tracked. -/
def recordsGrowth (c : Config) : Bool := c.growthFolder.isSome

/-- Check the values of the settings; the first fault is the one reported. -/
def check (c : Config) : Except Fault Unit :=
  if (TextField.ofName? c.field).isNone then .error (.config (.unknownField c.field))
  else if c.writerMemory < leastWriterMemory then .error (.config .tooLittleMemory)
  else if c.maxTokenLength = 0 then .error (.config .zeroTokenLength)
  else if c.resultLimit = 0 then .error (.config .zeroResultLimit)
  else .ok ()

/-- Exactly which settings pass the check. -/
theorem check_eq_ok_iff (c : Config) :
    c.check = .ok () ↔
      (∃ f, TextField.ofName? c.field = some f) ∧ leastWriterMemory ≤ c.writerMemory ∧
        0 < c.maxTokenLength ∧ 0 < c.resultLimit := by
  unfold check
  cases h : TextField.ofName? c.field with
  | none => simp
  | some f =>
    simp only [Option.isNone_some, Bool.false_eq_true, if_false, Option.some.injEq,
      exists_eq', true_and]
    split
    · simp; omega
    · split
      · simp; omega
      · split
        · simp; omega
        · simp; omega

end Config

end Concordance
