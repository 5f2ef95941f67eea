import Concordance.Console
import Concordance.Fault
import Concordance.Files.Tree

/-!
# Concordance.Workspace

What a run works on: the files, the folders whose index has an open writer, the console and the
warnings given.  A job changes the workspace also where it fails.

* `run_bind` — steps are run one after the other up to the first failure.
-/

namespace Concordance

open Files

/-- A notice to the user that ends nothing. -/
inductive Warning
  /-- Part of a query could not be read. -/
  | queryPartIgnored
  /-- The analyzer of the index differs from the one that the settings ask for. -/
  | analyzerOfIndexUsed
  /-- Growth was asked for where nothing is indexed. -/
  | growthNotRecorded
  deriving DecidableEq, Repr

/-- The wording of a warning. -/
def Warning.message : Warning → String
  | .queryPartIgnored => "ignored part of query"
  | .analyzerOfIndexUsed => "using the analyzer settings the index was built with"
  | .growthNotRecorded =>
    "index already exists, vocabulary growth is only recorded while indexing"

/-- What a run works on. -/
structure Workspace where
  files : Tree
  /-- The folders whose index has an open writer. -/
  locks : List Place := []
  console : Console := {}
  /-- The warnings given so far, the last one first. -/
  warnings : List Warning := []
  deriving Repr

/-- A step that may change the workspace and may fail. -/
abbrev Job (α : Type) := ExceptT Fault (StateM Workspace) α

namespace Job

/-- Give a warning. -/
def warn (warning : Warning) : Job Unit :=
  modify fun w => { w with warnings := warning :: w.warnings }

/-- An answer that has been worked out already. -/
def ofExcept (answer : Except Fault α) : Job α := ExceptT.mk (pure answer)

/-- Read the files. -/
def inspect (f : Tree → Except Fault α) : Job α := do
  ofExcept (f (← get).files)

/-- Change the files. -/
def alter (f : Tree → Tree × Except Fault α) : Job α :=
  ExceptT.mk fun w =>
    let (files, answer) := f w.files
    (answer, { w with files := files })

/-- A refusal of the file system as a fault. -/
def filesFault (answer : Except Refusal α) : Except Fault α :=
  match answer with
  | .ok a => .ok a
  | .error e => .error (.files e)

/-- Print text, as far as the console takes it. -/
def print (text : String) : Job Unit :=
  ExceptT.mk fun w =>
    let (console, answer) := w.console.print text
    (filesFault answer, { w with console := console })

/-- What a step answers and leaves decides how the step after it begins. -/
theorem run_bind (x : Job α) (f : α → Job β) (w : Workspace) :
    ExceptT.run (x >>= f) w =
      (match ExceptT.run x w with
      | (.ok a, w) => ExceptT.run (f a) w
      | (.error e, w) => (.error e, w)) := by
  change (match ExceptT.run x w with
    | (a, w) => ExceptT.bindCont f a w) = _
  rcases ExceptT.run x w with ⟨_ | _, _⟩ <;> rfl

/-- Reading the files changes nothing. -/
theorem run_inspect (f : Tree → Except Fault α) (w : Workspace) :
    ExceptT.run (inspect f) w = (f w.files, w) := rfl

end Job

end Concordance
