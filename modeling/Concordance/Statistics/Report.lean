import Concordance.Console
import Concordance.Decimal.Places
import Concordance.Files.Tree
import Concordance.Statistics.Table
import Concordance.Text.Column

/-!
# Concordance.Statistics.Report

Reports of term statistics in columns:

```
                Term    DF     CF        IDF    TF
                 dog     2      3   0.000000     1     2
                 cat     1      2   0.301030     2     0
```

Every line goes to the console and, where a destination is given, to that file too.  The file is
emptied when the report begins.  Bytes on their way to the file wait in a buffer, so that a file
without room is noticed when the buffer is emptied.  A line that the console does not take ends the
report, and what waits by then still goes to the file.
-/

namespace Concordance.Statistics

open Decimal Files Text

/-! ## lines -/

/-- The line above the entries. -/
def header : String :=
  toRight 20 "Term" ++ " " ++ toRight 5 "DF" ++ " " ++ toRight 6 "CF" ++ " " ++ toRight 10 "IDF" ++
    " " ++ toRight 5 "TF"

/-- The places that inverse document frequencies are written with. -/
def frequencyPlaces : Nat := 6

/-- The line of a term. -/
def entryLine (e : Entry) : String :=
  toRight 20 e.term ++ " " ++ toRight 5 (numeral e.documentFrequency.toNat) ++ " " ++
    toRight 6 (numeral e.collectionFrequency.toNat) ++ " " ++
    toRight 10 ((ofDouble e.inverseDocumentFrequency).toPlaces frequencyPlaces) ++
    String.join (e.termFrequencies.map fun n => " " ++ toRight 5 (numeral n.toNat))

/-- The notice that a term is not in the table. -/
def absentLine (term : String) : String := s!"The index doesn't contain '{term}'"

/-! ## destinations -/

/-- A file that a report is written to. -/
structure Destination where
  path : String
  place : Place
  /-- The bytes that are not yet in the file. -/
  waiting : List UInt8 := []

/-- How many bytes may wait. -/
def bufferSize : Nat := 8192

namespace Destination

/-- The failure of a report to its destination. -/
def fault (d : Destination) (cause : Refusal) : Fault :=
  .request (.reportNotWritten d.path cause)

/-- Write what waits. -/
def flush (d : Destination) (t : Tree) : Tree × Except Fault Destination :=
  match t.append d.place d.waiting with
  | (t, .ok ()) => (t, .ok { d with waiting := [] })
  | (t, .error e) => (t, .error (d.fault e))

/-- Write bytes.  They wait if they fit beside what waits already; more than a buffer holds does not
wait at all. -/
def write (d : Destination) (t : Tree) (bytes : List UInt8) : Tree × Except Fault Destination :=
  let flushed := if bufferSize < d.waiting.length + bytes.length then d.flush t else (t, .ok d)
  match flushed with
  | (t, .error e) => (t, .error e)
  | (t, .ok d) =>
    let d := { d with waiting := d.waiting ++ bytes }
    if bufferSize ≤ bytes.length then d.flush t else (t, .ok d)

/-- Write a line. -/
def writeLine (d : Destination) (t : Tree) (line : String) : Tree × Except Fault Destination :=
  match d.write t (Tree.bytesOf line) with
  | (t, .error e) => (t, .error e)
  | (t, .ok d) => d.write t (Tree.bytesOf "\n")

/-- Open the destination of a report, if it has one. -/
def start (t : Tree) : Option String → Tree × Except Fault (Option Destination)
  | none => (t, .ok none)
  | some path =>
    match t.create path with
    | .error e => (t, .error (.request (.reportNotOpened path e)))
    | .ok (place, t) => (t, .ok (some { path := path, place := place }))

end Destination

/-! ## reports -/

/-- What a report has written. -/
inductive Outcome
  /-- This many lines of entries. -/
  | written (entries : Nat)
  /-- The notice that the term is not in the table. -/
  | termNotFound (term : String)
  deriving DecidableEq, Repr

/-- What a report has done to the console and to the files, and how it ended. -/
structure Reported where
  console : Console
  files : Tree
  outcome : Except Fault Outcome

/-- Write what waits for a destination, if there is one. -/
def finish (t : Tree) : Option Destination → Tree × Except Fault Unit
  | none => (t, .ok ())
  | some d =>
    match d.flush t with
    | (t, .error e) => (t, .error e)
    | (t, .ok _) => (t, .ok ())

/-- Write lines to the console and to a destination.  A line goes to the console first.  A failing
destination ends the writing, and so does the console, where what waits is written all the same. -/
def writeLines (console : Console) (t : Tree) (d : Option Destination) :
    List String → Console × Tree × Except Fault (Option Destination)
  | [] => (console, t, .ok d)
  | line :: lines =>
    match console.print (line ++ "\n") with
    | (console, .error e) => (console, (finish t d).1, .error (.files e))
    | (console, .ok ()) =>
      match d with
      | none => writeLines console t none lines
      | some d =>
        match d.writeLine t line with
        | (t, .error e) => (console, t, .error e)
        | (t, .ok d) => writeLines console t (some d) lines

/-- Write the lines of a report with a number of entries. -/
def reportLines (console : Console) (t : Tree) (d : Option Destination) (lines : List String)
    (entries : Nat) : Reported :=
  match writeLines console t d lines with
  | (console, t, .error e) => ⟨console, t, .error e⟩
  | (console, t, .ok d) =>
    match finish t d with
    | (t, .error e) => ⟨console, t, .error e⟩
    | (t, .ok ()) => ⟨console, t, .ok (.written entries)⟩

/-- Report one term, without a header.  The notice that it is absent goes to the console only. -/
def reportTerm (table : Table) (term : String) (console : Console) (t : Tree)
    (destination : Option String) : Reported :=
  match Destination.start t destination with
  | (t, .error e) => ⟨console, t, .error e⟩
  | (t, .ok d) =>
    match table.lookup term with
    | none =>
      match console.print (absentLine term ++ "\n") with
      | (console, .error e) => ⟨console, t, .error (.files e)⟩
      | (console, .ok ()) => ⟨console, t, .ok (.termNotFound term)⟩
    | some entry => reportLines console t d [entryLine entry] 1

/-- Report entries under a header. -/
def reportRows (entries : List Entry) (console : Console) (t : Tree)
    (destination : Option String) : Reported :=
  match Destination.start t destination with
  | (t, .error e) => ⟨console, t, .error e⟩
  | (t, .ok d) => reportLines console t d (header :: entries.map entryLine) entries.length

/-- Report the most frequent terms. -/
def reportMostFrequent (table : Table) (n : Nat) (console : Console) (t : Tree)
    (destination : Option String) : Reported :=
  reportRows (table.top n) console t destination

/-- Report all terms. -/
def reportTable (table : Table) (console : Console) (t : Tree) (destination : Option String) :
    Reported :=
  reportRows table.entries console t destination

/-- What a report is about. -/
inductive Request
  | one (term : String)
  | mostFrequent (n : Nat)
  | all

/-- Make the report. -/
def Request.report (table : Table) (console : Console) (t : Tree) (destination : Option String) :
    Request → Reported
  | .one term => reportTerm table term console t destination
  | .mostFrequent n => reportMostFrequent table n console t destination
  | .all => reportTable table console t destination

end Concordance.Statistics
