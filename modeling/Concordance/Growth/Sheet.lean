import Concordance.Delimited.Record
import Concordance.Files.Tree
import Concordance.Growth.Tracker

/-!
# Concordance.Growth.Sheet

The file of growth points of one document:

```
ttl,unique
1,1
2,2
3,2

```

A header, one line for each point, and an empty line.  Reading is more liberal than writing: the
columns are found by their names, other columns are passed over, and numbers may be hexadecimal.

* `fileName_inj` — different documents have different files.
-/

namespace Concordance.Growth

open Decimal Delimited

/-- The name of the growth file of a document. -/
def fileName (document : Nat) : String := "heap-" ++ numeral document ++ ".csv"

/-- Different documents have different files. -/
theorem fileName_inj {i j : Nat} (h : fileName i = fileName j) : i = j := by
  have h' : Nat.toDigits 10 i = Nat.toDigits 10 j := by
    have := congrArg String.toList h
    simpa [fileName, numeral, digits] using this
  rw [← Nat.ofDigitChars_ten_toDigits (n := i), h', Nat.ofDigitChars_ten_toDigits]

/-! ## writing -/

/-- The columns of a growth file. -/
inductive Column
  | tokens
  | vocabulary
  deriving DecidableEq, Repr

/-- The name of a column in the header. -/
def Column.name : Column → String
  | .tokens => "ttl"
  | .vocabulary => "unique"

/-- The line of a point. -/
def renderPoint (p : Point) : List Char :=
  digits p.tokens.toNat ++ ',' :: digits p.vocabulary.toNat ++ ['\n']

/-- The text of a growth file. -/
def render (points : List Point) : String :=
  String.ofList ("ttl,unique\n".toList ++ points.flatMap renderPoint ++ ['\n'])

/-! ## reading -/

/-- The text of a field. -/
def fieldText? (field : Field) : Option String := Files.Tree.textOf? field

/-- The column that a header field names. -/
def column? (field : Field) : Option Column :=
  if fieldText? field = some Column.tokens.name then some .tokens
  else if fieldText? field = some Column.vocabulary.name then some .vocabulary
  else none

/-- How a record's fields are matched to columns. -/
inductive Header
  /-- By the names in the header, nothing for a name that is not known. -/
  | named (columns : List (Option Column))
  /-- By their order, because the header is not text. -/
  | unnamed

/-- The header of a file. -/
def header (fields : Record) : Header :=
  if fields.all fun f => (fieldText? f).isSome then .named (fields.map column?) else .unnamed

/-- The number in a field: decimal, or hexadecimal after a lowercase mark. -/
def readNumber (text : List Char) : Except GrowthFault UInt64 :=
  let answer := match text with
    | '0' :: 'x' :: rest => readNumeral 16 rest
    | text => readNumeral 10 text
  match answer with
  | .error e => .error (.numeral e)
  | .ok n => .ok n.toUInt64

/-- The values found in a record so far. -/
structure Found where
  tokens : Option UInt64 := none
  vocabulary : Option UInt64 := none

/-- The value of a column, if it was found. -/
def Found.get? (found : Found) : Column → Option UInt64
  | .tokens => found.tokens
  | .vocabulary => found.vocabulary

/-- Note the value of a column. -/
def Found.put (found : Found) (value : UInt64) : Column → Found
  | .tokens => { found with tokens := some value }
  | .vocabulary => { found with vocabulary := some value }

/-- Read the fields of a record from left to right.  A column that was found already is refused
before its field is read. -/
def readNamed : Found → List (Option Column × List Char) → Except GrowthFault Found
  | found, [] => .ok found
  | found, (none, _) :: rest => readNamed found rest
  | found, (some column, text) :: rest =>
    if (found.get? column).isSome then .error (.duplicateColumn column.name)
    else
      match readNumber text with
      | .error e => .error e
      | .ok value => readNamed (found.put value column) rest

/-- The point of the values found; what is missing is refused, the tokens first. -/
def Found.point (found : Found) : Except GrowthFault Point :=
  match found.tokens, found.vocabulary with
  | some tokens, some vocabulary => .ok ⟨tokens, vocabulary⟩
  | none, _ => .error (.missingColumn Column.tokens.name)
  | some _, none => .error (.missingColumn Column.vocabulary.name)

/-- The point of a record whose first two fields are the columns. -/
def readUnnamed : List (List Char) → Except GrowthFault Point
  | tokens :: rest =>
    match readNumber tokens with
    | .error e => .error e
    | .ok tokens =>
      match rest with
      | [] => .error (.tooFewColumns 1)
      | vocabulary :: _ =>
        match readNumber vocabulary with
        | .error e => .error e
        | .ok vocabulary => .ok ⟨tokens, vocabulary⟩
  | [] => .error (.tooFewColumns 0)

/-- The point of a record. -/
def readPoint (header : Header) (width : Nat) (record : Record) : Except GrowthFault Point :=
  if record.length ≠ width then .error (.unequalLengths width record.length)
  else
    match record.mapM fieldText? with
    | none => .error .notText
    | some texts =>
      match header with
      | .unnamed => readUnnamed (texts.map String.toList)
      | .named columns =>
        match readNamed {} (columns.zip (texts.map String.toList)) with
        | .error e => .error e
        | .ok found => found.point

/-- The points of records, up to the first that is refused. -/
def readPoints (header : Header) (width : Nat) : List Record → Except GrowthFault (List Point)
  | [] => .ok []
  | record :: rest =>
    match readPoint header width record with
    | .error e => .error e
    | .ok point =>
      match readPoints header width rest with
      | .error e => .error e
      | .ok points => .ok (point :: points)

/-- The points of a growth file: its first record is the header. -/
def read (bytes : List UInt8) : Except GrowthFault (List Point) :=
  match records bytes with
  | [] => .ok []
  | first :: rest => readPoints (header first) first.length rest

end Concordance.Growth
