/-!
# Concordance.Delimited.Record

Files of records with fields between commas.  A record ends at a line feed, a carriage return or
both; empty lines are passed over.  A field that begins with a quote is quoted: in it a doubled
quote stands for one, and what follows the closing quote still belongs to the field.  A quote
elsewhere is a character like any other.
-/

namespace Concordance.Delimited

/-- The bytes of one field. -/
abbrev Field := List UInt8

/-- The fields of one record. -/
abbrev Record := List Field

/-- The byte that stands between fields. -/
def comma : UInt8 := 44

/-- The byte around quoted fields. -/
def quote : UInt8 := 34

/-- A line feed. -/
def lineFeed : UInt8 := 10

/-- A carriage return. -/
def carriageReturn : UInt8 := 13

/-- Whether a byte ends a record. -/
def endsRecord (b : UInt8) : Bool := b == lineFeed || b == carriageReturn

/-- Where the reader stands. -/
inductive Position
  /-- Before a record. -/
  | recordStart
  /-- Before a field of a record that has begun. -/
  | fieldStart
  /-- In a field, outside quotes. -/
  | plain
  /-- In a field, inside quotes. -/
  | quoted
  /-- After a quote inside quotes: it closes them, or it is the first of two. -/
  | afterQuote
  deriving DecidableEq, Repr

/-- A reader of records.  What has been read is kept with the last item first. -/
structure Reader where
  position : Position := .recordStart
  field : List UInt8 := []
  fields : List Field := []
  records : List Record := []

namespace Reader

/-- End the field that is being read. -/
def endField (r : Reader) : Reader :=
  { r with position := .fieldStart, field := [], fields := r.field.reverse :: r.fields }

/-- End the record that is being read. -/
def endRecord (r : Reader) : Reader :=
  { position := .recordStart, field := [], fields := []
    records := (r.field.reverse :: r.fields).reverse :: r.records }

/-- Keep a byte of the field. -/
def keep (r : Reader) (position : Position) (b : UInt8) : Reader :=
  { r with position := position, field := b :: r.field }

/-- Read a byte outside quotes. -/
def readPlain (r : Reader) (b : UInt8) : Reader :=
  if b == comma then r.endField else if endsRecord b then r.endRecord else r.keep .plain b

/-- Read the first byte of a field. -/
def readFirst (r : Reader) (b : UInt8) : Reader :=
  if b == quote then { r with position := .quoted } else r.readPlain b

/-- Read one more byte. -/
def read (r : Reader) (b : UInt8) : Reader :=
  match r.position with
  | .recordStart => if endsRecord b then r else r.readFirst b
  | .fieldStart => r.readFirst b
  | .plain => r.readPlain b
  | .quoted => if b == quote then { r with position := .afterQuote } else r.keep .quoted b
  | .afterQuote => if b == quote then r.keep .quoted b else r.readPlain b

/-- The records read, when the file ends here. -/
def close (r : Reader) : List Record :=
  (if r.position = .recordStart then r else r.endRecord).records.reverse

end Reader

/-- The bytes of a file without the mark of UTF-8 that may stand at its start. -/
def withoutMark : List UInt8 → List UInt8
  | 0xEF :: 0xBB :: 0xBF :: rest => rest
  | bytes => bytes

/-- The records of a file. -/
def records (bytes : List UInt8) : List Record :=
  ((withoutMark bytes).foldl Reader.read {}).close

end Concordance.Delimited
