import Concordance.Decimal.Places
import Concordance.Indexing.Feed
import Concordance.Json.Printer
import Concordance.Query.Match
import Concordance.Statistics.Table
import Concordance.Text.Column

/-!
# Concordance.CommandLine.Output

What the commands print.
-/

namespace Concordance.CommandLine

open Decimal Files Text

/-! ## indexing -/

/-- What became of an index. -/
structure IndexNotice where
  /-- The folder of the index. -/
  index : String
  found : OpenIndex.Found
  /-- What was indexed, if something was. -/
  summary : Option Indexing.Summary
  deriving DecidableEq, Repr

namespace IndexNotice

/-- Whether the index was there already. -/
def isReused (r : IndexNotice) : Bool := r.found = .existing

/-- The lines about a summary. -/
def summaryLines (index : String) (s : Indexing.Summary) : String :=
  s!"Indexed {numeral s.documents} documents into {index}\n" ++
    if s.growthFiles.isEmpty then ""
    else
      s!"Wrote vocabulary growth for {numeral s.growthFiles.length} documents " ++
        s!"({numeral s.tokens.toNat} tokens)\n"

/-- The lines that are printed. -/
def text (r : IndexNotice) : String :=
  match r.summary with
  | some s => summaryLines r.index s
  | none => s!"Using existing index at {r.index} (use --regen to rebuild)\n"

end IndexNotice

/-! ## hits -/

/-- The places that scores are written with. -/
def scorePlaces : Nat := 6

/-- The line above the hits. -/
def hitsHeader : String := toRight 7 "ID" ++ " : " ++ toRight 10 "Score" ++ " : Title"

/-- The line of a hit. -/
def hitLine (h : Query.Hit) : String :=
  "Doc " ++ toRight 3 (numeral h.ordinal) ++ " : " ++
    toRight 10 ((ofSingle h.score).toPlaces scorePlaces) ++ " : " ++ h.title.getD ""

/-- The lines of hits. -/
def hitsText (hits : List Query.Hit) : String :=
  String.join ((hitsHeader :: hits.map hitLine).map (· ++ "\n"))

/-! ## term reports -/

/-- A report of terms. -/
structure TermDigest where
  field : String
  totalDocuments : Nat
  entries : List Statistics.Entry := []
  /-- The terms asked for that are not in the table. -/
  missing : List String := []
  deriving Repr

/-- The statistics of a term as a JSON value. -/
def statisticsJson (e : Statistics.Entry) : Json :=
  Json.ofMembers
    [("term", .ofText e.term),
      ("document_frequency", .natural e.documentFrequency.toNat),
      ("collection_frequency", .natural e.collectionFrequency.toNat),
      ("inverse_document_frequency", .ofDouble e.inverseDocumentFrequency),
      ("term_frequencies", .array (e.termFrequencies.map fun n => .natural n.toNat))]

namespace TermDigest

/-- A report as a JSON value. -/
def toJson (r : TermDigest) : Json :=
  Json.ofMembers
    [("field", .ofText r.field), ("total_documents", .natural r.totalDocuments),
      ("entries", .array (r.entries.map statisticsJson)),
      ("missing", .array (r.missing.map Json.ofText))]

/-- The lines of a report. -/
def text (r : TermDigest) : String := r.toJson.pretty ++ "\n"

/-- Print a report, and write it to a file if one is given. -/
def print (r : TermDigest) (destination : Option String) : Job Unit := do
  Job.print r.text
  match destination with
  | none => return ()
  | some path =>
    Job.alter fun t =>
      let (t, answer) := t.write path (Tree.bytesOf r.text)
      (t, Job.filesFault answer)

end TermDigest

end Concordance.CommandLine
