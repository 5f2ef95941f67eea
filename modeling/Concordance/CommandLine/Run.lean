import Concordance.CommandLine.Arguments
import Concordance.CommandLine.Output
import Concordance.Index.Search
import Concordance.Statistics.Report
import Concordance.Statistics.Session

/-!
# Concordance.CommandLine.Run

The commands.  Every command reads its settings first, puts the arguments of the command line over
them and checks them, before it touches an index.

* `run_of_settings_error` — settings that cannot be read end the run before anything is done.
-/

namespace Concordance.CommandLine

/-! ## indexing -/

/-- The settings of an indexing. -/
def IndexArguments.over (a : IndexArguments) (c : Config) : Config :=
  { c with
    regenerate := c.regenerate || a.regenerate
    growthFolder := a.heap.or c.growthFolder
    stopWords := c.stopWords ++ a.stopWords }

/-- Feed a corpus into an open index and leave the index. -/
def feed (o : OpenIndex) (corpus : String) (c : Config) : Job Indexing.Summary :=
  ExceptT.mk fun w =>
    let (answer, p) := (Indexing.feedCorpus Sink.ofIndex Indexing.indexDesk corpus c).run
      { sink := ⟨w, o⟩, tracker := none }
    let (_, w) := p.sink.index.close.run p.sink.workspace
    (answer, w)

/-- Fill an index that was made; one that was there already is kept as it is. -/
def fill (o : OpenIndex) (found : OpenIndex.Found) (corpus : String) (c : Config) :
    Job (Option Indexing.Summary) := do
  match found with
  | .created => some <$> feed o corpus c
  | .existing =>
    if c.recordsGrowth then Job.warn .growthNotRecorded
    return none

/-- Build the index of a corpus, or keep the one that is there. -/
def IndexArguments.build (a : IndexArguments) (settings : Config) : Job IndexNotice := do
  let c := a.over settings
  Job.ofExcept c.check
  let (o, found) ← OpenIndex.openFolder c
  let summary ← fill o found a.corpus c
  return { index := c.indexFolder, found := found, summary := summary }

/-- Build the index of a corpus and print what has become of it. -/
def IndexArguments.run (a : IndexArguments) (settings : Config) : Job Unit := do
  let notice ← a.build settings
  Job.print notice.text

/-! ## asking -/

/-- Open an index that holds documents. -/
def openFilled (c : Config) : Job Index := do
  if !OpenIndex.isPresent (← get).files c.indexFolder then throw (.config (.noIndex c.indexFolder))
  let (o, found) ← OpenIndex.openFolder { c with regenerate := false }
  match found with
  | .created => throw (.config (.emptyIndex c.indexFolder))
  | .existing => return o.index

/-- The table of a session over an index, and both as they are afterwards. -/
def tableOf (s : Statistics.Session) (i : Index) :
    Job (Statistics.Table × Statistics.Session × Index) :=
  let ((answer, s), i) := s.table Index.source i
  Job.ofExcept (answer.map fun table => (table, s, i))

/-- Print a report, which may go to a file as well. -/
def report (f : Console → Files.Tree → Statistics.Reported) : Job Unit :=
  ExceptT.mk fun w =>
    let r := f w.console w.files
    (r.outcome.map fun _ => (), { w with files := r.files, console := r.console })

/-- Print reports one after the other.  The session is asked for its table before each of them. -/
def printReports (destination : Option String) (s : Statistics.Session) (i : Index) :
    List Statistics.Request → Job Unit
  | [] => return ()
  | request :: requests => do
    let (table, s, i) ← tableOf s i
    report (request.report table · · destination)
    printReports destination s i requests

/-- Note what a table says of a term: its entry, or that it is missing. -/
def TermDigest.note (table : Statistics.Table) (r : TermDigest) (term : String) : TermDigest :=
  match table.lookup term with
  | some e => { r with entries := r.entries ++ [e] }
  | none => { r with missing := r.missing ++ [term] }

namespace TermArguments

/-- Check that something is asked for, and one thing only where a file is given. -/
def check (a : TermArguments) : Except Fault Unit :=
  match a.requests with
  | 0 => .error (.request .nothingRequested)
  | 1 => .ok ()
  | _ => if a.output.isSome then .error (.request .severalForOneFile) else .ok ()

/-- The reports of the most frequent and of all terms, which stand after those of single terms. -/
def overviews (a : TermArguments) : List Statistics.Request :=
  (a.top.map .mostFrequent).toList ++ if a.all then [.all] else []

/-- The reports that are asked for, in order. -/
def reports (a : TermArguments) : List Statistics.Request := a.terms.map .one ++ a.overviews

/-- The digest of what is asked for. -/
def reportOf (a : TermArguments) (table : Statistics.Table) : TermDigest :=
  let r := a.terms.foldl (TermDigest.note table)
    { field := table.field, totalDocuments := table.totalDocuments }
  let r := match a.top with
    | some n => { r with entries := r.entries ++ table.top n }
    | none => r
  if a.all then { r with entries := r.entries ++ table.entries } else r

/-- Report terms. -/
def run (a : TermArguments) (settings : Config) : Job Unit := do
  Job.ofExcept settings.check
  Job.ofExcept a.check
  let i ← openFilled settings
  let session : Statistics.Session := { field := settings.field }
  match a.format with
  | .json =>
    let (table, _) ← tableOf session i
    (a.reportOf table).print a.output
  | .human => printReports a.output session i a.reports

end TermArguments

/-- The settings of a search. -/
def SearchArguments.over (a : SearchArguments) (c : Config) : Config :=
  { c with parser := a.parser.getD c.parser, resultLimit := a.limit.getD c.resultLimit }

/-- Print the best hits of a query. -/
def SearchArguments.run (a : SearchArguments) (settings : Config) : Job Unit := do
  let c := a.over settings
  Job.ofExcept c.check
  let i ← openFilled c
  let q ← i.parse c.parser c.field a.query
  Job.print (hitsText (i.search q c.resultLimit))

/-- The settings of an explanation. -/
def ExplainArguments.over (a : ExplainArguments) (c : Config) : Config :=
  { c with parser := a.parser.getD c.parser }

/-- Print why a document has its score. -/
def ExplainArguments.run (a : ExplainArguments) (settings : Config) : Job Unit := do
  let c := a.over settings
  Job.ofExcept c.check
  let i ← openFilled c
  let q ← i.parse c.parser c.field a.query
  let text ← Job.ofExcept (i.explain q a.document)
  Job.print (text ++ "\n")

/-! ## runs -/

/-- Run a command with settings. -/
def Command.run (settings : Config) : Command → Job Unit
  | .index a => a.run settings
  | .term a => a.run settings
  | .search a => a.run settings
  | .explain a => a.run settings

/-- Run a command line. -/
def Arguments.run (a : Arguments) : Job Unit := do
  let settings ← Job.inspect a.settings
  a.command.run settings

/-- Settings that cannot be read end the run before anything is done. -/
theorem run_of_settings_error {a : Arguments} {w : Workspace} {e : Fault}
    (h : a.settings w.files = .error e) : ExceptT.run a.run w = (.error e, w) := by
  rw [Arguments.run, Job.run_bind, Job.run_inspect, h]

end Concordance.CommandLine
