import Concordance.Proofs.CommandLine.Digest
import Concordance.Proofs.CommandLine.Silent
import Concordance.Proofs.Index.Fixed
import Concordance.Proofs.Index.Staleness
import Concordance.Proofs.Statistics.Delivery

/-!
# Concordance.Proofs.CommandLine.Reports

The reports of terms in their two formats.  In columns one report after the other is printed, and
the session is asked for its table before each of them; the digest is collected from one table, term
by term.

* `tableOf_keeps` — whenever the session is asked it answers the table of the published documents;
* `printReports_prints` — the lines of a run of reports;
* `foldl_note` — what a digest has collected from a list of terms;
* `formats_agree` — both formats succeed or fail alike, and answer for the same terms alike.
-/

namespace Concordance.CommandLine

open Statistics (Entry Request Session Table absentLine buildAll entryLine header textOf)

/-! ## lines -/

/-- A line of the reports in columns. -/
inductive Line
  | heading
  | entry (e : Entry)
  | absent (term : String)

namespace Line

/-- The line as it is printed. -/
def text : Line → String
  | heading => header
  | entry e => entryLine e
  | absent term => absentLine term

/-- The entry that a line is about. -/
def found? : Line → Option Entry
  | entry e => some e
  | _ => none

/-- The term that a line says is not in the table. -/
def missing? : Line → Option String
  | absent term => some term
  | _ => none

/-- The term that a line answers for. -/
def term? : Line → Option String
  | heading => none
  | entry e => some e.term
  | absent term => some term

/-- The line that answers for a term: that of its entry, or the notice that it has none. -/
def answering (table : Table) (term : String) : Line :=
  match table.lookup term with
  | some e => entry e
  | none => absent term

/-- The lines of several entries, under the header. -/
def listing (entries : List Entry) : List Line := heading :: entries.map entry

/-- The lines of a report. -/
def ofRequest (table : Table) : Request → List Line
  | .one term => [answering table term]
  | .mostFrequent n => listing (table.top n)
  | .all => listing table.entries

theorem found?_answering (table : Table) (term : String) :
    (answering table term).found? = table.lookup term := by
  unfold answering
  cases table.lookup term <;> rfl

theorem missing?_answering (table : Table) (term : String) : (answering table term).missing? =
    Option.guard (fun term => (table.lookup term).isNone) term := by
  unfold answering
  cases h : table.lookup term <;> simp [missing?, Option.guard, h]

@[simp] theorem filterMap_found?_listing (entries : List Entry) :
    (listing entries).filterMap found? = entries := by
  have hsome : found? ∘ entry = some := rfl
  simp [listing, List.filterMap_cons, List.filterMap_map, hsome, found?]

@[simp] theorem filterMap_missing?_listing (entries : List Entry) :
    (listing entries).filterMap missing? = [] := by
  have hnone : missing? ∘ entry = fun _ => none := rfl
  simp [listing, List.filterMap_cons, List.filterMap_map, hnone, missing?]

theorem map_text_listing (entries : List Entry) :
    (listing entries).map text = header :: entries.map entryLine := by
  rw [listing, List.map_cons, List.map_map]
  rfl

/-- The lines of a report that has entries to show. -/
theorem map_text_ofRequest {table : Table} {request : Request} {entries : List Entry}
    (h : request.entries? table = some entries) :
    (ofRequest table request).map text = request.lines entries := by
  cases request with
  | one term =>
      obtain ⟨e, he, rfl⟩ := Option.map_eq_some_iff.mp h
      rw [ofRequest, answering, he]
      rfl
  | mostFrequent n =>
      obtain rfl := Option.some.inj h
      exact map_text_listing _
  | all =>
      obtain rfl := Option.some.inj h
      exact map_text_listing _

end Line

/-- The entries of the reports that are not about a single term. -/
def TermArguments.rows (a : TermArguments) (table : Table) : List Entry :=
  (a.top.map table.top).getD [] ++ if a.all then table.entries else []

/-- The lines of what is asked for: one for each term, and then the header and the entries of the
most frequent and of all terms. -/
def TermArguments.lines (a : TermArguments) (table : Table) : List Line :=
  a.terms.map (Line.answering table) ++
    ((a.top.map fun n => Line.listing (table.top n)).getD [] ++
      if a.all then Line.listing table.entries else [])

theorem TermArguments.flatMap_reports (a : TermArguments) (table : Table) :
    a.reports.flatMap (Line.ofRequest table) = a.lines table := by
  have hterms : (a.terms.map Request.one).flatMap (Line.ofRequest table) =
      a.terms.map (Line.answering table) := by
    rw [List.flatMap_map]
    exact List.map_eq_flatMap.symm
  rw [TermArguments.reports, TermArguments.lines, List.flatMap_append, hterms,
    TermArguments.overviews, List.flatMap_append]
  congr 2
  · cases a.top <;> simp [Line.ofRequest]
  · cases a.all <;> simp [Line.ofRequest]

/-! ## the reports in columns -/

section Columns

variable {field : String} {s : Session} {i : Index} {table : Table}

/-- Every time a session is asked it answers the table of the published documents, and it can be
asked again. -/
theorem tableOf_keeps (hs : Index.Keeps field i s) (hi : i.Coherent) (w : Workspace) :
    ∃ s' j, Index.Keeps field j s' ∧ j.Coherent ∧ j.published = i.published ∧
      j.generation = i.generation ∧
      ExceptT.run (tableOf s i) w =
        ((buildAll (Index.visible i.published i.generation).recorded field).answer.map
          fun table => (table, s', j), w) := by
  obtain ⟨hanswer, hafter, hkeeps⟩ := hs.table_eq hi
  refine ⟨(s.table Index.source i).1.2, (s.table Index.source i).2,
    hkeeps.of_same hafter.published hafter.generation, hafter.coherent, hafter.published,
    hafter.generation, ?_⟩
  rw [← hanswer]
  rfl

/-- A report without a destination prints its lines. -/
theorem report_prints (table : Table) (request : Request) (w : Workspace) :
    ExceptT.run (report (request.report table · · none)) w =
      ExceptT.run (Job.print (textOf ((Line.ofRequest table request).map Line.text))) w := by
  have hstart : Statistics.Destination.start w.files none = (w.files, .ok none) := rfl
  have hrun : ExceptT.run (report (request.report table · · none)) w =
      ((request.report table w.console w.files none).outcome.map fun _ => (),
        { w with
          files := (request.report table w.console w.files none).files
          console := (request.report table w.console w.files none).console }) := rfl
  rw [hrun, Job.run_print]
  cases hes : request.entries? table with
  | none =>
      obtain ⟨term, rfl, hlookup, hreport⟩ := Request.report_of_none hstart hes w.console
      have hline : textOf ((Line.ofRequest table (.one term)).map Line.text) =
          absentLine term ++ "\n" := by
        simp [Line.ofRequest, Line.answering, hlookup, Line.text]
      rw [hreport, hline]
      rcases w.console.print (absentLine term ++ "\n") with ⟨console, e | _⟩ <;> rfl
  | some es =>
      rw [Request.report_of_some hstart hes, Statistics.reportLines_none,
        Line.map_text_ofRequest hes]
      rcases w.console.print (textOf (request.lines es)) with ⟨console, e | _⟩ <;> rfl

/-- Reports that are made one after the other print their lines, whatever the session has kept. -/
theorem printReports_prints (hs : Index.Keeps field i s) (hi : i.Coherent)
    (htable : (buildAll (Index.visible i.published i.generation).recorded field).answer = .ok table)
    (requests : List Request) (w : Workspace) :
    ExceptT.run (printReports none s i requests) w =
      ExceptT.run
        (Job.print (textOf ((requests.flatMap (Line.ofRequest table)).map Line.text))) w := by
  -- the index and the session change from report to report; what is published does not
  induction requests generalizing s i w with
  | nil =>
      rw [List.flatMap_nil, List.map_nil, Statistics.textOf_nil, Job.run_print, Console.print_empty]
      rfl
  | cons request requests ih =>
      obtain ⟨s', j, hs', hj, hpublished, hgeneration, hrun⟩ := tableOf_keeps hs hi w
      rw [htable] at hrun
      rw [printReports, Job.run_bind, hrun]
      dsimp only [Except.map]
      rw [← hpublished, ← hgeneration] at htable
      rw [List.flatMap_cons, List.map_append, Statistics.textOf_append, Job.run_print_append,
        Job.run_bind, Job.run_bind, report_prints]
      simp only [ih hs' hj htable]

/-- Where there is no table the first report fails, and nothing has been printed. -/
theorem printReports_fails (hs : Index.Keeps field i s) (hi : i.Coherent) {e : Fault}
    (htable : (buildAll (Index.visible i.published i.generation).recorded field).answer = .error e)
    {requests : List Request} (hne : requests ≠ []) (w : Workspace) :
    ExceptT.run (printReports none s i requests) w = (.error e, w) := by
  cases requests with
  | nil => exact absurd rfl hne
  | cons request requests =>
      obtain ⟨s', j, -, -, -, -, hrun⟩ := tableOf_keeps hs hi w
      rw [htable] at hrun
      rw [printReports, Job.run_bind, hrun]
      rfl

end Columns

/-! ## the digest -/

section Digest

variable (a : TermArguments) (table : Table)

/-- What a digest has collected from terms: their entries and the missing ones, each in order. -/
theorem foldl_note (r : TermDigest) (terms : List String) :
    terms.foldl (TermDigest.note table) r =
      { r with
        entries := r.entries ++ terms.filterMap table.lookup
        missing := r.missing ++ terms.filter fun term => (table.lookup term).isNone } := by
  induction terms generalizing r with
  | nil => simp
  | cons term terms ih =>
      rw [List.foldl_cons, ih, TermDigest.note]
      cases h : table.lookup term <;> simp [h]

/-- The entries that are found: those of the terms in the order of the arguments, and then those of
the most frequent or of all terms. -/
def TermArguments.found : List Entry := a.terms.filterMap table.lookup ++ a.rows table

/-- The terms without an entry, in the order of the arguments. -/
def TermArguments.absent : List String := a.terms.filter fun term => (table.lookup term).isNone

/-- What is printed in a format. -/
def TermArguments.printed : Format → String
  | .human => textOf ((a.lines table).map Line.text)
  | .json => (a.reportOf table).text

theorem reportOf_eq : a.reportOf table =
    { field := table.field
      totalDocuments := table.totalDocuments
      entries := a.found table
      missing := a.absent table } := by
  unfold TermArguments.reportOf TermArguments.found TermArguments.rows
  rw [foldl_note]
  cases a.top <;> cases a.all <;> simp [TermArguments.absent]

/-- What the two formats say of one table. -/
structure TellsAlike : Prop where
  /-- A reader of the digest finds the entries, with their statistics, and the missing terms. -/
  digest : readDigest? (a.printed table .json) = some
    { field := table.field
      totalDocuments := table.totalDocuments
      entries := (a.found table).map .ofEntry
      missing := a.absent table }
  /-- In columns the same entries have their lines in the same order. -/
  entryLines : (a.lines table).filterMap Line.found? = a.found table
  /-- The notices are about the missing terms, in the same order. -/
  notices : (a.lines table).filterMap Line.missing? = a.absent table
  /-- In columns one line after the other answers for one term after the other. -/
  answered : (a.terms.map (Line.answering table)).map Line.term? = a.terms.map some
  /-- In the digest every term is answered for once, by an entry or as a missing term. -/
  once : ((a.terms.filterMap table.lookup).map Entry.term ++ a.absent table).Perm a.terms

variable {table}

/-- The terms that are found, where what is looked up for a term is its own entry. -/
theorem map_term_filterMap_lookup (h : ∀ term e, table.lookup term = some e → e.term = term)
    (terms : List String) : (terms.filterMap table.lookup).map Entry.term =
      terms.filter fun term => (table.lookup term).isSome := by
  induction terms with
  | nil => rfl
  | cons term terms ih =>
      cases hlookup : table.lookup term with
      | none => simp [hlookup, ih]
      | some e => simp [hlookup, ih, h term e hlookup]

theorem term?_answering (h : ∀ term e, table.lookup term = some e → e.term = term)
    (term : String) : (Line.answering table term).term? = some term := by
  unfold Line.answering
  cases hlookup : table.lookup term with
  | none => rfl
  | some e => exact congrArg some (h term e hlookup)

/-- A table that answers for a term with the entry of this term is told alike. -/
theorem tellsAlike_of_lookup (h : ∀ term e, table.lookup term = some e → e.term = term) :
    TellsAlike a table where
  digest := by rw [TermArguments.printed, readDigest?_text, reportOf_eq]
  entryLines := by
    have hterms : Line.found? ∘ Line.answering table = table.lookup :=
      funext (Line.found?_answering table)
    rw [TermArguments.found, TermArguments.lines, List.filterMap_append, List.filterMap_map, hterms,
      List.filterMap_append, TermArguments.rows]
    congr 2
    · cases a.top <;> simp
    · cases a.all <;> simp
  notices := by
    have hterms : Line.missing? ∘ Line.answering table =
        Option.guard fun term => (table.lookup term).isNone :=
      funext (Line.missing?_answering table)
    rw [TermArguments.absent, TermArguments.lines, List.filterMap_append, List.filterMap_map,
      hterms, List.filterMap_append, List.filterMap_eq_filter]
    cases a.top <;> cases a.all <;> simp
  answered := by
    rw [List.map_map]
    exact List.map_congr_left fun term _ => term?_answering h term
  once := by
    rw [map_term_filterMap_lookup h, TermArguments.absent]
    simpa using List.filter_append_perm (fun term => (table.lookup term).isSome) a.terms

end Digest

/-! ## the command -/

theorem openFilled_reads (c : Config) (w : Workspace) :
    Ensures (openFilled c) w (fun i _ => i.Coherent) fun _ _ => True := by
  unfold openFilled
  refine ensures_get_bind ?_
  split
  · exact ensures_throw trivial
  · refine (OpenIndex.openFolder_reads _ w).bind fun (o, found) v hv => ?_
    cases found with
    | created => exact ensures_throw trivial
    | existing => exact ensures_pure (OpenIndex.coherent_of_views hv.2)

/-- What the command does in a format. -/
def TermArguments.outcome (a : TermArguments) (format : Format) (c : Config) (w : Workspace) :
    Except Fault Unit × Workspace :=
  ExceptT.run (TermArguments.run { a with format := format } c) w

/-- A table to report is found: the settings and the arguments pass their checks, an index with
documents is opened, and the table is that of these documents. -/
structure Finds (a : TermArguments) (c : Config) (w v : Workspace) (table : Table) : Prop where
  settings : c.check = .ok ()
  arguments : a.check = .ok ()
  index : ∃ i, ExceptT.run (openFilled c) w = (.ok i, v) ∧
    (buildAll (Index.visible i.published i.generation).recorded c.field).answer = .ok table

theorem length_reports (a : TermArguments) : a.reports.length = a.requests := by
  unfold TermArguments.reports TermArguments.overviews TermArguments.requests
  cases a.top <;> cases a.all <;> simp

theorem reports_ne_nil {a : TermArguments} (h : a.check = .ok ()) : a.reports ≠ [] := by
  intro hnil
  have hrequests : a.requests = 0 := by rw [← length_reports, hnil, List.length_nil]
  rw [TermArguments.check, hrequests] at h
  cases h

section Outcomes

variable {a : TermArguments} {c : Config} {w v : Workspace} {i : Index}

/-- Until the index is open nothing depends on the format. -/
theorem outcome_eq (a : TermArguments) (format : Format) (c : Config) (w : Workspace) :
    a.outcome format c w =
      match c.check, a.check, ExceptT.run (openFilled c) w with
      | .error e, _, _ => (.error e, w)
      | _, .error e, _ => (.error e, w)
      | _, _, (.error e, v) => (.error e, v)
      | .ok (), .ok (), (.ok i, v) =>
        match format with
        | .json => ExceptT.run (tableOf { field := c.field } i >>= fun (table, _) =>
            (a.reportOf table).print a.output) v
        | .human => ExceptT.run (printReports a.output { field := c.field } i a.reports) v := by
  have harguments : { a with format := format }.check = a.check := rfl
  rw [TermArguments.outcome, TermArguments.run, Job.run_ofExcept_bind]
  cases c.check with
  | error e => rfl
  | ok =>
      dsimp only
      rw [Job.run_ofExcept_bind, harguments]
      cases a.check with
      | error e => rfl
      | ok =>
          dsimp only
          rw [Job.run_bind]
          rcases ExceptT.run (openFilled c) w with ⟨e | i, v⟩
          · rfl
          · cases format <;> rfl

/-- Nothing has been printed when a table is found. -/
theorem Finds.console {table : Table} (h : Finds a c w v table) : v.console = w.console := by
  obtain ⟨i, hopen, -⟩ := h.index
  have hsilent := openFilled_silent c w
  rwa [hopen] at hsilent

/-- A table that is found is printed, in columns as well as in a digest. -/
theorem Finds.outcome (houtput : a.output = none) {table : Table} (h : Finds a c w v table)
    (format : Format) :
    a.outcome format c w = ExceptT.run (Job.print (a.printed table format)) v := by
  obtain ⟨i, hopen, htable⟩ := h.index
  have hi : i.Coherent := (openFilled_reads c w).of_ok hopen
  have hs := Index.Keeps.new c.field i
  simp only [outcome_eq, h.settings, h.arguments, hopen, houtput]
  cases format with
  | human => rw [printReports_prints hs hi htable, TermArguments.flatMap_reports]; rfl
  | json =>
      obtain ⟨s, j, -, -, -, -, htableOf⟩ := tableOf_keeps hs hi v
      rw [htable] at htableOf
      dsimp only
      rw [Job.run_bind, htableOf]
      have hprint : ExceptT.run ((a.reportOf table).print none) v =
          ExceptT.run (Job.print (a.reportOf table).text >>= fun _ => return ()) v := rfl
      dsimp only [Except.map]
      rw [hprint, bind_pure_unit]
      rfl

/-- Where no table is found both formats end with the same failure, and print nothing. -/
theorem finds_or_fails (houtput : a.output = none) (c : Config) (w : Workspace) :
    (∃ v table, Finds a c w v table) ∨
      ∃ e v, v.console = w.console ∧ ∀ format, a.outcome format c w = (.error e, v) := by
  simp only [outcome_eq, houtput]
  cases hsettings : c.check with
  | error e => exact .inr ⟨e, w, rfl, fun _ => rfl⟩
  | ok =>
    cases harguments : a.check with
    | error e => exact .inr ⟨e, w, rfl, fun _ => rfl⟩
    | ok =>
      have hsilent := openFilled_silent c w
      rcases hopen : ExceptT.run (openFilled c) w with ⟨e | i, v⟩
      all_goals rw [hopen] at hsilent
      · exact .inr ⟨e, v, hsilent, fun _ => rfl⟩
      -- the failure of a build comes through a report in columns, and there is at least one of them
      cases htable :
        (buildAll (Index.visible i.published i.generation).recorded c.field).answer with
      | ok table => exact .inl ⟨v, table, hsettings, harguments, i, hopen, htable⟩
      | error e =>
          have hi : i.Coherent := (openFilled_reads c w).of_ok hopen
          have hs := Index.Keeps.new c.field i
          refine .inr ⟨e, v, hsilent, fun format => ?_⟩
          cases format with
          | human => exact printReports_fails hs hi htable (reports_ne_nil harguments) v
          | json =>
              obtain ⟨s, j, -, -, -, -, htableOf⟩ := tableOf_keeps hs hi v
              rw [htable] at htableOf
              dsimp only
              rw [Job.run_bind, htableOf]
              rfl

/-- What is looked up in a table that is found for a term is the entry of this term. -/
theorem Finds.term_of_lookup {table : Table} (h : Finds a c w v table) {term : String} {e : Entry}
    (hlookup : table.lookup term = some e) : e.term = term := by
  obtain ⟨i, -, htable⟩ := h.index
  rw [Statistics.buildAll_eq_build rfl] at htable
  exact (Statistics.Table.isBuilt_of_build htable).term_of_lookup hlookup

end Outcomes

/-- How the formats of a command agree. -/
structure Agree (a : TermArguments) (c : Config) (w : Workspace) : Prop where
  /-- A format succeeds exactly where there is a table to report and the console takes what is
  printed of it. -/
  succeeds : ∀ format, (∃ u, a.outcome format c w = (.ok (), u)) ↔
    ∃ v table, Finds a c w v table ∧ (w.console.print (a.printed table format)).2 = .ok ()
  /-- Where the console takes everything both succeed, or both fail with one error. -/
  alike : w.console.room = none → (a.outcome .human c w).1 = (a.outcome .json c w).1
  /-- Where there is no table to report both fail alike, and print nothing. -/
  fails : (¬∃ v table, Finds a c w v table) →
    ∃ e v, v.console = w.console ∧ ∀ format, a.outcome format c w = (.error e, v)
  /-- A table to report is printed in either format, and they tell the same of it. -/
  tells : ∀ v table, Finds a c w v table → TellsAlike a table ∧
    ∀ format, (a.outcome format c w).2 =
      { v with console := (w.console.print (a.printed table format)).1 }

/-- **Agreement of the formats**: without a destination a command succeeds in columns exactly if it
does as a digest, as long as the console takes what is printed, and then a reader of the digest finds
what the lines of the columns say. -/
theorem formats_agree (a : TermArguments) (houtput : a.output = none) (c : Config) (w : Workspace) :
    Agree a c w := by
  have hprints : ∀ {v table}, Finds a c w v table → ∀ format, a.outcome format c w =
      (Job.filesFault (w.console.print (a.printed table format)).2,
        { v with console := (w.console.print (a.printed table format)).1 }) := by
    intro v table hfinds format
    rw [hfinds.outcome houtput, Job.run_print, hfinds.console]
  refine ⟨fun format => ⟨?_, ?_⟩, fun hroom => ?_, fun hnone => ?_, fun v table hfinds => ?_⟩
  · rintro ⟨u, hu⟩
    obtain ⟨v, table, hfinds⟩ | ⟨e, v, -, hfails⟩ := finds_or_fails houtput c w
    · rw [hprints hfinds] at hu
      exact ⟨v, table, hfinds, Job.filesFault_eq_ok_iff.mp (congrArg Prod.fst hu)⟩
    · rw [hfails] at hu
      cases congrArg Prod.fst hu
  · rintro ⟨v, table, hfinds, hroom⟩
    exact ⟨_, by rw [hprints hfinds, hroom]; rfl⟩
  · obtain ⟨v, table, hfinds⟩ | ⟨e, v, -, hfails⟩ := finds_or_fails houtput c w
    · rw [hprints hfinds, hprints hfinds, Console.print_of_unlimited hroom,
        Console.print_of_unlimited hroom]
    · rw [hfails, hfails]
  · exact (finds_or_fails houtput c w).resolve_left hnone
  · exact ⟨tellsAlike_of_lookup a fun _ _ => hfinds.term_of_lookup,
      fun format => by rw [hprints hfinds]⟩

/-! ### a term that is asked for twice -/

open OpenIndex (Shelf asking emptyDesk filled theCat)

theorem openFilled_of_existing {c : Config} {w v : Workspace} {o : OpenIndex}
    (hpresent : OpenIndex.isPresent w.files c.indexFolder = true)
    (hrun : ExceptT.run (OpenIndex.openFolder { c with regenerate := false }) w =
      (.ok (o, .existing), v)) : ExceptT.run (openFilled c) w = (.ok o.index, v) := by
  have hget : ExceptT.run (get : Job Workspace) w = (.ok w, w) := rfl
  rw [openFilled, Job.run_bind, hget]
  simp only [hpresent, Bool.not_true, Bool.false_eq_true, if_false]
  rw [Job.run_bind, hrun]
  rfl

/-- The index with the document of two words, one of them left out. -/
def shelved : Workspace := (Shelf.after emptyDesk filled).leave.workspace

/-- A term that the document has, one that it lacks, the first again, and all terms. -/
def catTwice : TermArguments where
  terms := ["cat", "dog", "cat"]
  all := true

theorem finds_shelved : ∃ v table, Finds catTwice (asking []) shelved v table ∧
    table.lookup "dog" = none ∧
      ∃ e, table.entries = [e] ∧ e.term = "cat" ∧ table.lookup "cat" = some e := by
  obtain ⟨segments, v, hpresent, hrun, hsegments⟩ := OpenIndex.Study.reused_filled
  have harranges : Index.Arranges .content [["cat"]] segments.flatten := by
    have hterms : Index.fieldTerms (Analyzer.ofConfig (asking ["The"])) .content theCat =
        ["cat"] := by cbv
    have hentries : segments.flatten =
        [theCat].map (Index.Entry.ofDocument (Analyzer.ofConfig (asking ["The"]))) := hsegments
    rw [hentries]
    refine Index.arranges_ofDocument (a := Analyzer.ofConfig (asking ["The"])) (by decide)
      (fun d hd => ?_) (by decide)
    obtain rfl := List.mem_singleton.mp hd
    rw [hterms]
    rfl
  obtain ⟨table, e, hfound, hbuilt, hentries, hterm⟩ := Index.exists_table_singleton harranges 0
  have hmem : e ∈ table.entries := by rw [hentries]; exact List.mem_singleton_self e
  refine ⟨v, table, ⟨rfl, rfl, _, openFilled_of_existing hpresent hrun, hfound⟩, ?_, e, hentries,
    hterm, ?_⟩
  · refine hbuilt.lookup_of_not_mem fun e' he' => ?_
    rw [hentries, List.mem_singleton] at he'
    rw [he', hterm]
    decide
  · rw [← hterm]
    exact hbuilt.lookup_of_mem hmem

/-- Nothing has been printed yet. -/
theorem console_shelved : shelved.console = {} := by
  have hclose : ∀ o : OpenIndex, OpenIndex.Silent o.close := OpenIndex.console_close
  rw [shelved, Shelf.leaves_leave Workspace.console hclose]
  exact Shelf.leaves_after Workspace.console OpenIndex.openFolder_silent hclose
    OpenIndex.add_silent OpenIndex.commit_silent emptyDesk filled

/-- The found term has its line as often as it is asked for, and the other one its notice. -/
theorem formats_agree_shelved : ∃ (human json : Workspace) (table : Table) (e : Entry),
    catTwice.outcome .human (asking []) shelved = (.ok (), human) ∧
      catTwice.outcome .json (asking []) shelved = (.ok (), json) ∧ e.term = "cat" ∧
      human.console.text =
        textOf [entryLine e, absentLine "dog", entryLine e, header, entryLine e] ∧
      readDigest? json.console.text = some
        ⟨table.field, table.totalDocuments, [.ofEntry e, .ofEntry e, .ofEntry e], ["dog"]⟩ := by
  obtain ⟨v, table, hfinds, hdog, e, hentries, hterm, hcat⟩ := finds_shelved
  have hagree := formats_agree catTwice rfl (asking []) shelved
  obtain ⟨htells, hleft⟩ := hagree.tells v table hfinds
  have hprint := fun text => Console.print_of_unlimited (c := shelved.console)
    (congrArg Console.room console_shelved) text
  have hsucceeds : ∀ format, ∃ u, catTwice.outcome format (asking []) shelved = (.ok (), u) ∧
      u.console.text = catTwice.printed table format := by
    intro format
    obtain ⟨u, hu⟩ := (hagree.succeeds format).mpr ⟨v, table, hfinds, by rw [hprint]⟩
    have hconsole := congrArg Workspace.console (hleft format)
    rw [hu, hprint] at hconsole
    refine ⟨u, hu, ?_⟩
    rw [hconsole, console_shelved, String.empty_append]
  obtain ⟨human, hhuman, hcolumns⟩ := hsucceeds .human
  obtain ⟨json, hjson, hdigest⟩ := hsucceeds .json
  have hlines : catTwice.lines table =
      [.entry e, .absent "dog", .entry e, .heading, .entry e] := by
    simp [TermArguments.lines, catTwice, Line.answering, Line.listing, hcat, hdog, hentries]
  have hfound : catTwice.found table = [e, e, e] := by
    rw [← htells.entryLines, hlines]
    rfl
  have habsent : catTwice.absent table = ["dog"] := by
    rw [← htells.notices, hlines]
    rfl
  refine ⟨human, json, table, e, hhuman, hjson, hterm, ?_, ?_⟩
  · rw [hcolumns, TermArguments.printed, hlines]
    rfl
  · rw [hdigest, htells.digest, hfound, habsent]
    rfl

end Concordance.CommandLine
