import Concordance.CommandLine.Run
import Concordance.Proofs.Config.Reader
import Concordance.Proofs.Index.Making
import Concordance.Proofs.Indexing.Unhindered
import Concordance.Proofs.Statistics.Report

/-!
# Concordance.Proofs.CommandLine.Run

What a command does to the documents of an index.

* `openFilled_keeps`, `TermArguments.run_keeps` — the commands that ask leave them as they are;
* `refill_fills`, `refill_keeps` — once the folder is as the settings ask for, an indexing that
  finds none leaves all of a corpus or none, and one that finds documents leaves them alone;
* `run_build` — which of these an indexing does;
* `build_of_desk` — where nothing is refused an indexing succeeds.
-/

namespace Concordance.CommandLine

open Files
open Files.Tree (Around LeadsTo IsElsewhere)

/-! ## settings -/

theorem Arguments.settings_length {a : Arguments} {t : Tree} {c : Config}
    (h : a.settings t = .ok c) : c.maxTokenLength < Decimal.wordLimit := by
  unfold Arguments.settings at h
  split at h
  · cases h
  · next d hd =>
    have hlength : d.maxTokenLength < Decimal.wordLimit := by
      split at hd
      · exact Config.ofFile_length hd
      · cases hd
        exact Config.length_default
    cases h
    exact hlength

/-- The settings that a command works with: those of the run with its own arguments over them. -/
def Command.over (settings : Config) : Command → Config
  | .index a => a.over settings
  | .term _ => settings
  | .search a => a.over settings
  | .explain a => a.over settings

/-! ## asking -/

open OpenIndex (Found Holding Stores absolute fresh openFolder reopen removal)
open Indexing (HasFed HasFailed)
open Job (Keeps)

variable {place : Place} {t : Tree} {entries : List Index.Entry}

theorem parse_keeps {K : Tree → Prop} (i : Index) (style : Query.Style) (field text : String) :
    Keeps K (i.parse style field text) := by
  unfold Index.parse
  refine (Job.keeps_ofExcept (Index.textField field)).bind fun f => ?_
  cases style with
  | classic => exact Job.keeps_ofExcept _
  | lenient =>
      dsimp only
      generalize Query.parseLenient i.analyzer f text = read
      obtain ⟨q, mistakes⟩ := read
      refine Keeps.bind (Job.keeps_modify ?_) fun _ => Job.keeps_pure q
      exact fun _ => rfl

theorem report_keeps {K : Tree → Prop} {f : Console → Tree → Statistics.Reported}
    (hf : ∀ console u, K u → K (f console u).files) : Keeps K (report f) :=
  fun w hw => hf w.console w.files hw

theorem print_keeps (r : TermDigest) {destination : Option String}
    (hpath : ∀ path, destination = some path → IsElsewhere t place path) :
    Keeps (Holding place t entries) (r.print destination) := by
  unfold TermDigest.print
  refine (Job.keeps_print r.text).bind fun _ => ?_
  cases destination with
  | none => exact Job.keeps_pure _
  | some path =>
      exact Job.keeps_alter fun u hu => hu.spares (hu.around.write_spares (hpath path rfl) _)

theorem printReports_keeps {destination : Option String}
    (hpath : ∀ path, destination = some path → IsElsewhere t place path)
    (requests : List Statistics.Request) (s : Statistics.Session) (i : Index) :
    Keeps (Holding place t entries) (printReports destination s i requests) := by
  induction requests generalizing s i with
  | nil => exact Job.keeps_pure _
  | cons request requests ih =>
      refine (Job.keeps_ofExcept _).bind fun (table, s, i) => ?_
      have hreport : Keeps (Holding place t entries)
          (report (request.report table · · destination)) := report_keeps fun console u hu =>
        hu.spares (Statistics.Request.report_spares hu.around hpath table request console)
      exact hreport.bind fun _ => ih s i

section Asking

variable (hleads : LeadsTo t place (absolute place)) {c : Config}
  (hpath : LeadsTo t place c.indexFolder) (hlength : c.maxTokenLength < Decimal.wordLimit)
include hleads hpath hlength

theorem openFilled_keeps (entries : List Index.Entry) :
    Keeps (Holding place t entries) (openFilled c) := by
  have hopen : Keeps (Holding place t entries) (openFolder { c with regenerate := false }) := by
    rw [OpenIndex.openFolder_eq_reopen rfl]
    exact OpenIndex.reopen_keeps hleads hpath hlength entries
  unfold openFilled
  refine Job.keeps_get.bind fun w => ?_
  split
  · exact Job.keeps_throw _
  · refine hopen.bind fun (o, found) => ?_
    cases found with
    | created => exact Job.keeps_throw _
    | existing => exact Job.keeps_pure _

theorem TermArguments.run_keeps (a : TermArguments)
    (houtput : ∀ path, a.output = some path → IsElsewhere t place path) :
    Keeps (Holding place t entries) (a.run c) := by
  refine (Job.keeps_ofExcept c.check).bind fun _ => (Job.keeps_ofExcept a.check).bind fun _ => ?_
  refine (openFilled_keeps hleads hpath hlength entries).bind fun i => ?_
  dsimp only
  split
  · exact Keeps.bind (Job.keeps_ofExcept _) fun (table, _) => print_keeps _ houtput
  · exact printReports_keeps houtput a.reports _ i

end Asking

section Commands

variable (hleads : LeadsTo t place (absolute place)) {settings : Config}
  (hpath : LeadsTo t place settings.indexFolder)
  (hlength : settings.maxTokenLength < Decimal.wordLimit)
include hleads hpath hlength

theorem SearchArguments.run_keeps (a : SearchArguments) :
    Keeps (Holding place t entries) (a.run settings) := by
  refine (Job.keeps_ofExcept (a.over settings).check).bind fun _ => ?_
  have hopen : Keeps (Holding place t entries) (openFilled (a.over settings)) :=
    openFilled_keeps hleads hpath hlength entries
  refine hopen.bind fun i => (parse_keeps i _ _ _).bind fun q => ?_
  exact Job.keeps_print _

theorem ExplainArguments.run_keeps (a : ExplainArguments) :
    Keeps (Holding place t entries) (a.run settings) := by
  refine (Job.keeps_ofExcept (a.over settings).check).bind fun _ => ?_
  have hopen : Keeps (Holding place t entries) (openFilled (a.over settings)) :=
    openFilled_keeps hleads hpath hlength entries
  refine hopen.bind fun i => (parse_keeps i _ _ _).bind fun q => ?_
  exact (Job.keeps_ofExcept _).bind fun text => Job.keeps_print _

end Commands

/-! ## indexing -/

/-- What an indexing does once the folder is as the settings ask for. -/
def refill (corpus : String) (c : Config) : Job IndexNotice := do
  let (o, found) ← reopen c
  let summary ← fill o found corpus c
  return { index := c.indexFolder, found := found, summary := summary }

section Build

variable {a : IndexArguments} {settings : Config}

/-- With settings that pass the check an indexing begins with the removing that they ask for. -/
theorem run_build (hcheck : (a.over settings).check = .ok ()) (w : Workspace) :
    ExceptT.run (a.build settings) w =
      ExceptT.run (removal (a.over settings) >>= fun _ => refill a.corpus (a.over settings)) w := by
  have hbuild : a.build settings = Job.ofExcept (a.over settings).check >>= fun _ =>
      removal (a.over settings) >>= fun _ => refill a.corpus (a.over settings) := by
    unfold IndexArguments.build refill
    simp only [OpenIndex.openFolder_eq, bind_assoc]
  rw [hbuild, Job.run_ofExcept_bind, hcheck]

theorem run_build_of_removal (hcheck : (a.over settings).check = .ok ()) {w v : Workspace}
    (h : ExceptT.run (removal (a.over settings)) w = (.ok (), v)) :
    ExceptT.run (a.build settings) w =
      ExceptT.run (refill a.corpus (a.over settings)) v := by
  rw [run_build hcheck, Job.run_bind_of_ok h]

/-- Printing leaves the files as the building has left them. -/
theorem files_run (w : Workspace) :
    (ExceptT.run (a.run settings) w).2.files = (ExceptT.run (a.build settings) w).2.files := by
  unfold IndexArguments.run
  rw [Job.run_bind]
  rcases ExceptT.run (a.build settings) w with ⟨_ | _, _⟩ <;> rfl

end Build

/-- What feeding leaves once the index is left. -/
theorem run_feed (o : OpenIndex) (corpus : String) (c : Config) (w : Workspace) :
    ExceptT.run (feed o corpus c) w =
      (match (Indexing.feedCorpus Sink.ofIndex Indexing.indexDesk corpus c).run
          ⟨⟨w, o⟩, none, {}⟩ with
      | (answer, p) => (answer, (ExceptT.run p.sink.index.close p.sink.workspace).2)) := rfl

section Refill

variable {c : Config} (hpath : LeadsTo t place c.indexFolder)
include hpath

section Fill

variable (hleads : LeadsTo t place (absolute place))
  (hgrowth : ∀ folder, c.growthFolder = some folder →
    ∀ document, IsElsewhere t place (Growth.filePath folder document))
include hleads hgrowth

omit hpath in
theorem feed_fills {w : Workspace} (hu : Around place t w.files)
    (hs : Stores place w.files [] (Analyzer.ofConfig c)) (corpus : String) :
    Ensures (feed (fresh place c) corpus c) w
      (fun _ v => HasFed place t c corpus w.files v.files)
      (fun e v => HasFailed place t c corpus w.files e v.files) := by
  have hfeed := Indexing.feedCorpus_fills (p := ⟨⟨w, fresh place c⟩, none, {}⟩) hleads hgrowth hu hs
    rfl corpus
  rw [Ensures, run_feed]
  rcases hanswer : (Indexing.feedCorpus Sink.ofIndex Indexing.indexDesk corpus c).run
      ⟨⟨w, fresh place c⟩, none, {}⟩ with ⟨e | a, p⟩
  · have hfailed := hfeed.of_error hanswer
    dsimp only
    rwa [OpenIndex.files_of_close]
  · have hfed := hfeed.of_ok hanswer
    dsimp only
    rwa [OpenIndex.files_of_close]

/-- An indexing that finds no documents ends with all documents of the corpus where it succeeds or
only growth could not be saved.  Where it fails otherwise it ends with none, or with all of them if
they could not be read back. -/
theorem refill_fills (hlength : c.maxTokenLength < Decimal.wordLimit) {w : Workspace}
    (hw : Holding place t [] w.files) (corpus : String) :
    Ensures (refill corpus c) w
      (fun _ v => HasFed place t c corpus (ExceptT.run (reopen c) w).2.files v.files)
      (fun e v => HasFailed place t c corpus (ExceptT.run (reopen c) w).2.files e v.files) := by
  have hopen := OpenIndex.reopen_vacant hleads hpath hlength hw
  refine (hopen.with_run.imp_error fun e v hv => .inr ⟨hv.1.2, .inl hv.1.1⟩).bind
    fun (o, found) v hv => ?_
  obtain ⟨⟨heq, hu, hs⟩, hrun⟩ := hv
  cases heq
  rw [hrun]
  have hfill : Ensures (fill (fresh place c) .created corpus c) v
      (fun _ u => HasFed place t c corpus v.files u.files)
      (fun e u => HasFailed place t c corpus v.files e u.files) :=
    Ensures.map (feed_fills hleads hgrowth hu hs corpus)
  exact hfill.bind fun _ _ hu => ensures_pure hu

end Fill

section Keep

variable (hne : entries ≠ []) {w : Workspace} (hw : Holding place t entries w.files)
include hne hw

/-- An indexing that finds documents leaves them alone. -/
theorem refill_keeps (corpus : String) :
    Holding place t entries (ExceptT.run (refill corpus c) w).2.files := by
  have hopen := OpenIndex.reopen_existing hpath hne hw
  have hkeeps : Ensures (refill corpus c) w (fun _ v => Holding place t entries v.files)
      (fun _ v => Holding place t entries v.files) := by
    refine hopen.bind fun (o, found) v hv => ?_
    obtain ⟨rfl, hv⟩ := hv
    have hfill : Keeps (Holding place t entries) (fill o .existing corpus c) := by
      unfold fill
      dsimp only
      split
      · exact (Job.keeps_warn _).bind fun _ => Job.keeps_pure _
      · exact Job.keeps_pure _
    exact ((hfill.bind fun _ => Job.keeps_pure _).ensures hv)
  unfold Ensures at hkeeps
  split at hkeeps
  all_goals
    next hrun =>
    rwa [hrun]

/-- An indexing that finds documents does not read its corpus. -/
theorem refill_corpus (corpus corpus' : String) :
    ExceptT.run (refill corpus c) w = ExceptT.run (refill corpus' c) w := by
  have hopen := OpenIndex.reopen_existing hpath hne hw
  refine run_bind_congr (hopen.mono (fun (o, found) v hv => ?_) fun _ _ _ => trivial)
  obtain ⟨rfl, -⟩ := hv
  rfl

end Keep

end Refill

section Desk

open OpenIndex (IsDesk indexPlace made)

variable {w : Workspace} (hw : IsDesk w) {c : Config} (hindex : c.indexFolder = "index")
  (hregenerate : c.regenerate = false) (hlength : c.maxTokenLength < Decimal.wordLimit)
  (hmemory : Index.checkMemory c.writerMemory = .ok ()) (hgrowth : c.growthFolder = none)
  {corpus : String} {documents : List Document}
  (hload : Corpus.load (made indexPlace c (w.files.put indexPlace .folder)) corpus = .ok documents)
include hw hindex hregenerate hlength hmemory hgrowth hload

/-- The files of an index that was made are filled with the corpus, and nothing else is changed. -/
theorem feed_of_desk : ∃ summary v,
    ExceptT.run (feed (fresh indexPlace c) corpus c)
      { w with files := made indexPlace c (w.files.put indexPlace .folder) } = (.ok summary, v) ∧
    Holding indexPlace w.files (Indexing.entriesOf c documents) v.files ∧
    ∀ p, ¬indexPlace <+: p → v.files.node? p = w.files.node? p := by
  obtain ⟨hu, hs⟩ := hw.stores_made hindex hregenerate hlength
  have hmade : ∀ p, ¬indexPlace <+: p →
      (made indexPlace c (w.files.put indexPlace .folder)).node? p = w.files.node? p := by
    intro p hp
    have hne : ∀ name, p ≠ indexPlace ++ [name] := by
      rintro name rfl
      exact hp (OpenIndex.below_place indexPlace name)
    have hne' : p ≠ indexPlace := by
      rintro rfl
      exact hp (List.prefix_refl _)
    rw [made, OpenIndex.listed, Tree.node?_put, Tree.node?_put, Tree.node?_put, if_neg (hne _),
      if_neg (hne _), if_neg hne']
  have hlimits : (made indexPlace c (w.files.put indexPlace .folder)).limits = {} := hw.limits
  generalize made indexPlace c (w.files.put indexPlace .folder) = u at hu hs hmade hload hlimits ⊢
  have hleads := hw.straight.names.toLeadsTo
  have hwritable : Indexing.Writable indexPlace c { w with files := u } :=
    ⟨by rw [hw.locks]; exact List.not_mem_nil, hmemory, hlimits⟩
  have hrecords : c.recordsGrowth = false := by rw [Config.recordsGrowth, hgrowth]; rfl
  have hfeed := (Indexing.feedCorpus_succeeds
    (p := ⟨⟨{ w with files := u }, fresh indexPlace c⟩, none, {}⟩) hleads hu hs rfl hwritable
    hrecords hload).and (Indexing.feedCorpus_fills (p := ⟨⟨{ w with files := u },
      fresh indexPlace c⟩, none, {}⟩) hleads (fun _ h => by cases hgrowth.symm.trans h) hu hs rfl
      corpus)
  obtain ⟨summary, p, hrun, hother, loaded, hloaded, hholding⟩ :=
    (hfeed.imp_error fun _ _ h => h.1).exists_run
  obtain rfl := Except.ok.inj (hload.symm.trans hloaded)
  refine ⟨summary, _, by rw [run_feed, hrun], ?_, fun p hp => ?_⟩
  · rwa [OpenIndex.files_of_close]
  · rw [OpenIndex.files_of_close, hother p, hmade p hp]
    rintro rfl
    exact hp (OpenIndex.below_place _ _)

/-- Where nothing is refused the index of a corpus is built. -/
theorem build_of_desk {a : IndexArguments} {settings : Config} (hcorpus : a.corpus = corpus)
    (hover : a.over settings = c) (hcheck : c.check = .ok ()) : ∃ summary v,
    ExceptT.run (a.build settings) w = (.ok ⟨c.indexFolder, .created, some summary⟩, v) ∧
    Holding indexPlace w.files (Indexing.entriesOf c documents) v.files ∧
    ∀ p, ¬indexPlace <+: p → v.files.node? p = w.files.node? p := by
  obtain ⟨summary, v, hfeed, hholding, hother⟩ :=
    feed_of_desk hw hindex hregenerate hlength hmemory hgrowth hload
  refine ⟨summary, v, ?_, hholding, hother⟩
  have hopen := hw.openFolder hindex hregenerate
  unfold IndexArguments.build
  rw [hover, hcorpus]
  dsimp only
  rw [Job.run_ofExcept_bind, hcheck]
  dsimp only
  rw [Job.run_bind_of_ok hopen]
  have hfill : ExceptT.run (fill (fresh indexPlace c) .created corpus c)
      { w with files := made indexPlace c (w.files.put indexPlace .folder) } =
        (.ok (some summary), v) := by
    unfold fill
    rw [map_eq_pure_bind]
    exact (Job.run_bind_of_ok hfeed).trans rfl
  exact (Job.run_bind_of_ok hfill).trans rfl

end Desk

end Concordance.CommandLine
