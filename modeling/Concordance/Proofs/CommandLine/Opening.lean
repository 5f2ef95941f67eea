import Concordance.CommandLine.Run
import Concordance.Proofs.Config.Given
import Concordance.Proofs.Workspace

/-!
# Concordance.Proofs.CommandLine.Opening

With which settings the commands open an index.

The commands are run here with the two calls by which they reach an index left open, so that it can
be said what comes before the first of them: whatever the calls do, a command fails and has changed
nothing, or it begins with opening an index.

* `runOn_real` — with the calls that are made the commands are those of the program;
* `FailsFirst.ofExcept_bind`, `OpensWith.bind` — how the two courses go on from step to step;
* `run_fails_or_opens` — with which settings a command line opens an index, and when it does not.
-/

namespace Concordance.CommandLine

open Files
open OpenIndex (Found isPresent)

/-! ## access -/

/-- How a query is asked for its best hits, and for how many of them at most. -/
abbrev Find := Index → Query → Nat → List Query.Hit

/-- The calls by which a command reaches an index. -/
structure Access where
  /-- Open an index. -/
  openFolder : Config → Job (OpenIndex × Found)
  /-- Ask it for hits. -/
  find : Find

/-- The calls that are made. -/
def Access.real : Access := ⟨OpenIndex.openFolder, Index.search⟩

/-- `IndexArguments.run` with other calls. -/
def IndexArguments.runOn (access : Access) (a : IndexArguments) (settings : Config) :
    Job Unit := do
  let c := a.over settings
  Job.ofExcept c.check
  let (o, found) ← access.openFolder c
  let summary ← fill o found a.corpus c
  Job.print (IndexNotice.text ⟨c.indexFolder, found, summary⟩)

/-- `openFilled` with other calls. -/
def openFilledOn (access : Access) (c : Config) : Job Index := do
  if !isPresent (← get).files c.indexFolder then throw (.config (.noIndex c.indexFolder))
  let (o, found) ← access.openFolder { c with regenerate := false }
  match found with
  | .created => throw (.config (.emptyIndex c.indexFolder))
  | .existing => return o.index

/-- `TermArguments.run` with other calls. -/
def TermArguments.runOn (access : Access) (a : TermArguments) (settings : Config) : Job Unit := do
  Job.ofExcept settings.check
  Job.ofExcept a.check
  let i ← openFilledOn access settings
  let session : Statistics.Session := { field := settings.field }
  match a.format with
  | .json =>
    let (table, _) ← tableOf session i
    (a.reportOf table).print a.output
  | .human => printReports a.output session i a.reports

/-- `SearchArguments.run` with other calls. -/
def SearchArguments.runOn (access : Access) (a : SearchArguments) (settings : Config) :
    Job Unit := do
  let c := a.over settings
  Job.ofExcept c.check
  let i ← openFilledOn access c
  let q ← i.parse c.parser c.field a.query
  Job.print (hitsText (access.find i q c.resultLimit))

/-- `ExplainArguments.run` with other calls. -/
def ExplainArguments.runOn (access : Access) (a : ExplainArguments) (settings : Config) :
    Job Unit := do
  let c := a.over settings
  Job.ofExcept c.check
  let i ← openFilledOn access c
  let q ← i.parse c.parser c.field a.query
  let text ← Job.ofExcept (i.explain q a.document)
  Job.print (text ++ "\n")

/-- `Command.run` with other calls. -/
def Command.runOn (access : Access) (settings : Config) : Command → Job Unit
  | .index a => a.runOn access settings
  | .term a => a.runOn access settings
  | .search a => a.runOn access settings
  | .explain a => a.runOn access settings

/-- `Arguments.run` with other calls. -/
def Arguments.runOn (a : Arguments) (access : Access) : Job Unit := do
  let settings ← Job.inspect a.settings
  a.command.runOn access settings

/-- With the calls that are made the commands are those of the program. -/
theorem runOn_real (a : Arguments) : a.runOn .real = a.run := by
  have hcommand : ∀ settings, a.command.runOn .real settings = a.command.run settings := by
    intro settings
    cases a.command with
    | index i =>
        change i.runOn .real settings = i.run settings
        simp only [IndexArguments.runOn, IndexArguments.run, IndexArguments.build, bind_assoc,
          pure_bind]
        rfl
    | _ => rfl
  rw [Arguments.runOn, Arguments.run]
  simp only [hcommand]

/-! ## before an index is opened -/

/-- A job that fails and changes nothing, whatever the calls do. -/
def FailsFirst (job : Access → Job α) (w : Workspace) : Prop :=
  ∃ e, ∀ access, ExceptT.run (job access) w = (.error e, w)

/-- A job that begins with opening an index with some settings.  What it does afterwards does not
depend on how an index is opened, nor on what is found where no hit is asked for. -/
def OpensWith (c : Config) (job : Access → Job α) (w : Workspace) : Prop :=
  ∃ next : Find → OpenIndex × Found → Job α,
    (∀ access, ExceptT.run (job access) w =
      ExceptT.run (access.openFolder c >>= next access.find) w) ∧
    ∀ find find' : Find, (∀ i q n, 0 < n → find i q n = find' i q n) → next find = next find'

section Steps

variable {c : Config} {w : Workspace}

theorem FailsFirst.bind {job : Access → Job α} (h : FailsFirst job w) (f : Access → α → Job β) :
    FailsFirst (fun access => job access >>= f access) w := by
  obtain ⟨e, he⟩ := h
  exact ⟨e, fun access => by rw [Job.run_bind, he]⟩

/-- An answer that is there already is a fault, or the job goes on with it. -/
theorem FailsFirst.ofExcept_bind {answer : Except Fault α} {f : Access → α → Job β}
    (h : ∀ v, answer = .ok v → FailsFirst (f · v) w) :
    FailsFirst (fun access => Job.ofExcept answer >>= f access) w := by
  cases answer with
  | error e => exact ⟨e, fun access => by rw [Job.run_ofExcept_bind]⟩
  | ok v =>
      obtain ⟨e, he⟩ := h v rfl
      exact ⟨e, fun access => by rw [Job.run_ofExcept_bind]; exact he access⟩

theorem OpensWith.bind {job : Access → Job α} (h : OpensWith c job w) {f : Find → α → Job β}
    (hf : ∀ find find' : Find, (∀ i q n, 0 < n → find i q n = find' i q n) → f find = f find') :
    OpensWith c (fun access => job access >>= f access.find) w := by
  obtain ⟨next, hnext, hfind⟩ := h
  refine ⟨fun find x => next find x >>= f find, fun access => ?_, fun find find' heq => ?_⟩
  · rw [Job.run_bind, hnext, ← Job.run_bind, bind_assoc]
  · dsimp only
    rw [hfind find find' heq, hf find find' heq]

/-- A job fails first, or it opens an index with settings that pass the check. -/
def Checks (c : Config) (job : Access → Job α) (w : Workspace) : Prop :=
  FailsFirst job w ∨ c.check = .ok () ∧ OpensWith c job w

theorem Checks.ofExcept_bind {answer : Except Fault α} {f : Access → α → Job β}
    (h : ∀ v, answer = .ok v → Checks c (f · v) w) :
    Checks c (fun access => Job.ofExcept answer >>= f access) w := by
  cases answer with
  | error e => exact .inl ⟨e, fun access => by rw [Job.run_ofExcept_bind]⟩
  | ok v => exact h v rfl

/-- The index that was opened, if it holds documents. -/
def unlessCreated (c : Config) (x : OpenIndex × Found) : Job Index :=
  match x.2 with
  | .created => throw (.config (.emptyIndex c.indexFolder))
  | .existing => return x.1.index

theorem run_openFilledOn (access : Access) (c : Config) (w : Workspace) :
    ExceptT.run (openFilledOn access c) w =
      if isPresent w.files c.indexFolder then
        ExceptT.run (access.openFolder { c with regenerate := false } >>= unlessCreated c) w
      else (.error (.config (.noIndex c.indexFolder)), w) := by
  unfold openFilledOn
  rw [Job.run_get_bind]
  cases isPresent w.files c.indexFolder with
  | true => rfl
  | false => rfl

theorem failsFirst_openFilledOn (h : isPresent w.files c.indexFolder = false) :
    FailsFirst (openFilledOn · c) w :=
  ⟨.config (.noIndex c.indexFolder), fun access => by rw [run_openFilledOn, h]; rfl⟩

theorem opensWith_openFilledOn (h : isPresent w.files c.indexFolder = true) :
    OpensWith { c with regenerate := false } (openFilledOn · c) w :=
  ⟨fun _ => unlessCreated c, fun access => by rw [run_openFilledOn, h]; rfl, fun _ _ _ => rfl⟩

/-- Where an index is opened that holds documents, settings that pass the check still do. -/
theorem Checks.openFilledOn_bind (hcheck : c.check = .ok ()) {f : Find → Index → Job β}
    (hf : ∀ find find' : Find, (∀ i q n, 0 < n → find i q n = find' i q n) → f find = f find') :
    Checks { c with regenerate := false } (fun access => openFilledOn access c >>= f access.find)
      w := by
  cases hpresent : isPresent w.files c.indexFolder with
  | false => exact .inl ((failsFirst_openFilledOn hpresent).bind _)
  | true => exact .inr ⟨hcheck, (opensWith_openFilledOn hpresent).bind hf⟩

end Steps

/-! ## commands -/

/-- The settings with which a command opens an index.  Only an indexing builds it again. -/
def Command.opening (settings : Config) : Command → Config
  | .index a => a.over settings
  | .term _ => { settings with regenerate := false }
  | .search a => { a.over settings with regenerate := false }
  | .explain a => { a.over settings with regenerate := false }

theorem Command.checks (settings : Config) (command : Command) (w : Workspace) :
    Checks (command.opening settings) (command.runOn · settings) w := by
  cases command with
  | index a =>
      refine Checks.ofExcept_bind fun _ hcheck => .inr ⟨hcheck, ?_⟩
      exact ⟨fun _ x => do
        let summary ← fill x.1 x.2 a.corpus (a.over settings)
        Job.print (IndexNotice.text ⟨(a.over settings).indexFolder, x.2, summary⟩),
        fun _ => rfl, fun _ _ _ => rfl⟩
  | term a =>
      refine Checks.ofExcept_bind fun _ hcheck => Checks.ofExcept_bind fun _ _ => ?_
      exact .openFilledOn_bind hcheck (f := fun _ => _) fun _ _ _ => rfl
  | search a =>
      refine Checks.ofExcept_bind fun _ hcheck => ?_
      -- a limit that passes the check is positive
      have hlimit : 0 < (a.over settings).resultLimit :=
        ((Config.check_eq_ok_iff _).mp hcheck).2.2.2
      refine .openFilledOn_bind hcheck (f := fun find i => do
        let q ← i.parse (a.over settings).parser (a.over settings).field a.query
        Job.print (hitsText (find i q (a.over settings).resultLimit))) fun find find' hfind => ?_
      simp only [hfind _ _ _ hlimit]
  | explain a =>
      refine Checks.ofExcept_bind fun _ hcheck => ?_
      exact .openFilledOn_bind hcheck (f := fun _ => _) fun _ _ _ => rfl

theorem Command.failsFirst_of_check {settings : Config} {command : Command} {w : Workspace}
    (h : (command.opening settings).check ≠ .ok ()) : FailsFirst (command.runOn · settings) w :=
  (command.checks settings w).resolve_right fun hopens => h hopens.1

theorem TermArguments.failsFirst_of_check {settings : Config} {a : TermArguments} {w : Workspace}
    (h : a.check ≠ .ok ()) : FailsFirst (a.runOn · settings) w :=
  FailsFirst.ofExcept_bind fun _ _ => FailsFirst.ofExcept_bind fun _ hcheck => absurd hcheck h

theorem Command.failsFirst_of_absent {settings : Config} {command : Command} {w : Workspace}
    (hasks : ∀ a, command ≠ .index a) (habsent : isPresent w.files settings.indexFolder = false) :
    FailsFirst (command.runOn · settings) w := by
  cases command with
  | index a => exact absurd rfl (hasks a)
  | term a =>
      refine FailsFirst.ofExcept_bind fun _ _ => FailsFirst.ofExcept_bind fun _ _ => ?_
      exact (failsFirst_openFilledOn habsent).bind _
  | search a | explain a =>
      refine FailsFirst.ofExcept_bind fun _ _ => ?_
      exact (failsFirst_openFilledOn (c := a.over settings) habsent).bind _

/-! ## command lines -/

/-- The settings of a configuration file that is named, and else the default ones. -/
inductive Arguments.IsBase (a : Arguments) (t : Tree) : Config → Prop
  | default (hconfig : a.config = none) : a.IsBase t {}
  | file {path : String} {c : Config} (hconfig : a.config = some path)
      (hfile : Config.ofFile t path = .ok c) : a.IsBase t c

/-- What the configuration file gives: the members of the object in it, and nothing where no file is
named. -/
inductive Arguments.FileGives (a : Arguments) (t : Tree) : Config.Given → Prop
  | nothing (hconfig : a.config = none) : a.FileGives t fun _ => none
  | members {path : String} {members : List (String × Json)} {given : Config.Given}
      {p : Json.Padded} (hconfig : a.config = some path)
      (hfile : t.readBytes path = .ok (Tree.bytesOf (String.ofList p.text)))
      (hspells : Json.Spells (Json.ofMembers members) p.chars)
      (hgives : Config.Gives members given) : a.FileGives t given

/-- The settings that stand on a command line. -/
def Arguments.given (a : Arguments) : Config.Given
  | .indexFolder => a.index
  | .field => a.field
  | .growthFolder =>
    match a.command with
    | .index i => i.heap.map some
    | _ => none
  | .parser =>
    match a.command with
    | .search s => s.parser
    | .explain e => e.parser
    | _ => none
  | .resultLimit =>
    match a.command with
    | .search s => s.limit
    | _ => none
  | .regenerate | .writerMemory | .stopWords | .maxTokenLength => none

/-- The stop words on a command line. -/
def Arguments.stopWords (a : Arguments) : List String :=
  match a.command with
  | .index i => i.stopWords
  | _ => []

/-- Whether an index that is there is built again.  Only an indexing does so, if the command line or
the configuration asks for it. -/
def Arguments.rebuilds (a : Arguments) (base : Config) : Bool :=
  match a.command with
  | .index i => base.regenerate || i.regenerate
  | _ => false

/-- Settings that a command line makes of others: what stands on it replaces the setting, but for
stop words, which are put behind those that are there. -/
structure Arguments.Settles (a : Arguments) (base c : Config) : Prop where
  value : ∀ s, s ≠ .stopWords → s ≠ .regenerate → c.value s = (a.given s).getD (base.value s)
  stopWords : c.stopWords = base.stopWords ++ a.stopWords
  regenerate : c.regenerate = a.rebuilds base

/-- A command line that cannot come to anything. -/
inductive Arguments.Hopeless (a : Arguments) (t : Tree) : Prop
  | zeroLimit {s : SearchArguments} (hcommand : a.command = .search s) (hlimit : s.limit = some 0)
  | unknownField {name : String} (hfield : a.field = some name)
      (hname : ∀ field : TextField, name ≠ field.name)
  | nothingRequested {r : TermArguments} (hcommand : a.command = .term r) (hterms : r.terms = [])
      (htop : r.top = none) (hall : r.all = false)
  | severalForOneFile {r : TermArguments} (hcommand : a.command = .term r)
      (houtput : r.output.isSome = true) (hseveral : 2 ≤ r.requests)
  | noIndex {base : Config} (hasks : ∀ i, a.command ≠ .index i) (hbase : a.IsBase t base)
      (habsent : isPresent t (a.index.getD base.indexFolder) = false)

namespace Arguments

variable {a : Arguments} {t : Tree} {w : Workspace} {base settings : Config}

theorem settings_of_isBase (h : a.IsBase t base) :
    a.settings t =
      .ok { base with
        indexFolder := a.index.getD base.indexFolder, field := a.field.getD base.field } := by
  unfold Arguments.settings
  cases h with
  | default hconfig => rw [hconfig]
  | file hconfig hfile =>
      rw [hconfig]
      simp only [hfile]

theorem exists_isBase (h : a.settings t = .ok settings) : ∃ base, a.IsBase t base := by
  unfold Arguments.settings at h
  cases hconfig : a.config with
  | none => exact ⟨{}, .default hconfig⟩
  | some path =>
      rw [hconfig] at h
      cases hfile : Config.ofFile t path with
      | error e => simp [hfile] at h
      | ok c => exact ⟨c, .file hconfig hfile⟩

theorem eq_of_fileGives {given : Config.Given} (hbase : a.IsBase t base)
    (hgiven : a.FileGives t given) : base = given.config := by
  cases hgiven with
  | nothing hnone =>
      cases hbase with
      | default => rfl
      | file hconfig => simp [hnone] at hconfig
  | members hpath hread hspells hgives =>
      cases hbase with
      | default hconfig => simp [hpath] at hconfig
      | file hconfig hfile =>
          obtain rfl := Option.some.inj (hconfig.symm.trans hpath)
          rw [Config.ofFile_of_gives hgives hspells hread] at hfile
          split at hfile
          · cases hfile
          · exact (Except.ok.inj hfile).symm

/-- The settings of a command line are made of those of its file. -/
theorem settles_opening (h : a.IsBase t base) (hsettings : a.settings t = .ok settings) :
    a.Settles base (a.command.opening settings) := by
  cases (settings_of_isBase h).symm.trans hsettings
  obtain ⟨_, _, _, _, _, command⟩ := a
  cases command with
  | index i =>
      refine ⟨fun s hwords hregenerate => ?_, rfl, rfl⟩
      cases s with
      | growthFolder =>
          show i.heap.or base.growthFolder = (i.heap.map some).getD base.growthFolder
          cases i.heap <;> rfl
      | stopWords => exact absurd rfl hwords
      | regenerate => exact absurd rfl hregenerate
      | _ => rfl
  | _ =>
      refine ⟨fun s hwords hregenerate => ?_, (List.append_nil _).symm, rfl⟩
      cases s with
      | stopWords => exact absurd rfl hwords
      | regenerate => exact absurd rfl hregenerate
      | _ => rfl

theorem runOn_of_settings_error {e : Fault} (h : a.settings w.files = .error e) :
    FailsFirst a.runOn w :=
  ⟨e, fun access => by rw [runOn, Job.run_bind, Job.run_inspect, h]⟩

theorem runOn_of_settings (h : a.settings w.files = .ok settings) (access : Access) :
    ExceptT.run (a.runOn access) w = ExceptT.run (a.command.runOn access settings) w := by
  rw [runOn, Job.run_bind, Job.run_inspect, h]

theorem failsFirst_of_command (h : a.settings w.files = .ok settings)
    (hfails : FailsFirst (a.command.runOn · settings) w) : FailsFirst a.runOn w := by
  obtain ⟨e, he⟩ := hfails
  exact ⟨e, fun access => (runOn_of_settings h access).trans (he access)⟩

/-- What cannot come to anything fails first: most of it does not pass a check, and without an index
none is opened. -/
theorem Hopeless.failsFirst (h : a.Hopeless w.files) : FailsFirst a.runOn w := by
  cases hsettings : a.settings w.files with
  | error e => exact runOn_of_settings_error hsettings
  | ok settings =>
      refine failsFirst_of_command hsettings ?_
      obtain ⟨base, hbase⟩ := exists_isBase hsettings
      have hsettles := settles_opening hbase hsettings
      cases h with
      | @zeroLimit s hcommand hlimit =>
          have hzero : (a.command.opening settings).resultLimit = 0 := by
            refine (hsettles.value .resultLimit (by decide) (by decide)).trans ?_
            have hgiven : a.given .resultLimit = s.limit := by
              rw [given, hcommand]
            rw [hgiven, hlimit]
            rfl
          refine Command.failsFirst_of_check fun hcheck => ?_
          have hpos := ((Config.check_eq_ok_iff _).mp hcheck).2.2.2
          omega
      | @unknownField name hfield hname =>
          have hopening : (a.command.opening settings).field = name := by
            refine (hsettles.value .field (by decide) (by decide)).trans ?_
            have hgiven : a.given .field = some name := hfield
            rw [hgiven]
            rfl
          refine Command.failsFirst_of_check fun hcheck => ?_
          obtain ⟨f, hf⟩ := ((Config.check_eq_ok_iff _).mp hcheck).1
          rw [hopening] at hf
          exact hname f (TextField.name_of_ofName? hf)
      | @nothingRequested r hcommand hterms htop hall =>
          have hcheck : r.check ≠ .ok () := by
            simp [TermArguments.check, TermArguments.requests, hterms, htop, hall]
          rw [hcommand]
          exact TermArguments.failsFirst_of_check hcheck
      | @severalForOneFile r hcommand houtput hseveral =>
          have hcheck : r.check ≠ .ok () := by
            unfold TermArguments.check
            split <;> simp_all
          rw [hcommand]
          exact TermArguments.failsFirst_of_check hcheck
      | @noIndex base hasks hbase habsent =>
          refine Command.failsFirst_of_absent hasks ?_
          cases (settings_of_isBase hbase).symm.trans hsettings
          exact habsent

end Arguments

/-- **Before an index is opened**: a command line fails and changes nothing, or it begins with
opening an index with settings that pass the check, which are those on the command line, or else in
the file that it names, or else the default ones.  No index is asked for no hits.  What cannot come
to anything fails before an index is opened. -/
theorem run_fails_or_opens (a : Arguments) (w : Workspace) :
    a.runOn .real = a.run ∧
      (FailsFirst a.runOn w ∨ ∃ base c, a.IsBase w.files base ∧ a.Settles base c ∧
        c.check = .ok () ∧ OpensWith c a.runOn w) ∧
      (a.Hopeless w.files → FailsFirst a.runOn w) ∧
      ∀ base given, a.IsBase w.files base → a.FileGives w.files given →
        ∀ s, base.value s = (given s).getD (({} : Config).value s) := by
  refine ⟨runOn_real a, ?_, Arguments.Hopeless.failsFirst, ?_⟩
  · cases hsettings : a.settings w.files with
    | error e => exact .inl (Arguments.runOn_of_settings_error hsettings)
    | ok settings =>
        obtain ⟨base, hbase⟩ := Arguments.exists_isBase hsettings
        obtain hfails | ⟨hcheck, next, hnext, hfind⟩ := a.command.checks settings w
        · exact .inl (Arguments.failsFirst_of_command hsettings hfails)
        · refine .inr ⟨base, _, hbase, Arguments.settles_opening hbase hsettings, hcheck, next,
            fun access => ?_, hfind⟩
          exact (Arguments.runOn_of_settings hsettings access).trans (hnext access)
  · intro base given hbase hgiven s
    rw [Arguments.eq_of_fileGives hbase hgiven]
    exact given.value_config s

/-- An indexing with growth and one stop word more. -/
def grow : Arguments where
  field := some "title"
  command := .index { corpus := "corpus", heap := some "growth", stopWords := ["of"] }

/-- Nothing is there at first. -/
def nowhere : Workspace where
  files := { home := [], nodes := [([], .folder)] }

/-- The indexing opens an index, and with a field that there is not it fails before. -/
theorem run_fails_or_opens_grow :
    (∃ c, c.check = .ok () ∧ c.field = "title" ∧ c.growthFolder = some "growth" ∧
        c.stopWords = ["of"] ∧ c.maxTokenLength = 40 ∧ OpensWith c grow.runOn nowhere) ∧
      FailsFirst { grow with field := some "date" }.runOn nowhere := by
  obtain ⟨-, hcourse, -⟩ := run_fails_or_opens grow nowhere
  obtain ⟨-, -, hhopeless, -⟩ := run_fails_or_opens { grow with field := some "date" } nowhere
  have hdate : ∀ field : TextField, "date" ≠ field.name := by
    intro field
    cases field <;> decide
  refine ⟨?_, hhopeless (.unknownField rfl hdate)⟩
  obtain ⟨e, he⟩ | ⟨base, c, hbase, hsettles, hcheck, hopens⟩ := hcourse
  · -- a call that leaves a trace is made
    have htrace := he
      ⟨fun _ => ExceptT.mk fun w => (.error .json, { w with console := { text := "!" } }),
        Index.search⟩
    have hconsole : "!" = "" := congrArg (fun x => x.2.console.text) htrace
    exact absurd hconsole (by decide)
  · obtain rfl : base = {} := by
      cases hbase with
      | default => rfl
      | file hconfig => cases hconfig
    exact ⟨c, hcheck, hsettles.value .field (by decide) (by decide),
      hsettles.value .growthFolder (by decide) (by decide), hsettles.stopWords,
      hsettles.value .maxTokenLength (by decide) (by decide), hopens⟩

end Concordance.CommandLine
