import Concordance.Proofs.CommandLine.Run
import Concordance.Proofs.CommandLine.Silent
import Mathlib

/-!
# Concordance.Proofs.CommandLine.History

The documents of one index over a history of commands.  Corpora may be anywhere; what else is
written is outside the folder of the index.  The file system may refuse other things to each of the
commands, and the console may be full.

* `Transition`, `transition_of_holding` — what one command does;
* `held_after_commands` — at any time the index holds none or all of the documents of one corpus.
-/

namespace Concordance.CommandLine

open Files
open Files.Tree (Around LeadsTo IsElsewhere Straight)
open Indexing (entriesOf HasFed HasFailed)
open OpenIndex (Found Holding absolute held openFolder removal reopen)

/-! ## histories -/

/-- What a command writes to besides the index, with the settings it is run with. -/
inductive Command.WritesTo (settings : Config) : Command → String → Prop
  | growth {a : IndexArguments} {folder : String}
      (h : (a.over settings).growthFolder = some folder) (document : Nat) :
      WritesTo settings (.index a) (Growth.filePath folder document)
  | report {a : TermArguments} {path : String} (h : a.output = some path) :
      WritesTo settings (.term a) path

/-- A command works on the index at a place: its settings name the folder of the index, and what it
writes to besides is elsewhere. -/
structure WorksAt (t : Tree) (place : Place) (settings : Config) (command : Command) : Prop where
  index : LeadsTo t place settings.indexFolder
  elsewhere : ∀ path, command.WritesTo settings path → IsElsewhere t place path

/-- A command line that is run, with what is refused to it and the room that the console has. -/
structure Attempt where
  arguments : Arguments
  limits : Limits := {}
  room : Option Nat := none

namespace Attempt

/-- The workspace that an attempt begins with. -/
def start (x : Attempt) (w : Workspace) : Workspace :=
  { w with
    files := { w.files with limits := x.limits }
    console := { w.console with room := x.room } }

/-- What the command answers, and the workspace that it leaves. -/
def run (x : Attempt) (w : Workspace) : Except Fault Unit × Workspace :=
  ExceptT.run x.arguments.run (x.start w)

/-- The settings that the command is run with. -/
def settings (x : Attempt) (w : Workspace) : Except Fault Config :=
  x.arguments.settings (x.start w).files

/-- An indexing of another corpus. -/
def withCorpus (x : Attempt) (i : IndexArguments) (corpus : String) : Attempt :=
  { x with arguments := { x.arguments with command := .index { i with corpus := corpus } } }

end Attempt

/-- The workspace after commands that are run one after the other. -/
def after (w : Workspace) (attempts : List Attempt) : Workspace :=
  attempts.foldl (fun w x => (x.run w).2) w

theorem after_append (w : Workspace) (before later : List Attempt) :
    after w (before ++ later) = after (after w before) later :=
  List.foldl_append

/-- The documents that an indexing loads with settings once it has opened the index. -/
def Loads (w : Workspace) (x : Attempt) (i : IndexArguments) (settings : Config)
    (documents : List Document) : Prop :=
  Corpus.load (ExceptT.run (openFolder (i.over settings)) (x.start w)).2.files i.corpus =
    .ok documents

/-- One of the commands has loaded documents with settings. -/
def Loaded (w : Workspace) (attempts : List Attempt) (c : Config) (documents : List Document) :
    Prop :=
  ∃ before x later i settings, attempts = before ++ x :: later ∧
    x.arguments.command = .index i ∧ x.settings (after w before) = .ok settings ∧
    c = i.over settings ∧ Loads (after w before) x i settings documents

/-! ## what a command does -/

/-- What an indexing does to the documents of the index at a place where the removing before it has
left a workspace. -/
structure Refills (place : Place) (w : Workspace) (x : Attempt) (i : IndexArguments)
    (settings : Config) (v : Workspace) : Prop where
  /-- Documents are found exactly where there are some. -/
  found : ∀ o found u, ExceptT.run (openFolder (i.over settings)) (x.start w) =
    (.ok (o, found), u) → (found = .existing ↔ held place v ≠ [])
  /-- Documents that are found are left alone, and the corpus is not read. -/
  kept : held place v ≠ [] → held place (x.run w).2 = held place v ∧
    ∀ corpus, (x.withCorpus i corpus).run w = x.run w
  /-- Where none are found, success and a failure to save growth leave all of the corpus. -/
  filled : held place v = [] →
    ((∃ notice, (ExceptT.run (i.build settings) (x.start w)).1 = .ok notice) ∨
      ∃ e, (ExceptT.run (i.build settings) (x.start w)).1 = .error e ∧ e.isAboutGrowth = true) →
      ∃ documents, Loads w x i settings documents ∧
        held place (x.run w).2 = entriesOf (i.over settings) documents
  /-- Where none are found, any other failure leaves none, or all of the corpus where they were
  published and could not be read back. -/
  failed : held place v = [] → ∀ e, (ExceptT.run (i.build settings) (x.start w)).1 = .error e →
    e.isAboutGrowth = false → held place (x.run w).2 = [] ∨ e = .index .unusable ∧
      ∃ documents, Loads w x i settings documents ∧
        held place (x.run w).2 = entriesOf (i.over settings) documents

/-- What an indexing does to the documents of the index at a place, once its settings have passed
the check. -/
structure Indexes (place : Place) (w : Workspace) (x : Attempt) (i : IndexArguments)
    (settings : Config) : Prop where
  /-- The index is built and then a notice is printed. -/
  ended : x.run w =
    ExceptT.run (i.build settings >>= fun notice => Job.print notice.text) (x.start w)
  /-- Nothing is removed where that is not asked for, or where the path leads to nothing. -/
  untouched : ((i.over settings).regenerate = false ∨
      (x.start w).files.isThere (i.over settings).indexFolder = false) →
    ExceptT.run (removal (i.over settings)) (x.start w) = (.ok (), x.start w)
  /-- Regenerating begins with removing all documents. -/
  emptied : (i.over settings).regenerate = true →
    (x.start w).files.isThere (i.over settings).indexFolder = true →
    ∀ v, ExceptT.run (removal (i.over settings)) (x.start w) = (.ok (), v) → held place v = []
  /-- A removing that is refused ends the command, and leaves all documents or none. -/
  refused : ∀ e v, ExceptT.run (removal (i.over settings)) (x.start w) = (.error e, v) →
    x.run w = (.error e, v) ∧ (held place v = held place w ∨ held place v = [])
  /-- Behind a removing that is not refused the index is filled if it is empty. -/
  refills : ∀ v, ExceptT.run (removal (i.over settings)) (x.start w) = (.ok (), v) →
    Refills place w x i settings v

/-- What a command does to the documents of the index at a place. -/
structure Transition (place : Place) (w : Workspace) (x : Attempt) : Prop where
  /-- What is refused has nothing to do with what is held. -/
  started : held place (x.start w) = held place w
  /-- Settings that cannot be loaded end the command before anything is done. -/
  unloaded : ∀ e, x.settings w = .error e → x.run w = (.error e, x.start w)
  /-- Settings that do not pass the check do so too. -/
  unchecked : ∀ settings e, x.settings w = .ok settings →
    (x.arguments.command.over settings).check = .error e → x.run w = (.error e, x.start w)
  /-- A command that asks leaves the documents as they are. -/
  asked : (∀ i, x.arguments.command ≠ .index i) → held place (x.run w).2 = held place w
  indexed : ∀ i settings, x.arguments.command = .index i → x.settings w = .ok settings →
    (i.over settings).check = .ok () → Indexes place w x i settings

theorem run_of_settings_ok {a : Arguments} {w : Workspace} {settings : Config}
    (h : a.settings w.files = .ok settings) :
    ExceptT.run a.run w = ExceptT.run (a.command.run settings) w := by
  rw [Arguments.run, Job.run_bind, Job.run_inspect, h]

theorem Command.run_of_check_error {settings : Config} {command : Command} {e : Fault}
    (h : (command.over settings).check = .error e) (w : Workspace) :
    ExceptT.run (command.run settings) w = (.error e, w) := by
  have hstop : ∀ {α : Type} (f : Unit → Job α),
      ExceptT.run (Job.ofExcept (command.over settings).check >>= f) w = (.error e, w) := by
    intro α f
    rw [h]
    rfl
  cases command with
  | index i =>
      have hbuild : ExceptT.run (i.build settings) w = (.error e, w) := hstop _
      exact Job.run_bind_of_error hbuild
  | _ => exact hstop _

theorem WorksAt.over {t : Tree} {place : Place} {settings : Config} {i : IndexArguments}
    (h : WorksAt t place settings (.index i)) : LeadsTo t place (i.over settings).indexFolder :=
  h.index

section Step

variable {place : Place} {t : Tree} (hplace : Straight t place) {entries : List Index.Entry}
  {w : Workspace} (hw : Holding place t entries w.files)
include hplace hw

/-- What the removing before an indexing leaves: the workspace as it was, or no documents. -/
theorem WorksAt.holding_removal {settings : Config} {i : IndexArguments}
    (hworks : WorksAt t place settings (.index i)) {v : Workspace}
    (hrun : ExceptT.run (removal (i.over settings)) w = (.ok (), v)) :
    ∃ entries', Holding place t entries' v.files := by
  obtain ⟨-, rfl⟩ | ⟨-, -, hv⟩ := (OpenIndex.removal_leaves hplace hworks.over hw).of_ok hrun
  · exact ⟨entries, hw⟩
  · exact ⟨[], hv⟩

omit hw in
/-- An indexing that finds no documents once the removing is done. -/
theorem WorksAt.build_fills {settings : Config} {i : IndexArguments}
    (hworks : WorksAt t place settings (.index i))
    (hlength : settings.maxTokenLength < Decimal.wordLimit)
    (hcheck : (i.over settings).check = .ok ()) {v : Workspace}
    (hrun : ExceptT.run (removal (i.over settings)) w = (.ok (), v))
    (hv : Holding place t [] v.files) :
    Ensures (i.build settings) w
      (fun _ u => HasFed place t (i.over settings) i.corpus
        (ExceptT.run (openFolder (i.over settings)) w).2.files u.files)
      (fun e u => HasFailed place t (i.over settings) i.corpus
        (ExceptT.run (openFolder (i.over settings)) w).2.files e u.files) := by
  have hfills := refill_fills hworks.over hplace.names.toLeadsTo
    (fun _ hfolder document => hworks.elsewhere _ (.growth hfolder document)) hlength hv i.corpus
  rw [Ensures, run_build_of_removal hcheck hrun, OpenIndex.openFolder_eq, Job.run_bind_of_ok hrun]
  exact hfills

theorem WorksAt.holding_build {settings : Config} {i : IndexArguments}
    (hworks : WorksAt t place settings (.index i))
    (hlength : settings.maxTokenLength < Decimal.wordLimit)
    (hcheck : (i.over settings).check = .ok ()) :
    ∃ entries', Holding place t entries' (ExceptT.run (i.build settings) w).2.files := by
  rcases hremoved : ExceptT.run (removal (i.over settings)) w with ⟨e | _, v⟩
  · rw [run_build hcheck, Job.run_bind_of_error hremoved]
    obtain ⟨-, hv | hv⟩ := (OpenIndex.removal_leaves hplace hworks.over hw).of_error hremoved
    · exact ⟨entries, hv⟩
    · exact ⟨[], hv⟩
  obtain ⟨entries', hv⟩ := hworks.holding_removal hplace hw hremoved
  by_cases hne : entries' = []
  · subst hne
    have hfills := hworks.build_fills hplace hlength hcheck hremoved hv
    rcases hrun : ExceptT.run (i.build settings) w with ⟨e | _, u⟩
    · obtain ⟨-, documents, -, hu⟩ | ⟨-, hu | ⟨-, documents, -, hu⟩⟩ := hfills.of_error hrun
      · exact ⟨_, hu⟩
      · exact ⟨[], hu⟩
      · exact ⟨_, hu⟩
    · obtain ⟨documents, -, hu⟩ := hfills.of_ok hrun
      exact ⟨_, hu⟩
  · rw [run_build_of_removal hcheck hremoved]
    exact ⟨entries', refill_keeps hworks.over hne hv i.corpus⟩

/-- A command that asks keeps the documents. -/
theorem Command.run_keeps {settings : Config} {command : Command}
    (hworks : WorksAt t place settings command)
    (hlength : settings.maxTokenLength < Decimal.wordLimit) (hasks : ∀ i, command ≠ .index i) :
    Holding place t entries (ExceptT.run (command.run settings) w).2.files := by
  have hleads := hplace.names.toLeadsTo
  cases command with
  | index i => exact absurd rfl (hasks i)
  | term a =>
      exact a.run_keeps hleads hworks.index hlength
        (fun path h => hworks.elsewhere path (.report h)) w hw
  | search a => exact a.run_keeps hleads hworks.index hlength w hw
  | explain a => exact a.run_keeps hleads hworks.index hlength w hw

end Step

section Attempt

variable {place : Place} {t : Tree} (hplace : Straight t place) {entries : List Index.Entry}
  {w : Workspace} (hw : Holding place t entries w.files) {x : Attempt}
include hplace hw

/-- After any command the folder holds some documents as a whole. -/
theorem holding_run
    (hworks : ∀ settings, x.settings w = .ok settings →
      WorksAt t place settings x.arguments.command) :
    ∃ entries', Holding place t entries' (x.run w).2.files := by
  have hstart : Holding place t entries (x.start w).files := hw.limited x.limits
  unfold Attempt.run
  cases hsettings : x.settings w with
  | error e =>
      rw [run_of_settings_error hsettings]
      exact ⟨entries, hstart⟩
  | ok settings =>
      have hlength := Arguments.settings_length hsettings
      have hworks := hworks settings hsettings
      rw [run_of_settings_ok hsettings]
      cases hcheck : (x.arguments.command.over settings).check with
      | error e =>
          rw [Command.run_of_check_error hcheck]
          exact ⟨entries, hstart⟩
      | ok =>
          cases hcommand : x.arguments.command with
          | index i =>
              rw [hcommand] at hworks hcheck
              rw [Command.run, files_run]
              exact hworks.holding_build hplace hstart hlength hcheck
          | _ =>
              rw [← hcommand]
              refine ⟨entries, Command.run_keeps hplace hstart hworks hlength fun i h => ?_⟩
              rw [hcommand] at h
              cases h

section Indexing

variable {settings : Config} {i : IndexArguments} (hcommand : x.arguments.command = .index i)
  (hsettings : x.settings w = .ok settings) (hworks : WorksAt t place settings (.index i))
  (hcheck : (i.over settings).check = .ok ())
include hcommand hsettings hworks hcheck

/-- What an indexing does once the removing before it is done. -/
theorem refills_of_holding {v : Workspace}
    (hremoved : ExceptT.run (removal (i.over settings)) (x.start w) = (.ok (), v)) :
    Refills place w x i settings v := by
  have hstart : Holding place t entries (x.start w).files := hw.limited x.limits
  have hlength := Arguments.settings_length hsettings
  obtain ⟨entries', hv⟩ := hworks.holding_removal hplace hstart hremoved
  have hheld : ∀ {entries v}, Holding place t entries v.files → held place v = entries :=
    OpenIndex.held_eq hplace
  have hrun : x.run w = ExceptT.run (i.run settings) (x.start w) := by
    rw [Attempt.run, run_of_settings_ok hsettings, hcommand]
    rfl
  have hfiles : (ExceptT.run (i.run settings) (x.start w)).2.files = _ := files_run (x.start w)
  rw [← hrun] at hfiles
  have hfills := fun hnone : entries' = [] =>
    hworks.build_fills hplace hlength hcheck hremoved (hnone ▸ hv)
  have hopen := OpenIndex.openFolder_eq (i.over settings)
  refine ⟨fun o found u hrun => ?found, fun hne => ?kept, fun hnone hend => ?filled,
    fun hnone e he hfault => ?failed⟩
  case found =>
    rw [hopen, Job.run_bind_of_ok hremoved] at hrun
    rw [hheld hv]
    by_cases hnone : entries' = []
    · subst hnone
      have hvacant := OpenIndex.reopen_vacant hplace.names.toLeadsTo hworks.over hlength hv
      have hcreated := (hvacant.of_ok hrun).1
      cases hcreated
      simp
    · have hexisting : found = .existing :=
        ((OpenIndex.reopen_existing hworks.over hnone hv).of_ok hrun).1
      simp [hexisting, hnone]
  case kept =>
    rw [hheld hv] at hne ⊢
    have hbuild := run_build_of_removal hcheck hremoved
    refine ⟨hheld ?_, fun corpus => ?_⟩
    · rw [hfiles, hbuild]
      exact refill_keeps hworks.over hne hv i.corpus
    · have hsame : ExceptT.run (IndexArguments.build { i with corpus := corpus } settings)
          (x.start w) = ExceptT.run (i.build settings) (x.start w) := by
        rw [hbuild, run_build_of_removal (a := { i with corpus := corpus }) hcheck hremoved]
        exact refill_corpus hworks.over hne hv corpus i.corpus
      have hwith : (x.withCorpus i corpus).run w =
          ExceptT.run (IndexArguments.run { i with corpus := corpus } settings) (x.start w) :=
        run_of_settings_ok (a := (x.withCorpus i corpus).arguments) hsettings
      rw [hwith, hrun, IndexArguments.run, IndexArguments.run, Job.run_bind, Job.run_bind, hsame]
  case filled =>
    rw [hheld hv] at hnone
    rcases hbuild : ExceptT.run (i.build settings) (x.start w) with ⟨e | notice, u⟩
    all_goals rw [hbuild] at hend hfiles
    · obtain ⟨notice, hnotice⟩ | ⟨e', he', hgrowth⟩ := hend
      · cases hnotice
      cases he'
      obtain ⟨-, documents, hload, hu⟩ | ⟨hfault, -⟩ := (hfills hnone).of_error hbuild
      · exact ⟨documents, hload, hheld (by rw [hfiles]; exact hu)⟩
      · cases hfault.symm.trans hgrowth
    · obtain ⟨documents, hload, hu⟩ := (hfills hnone).of_ok hbuild
      exact ⟨documents, hload, hheld (by rw [hfiles]; exact hu)⟩
  case failed =>
    rw [hheld hv] at hnone
    rcases hbuild : ExceptT.run (i.build settings) (x.start w) with ⟨e' | notice, u⟩
    all_goals rw [hbuild] at he hfiles
    · cases he
      obtain ⟨hgrowth, -⟩ | ⟨-, hu | ⟨hunusable, documents, hload, hu⟩⟩ :=
        (hfills hnone).of_error hbuild
      · cases hfault.symm.trans hgrowth
      · exact .inl (hheld (by rw [hfiles]; exact hu))
      · exact .inr ⟨hunusable, documents, hload, hheld (by rw [hfiles]; exact hu)⟩
    · cases he

theorem indexes_of_holding : Indexes place w x i settings := by
  have hstart : Holding place t entries (x.start w).files := hw.limited x.limits
  have hheld : ∀ {entries v}, Holding place t entries v.files → held place v = entries :=
    OpenIndex.held_eq hplace
  have hremoval := OpenIndex.removal_leaves hplace hworks.over hstart
  have hrun : x.run w = ExceptT.run (i.run settings) (x.start w) := by
    rw [Attempt.run, run_of_settings_ok hsettings, hcommand]
    rfl
  refine ⟨hrun, fun hnot => ?untouched, fun hregenerate hthere v hremoved => ?emptied,
    fun e v hremoved => ?refused,
    fun v hremoved => refills_of_holding hplace hw hcommand hsettings hworks hcheck hremoved⟩
  case untouched => exact OpenIndex.removal_of_absent hnot
  case emptied =>
    obtain ⟨hnot | hnot, -⟩ | ⟨-, -, hv⟩ := hremoval.of_ok hremoved
    · cases hregenerate.symm.trans hnot
    · cases hthere.symm.trans hnot
    · exact hheld hv
  case refused =>
    have hbuild : ExceptT.run (i.build settings) (x.start w) = (.error e, v) := by
      rw [run_build hcheck, Job.run_bind_of_error hremoved]
    refine ⟨hrun.trans (Job.run_bind_of_error hbuild), ?_⟩
    rw [hheld hw]
    exact (hremoval.of_error hremoved).2.imp hheld hheld

end Indexing

/-- What a command does where the folder holds some documents as a whole. -/
theorem transition_of_holding
    (hworks : ∀ settings, x.settings w = .ok settings →
      WorksAt t place settings x.arguments.command) :
    Transition place w x where
  started := by
    have hstart : Holding place t entries (x.start w).files := hw.limited x.limits
    rw [OpenIndex.held_eq hplace hstart, OpenIndex.held_eq hplace hw]
  unloaded _ h := run_of_settings_error h
  unchecked settings e hsettings hcheck := by
    rw [Attempt.run, run_of_settings_ok hsettings, Command.run_of_check_error hcheck]
  asked hasks := by
    have hstart : Holding place t entries (x.start w).files := hw.limited x.limits
    rw [OpenIndex.held_eq hplace hw, Attempt.run]
    cases hsettings : x.settings w with
    | error e =>
        rw [run_of_settings_error hsettings]
        exact OpenIndex.held_eq hplace hstart
    | ok settings =>
        have hlength := Arguments.settings_length hsettings
        rw [run_of_settings_ok hsettings]
        exact OpenIndex.held_eq hplace
          (Command.run_keeps hplace hstart (hworks settings hsettings) hlength hasks)
  indexed i settings hcommand hsettings hcheck := by
    have hworks := hworks settings hsettings
    rw [hcommand] at hworks
    exact indexes_of_holding hplace hw hcommand hsettings hworks hcheck

end Attempt

/-! ## what a history leaves -/

theorem Loaded.append {w : Workspace} {attempts : List Attempt} {c : Config}
    {documents : List Document} (h : Loaded w attempts c documents) (more : List Attempt) :
    Loaded w (attempts ++ more) c documents := by
  obtain ⟨before, x, later, i, settings, rfl, hload⟩ := h
  exact ⟨before, x, later ++ more, i, settings, by simp, hload⟩

/-- The documents at a time are those that one of the commands has loaded, or there are none. -/
def HoldsLoaded (place : Place) (w : Workspace) (attempts : List Attempt) : Prop :=
  held place (after w attempts) = [] ∨
    ∃ c documents, Loaded w attempts c documents ∧
      held place (after w attempts) = entriesOf c documents

theorem after_snoc (w : Workspace) (attempts : List Attempt) (x : Attempt) :
    after w (attempts ++ [x]) = (x.run (after w attempts)).2 := by
  rw [after_append]
  rfl

section History

variable {place : Place} {w : Workspace} {attempts : List Attempt} {x : Attempt}

/-- An indexing that finds none leaves those that it loads, or none. -/
theorem HoldsLoaded.of_refills {i : IndexArguments} {settings : Config} {v : Workspace}
    (hcommand : x.arguments.command = .index i)
    (hsettings : x.settings (after w attempts) = .ok settings)
    (hstep : Refills place (after w attempts) x i settings v) (hnone : held place v = []) :
    HoldsLoaded place w (attempts ++ [x]) := by
  have hloaded : (∃ documents, Loads (after w attempts) x i settings documents ∧
      held place (x.run (after w attempts)).2 = entriesOf (i.over settings) documents) →
        HoldsLoaded place w (attempts ++ [x]) := by
    rintro ⟨documents, hload, hheld⟩
    rw [← after_snoc] at hheld
    exact .inr ⟨i.over settings, documents,
      ⟨attempts, x, [], i, settings, rfl, hcommand, hsettings, rfl, hload⟩, hheld⟩
  cases hanswer : (ExceptT.run (i.build settings) (x.start (after w attempts))).1 with
  | ok notice => exact hloaded (hstep.filled hnone (.inl ⟨notice, hanswer⟩))
  | error e =>
      cases hgrowth : e.isAboutGrowth with
      | true => exact hloaded (hstep.filled hnone (.inr ⟨e, hanswer, hgrowth⟩))
      | false =>
          obtain hnone | ⟨-, hall⟩ := hstep.failed hnone e hanswer hgrowth
          · rw [← after_snoc] at hnone
            exact .inl hnone
          · exact hloaded hall

/-- One more command keeps the documents, removes them or replaces all of them. -/
theorem HoldsLoaded.snoc (h : HoldsLoaded place w attempts)
    (hstep : Transition place (after w attempts) x) : HoldsLoaded place w (attempts ++ [x]) := by
  have hkept : held place (x.run (after w attempts)).2 = held place (after w attempts) →
      HoldsLoaded place w (attempts ++ [x]) := by
    intro heq
    rw [HoldsLoaded, after_snoc, heq]
    obtain hnone | ⟨c, documents, hloaded, hheld⟩ := h
    · exact .inl hnone
    · exact .inr ⟨c, documents, hloaded.append [x], hheld⟩
  by_cases hasks : ∀ i, x.arguments.command ≠ .index i
  · exact hkept (hstep.asked hasks)
  obtain ⟨i, hcommand⟩ := not_forall_not.mp hasks
  cases hsettings : x.settings (after w attempts) with
  | error e =>
      refine hkept ?_
      rw [hstep.unloaded e hsettings]
      exact hstep.started
  | ok settings =>
      cases hcheck : (i.over settings).check with
      | error e =>
          have hcheck' : (x.arguments.command.over settings).check = .error e := by
            rw [hcommand]
            exact hcheck
          refine hkept ?_
          rw [hstep.unchecked settings e hsettings hcheck']
          exact hstep.started
      | ok =>
          have hindexes := hstep.indexed i settings hcommand hsettings hcheck
          rcases hremoved : ExceptT.run (removal (i.over settings)) (x.start (after w attempts))
            with ⟨e | _, v⟩
          · obtain ⟨hrun, hsame | hnone⟩ := hindexes.refused e v hremoved
            · exact hkept (by rw [hrun]; exact hsame)
            · exact .inl (by rw [after_snoc, hrun]; exact hnone)
          have hrefills := hindexes.refills v hremoved
          by_cases hnone : held place v = []
          · exact .of_refills hcommand hsettings hrefills hnone
          -- documents that are still there have not been touched
          obtain hnot | hthere := Classical.em ((i.over settings).regenerate = false ∨
            (x.start (after w attempts)).files.isThere (i.over settings).indexFolder = false)
          · have huntouched := hindexes.untouched hnot
            obtain rfl := (Prod.mk.inj (huntouched.symm.trans hremoved)).2
            exact hkept ((hrefills.kept hnone).1.trans hstep.started)
          · rw [not_or, Bool.not_eq_false, Bool.not_eq_false] at hthere
            exact absurd (hindexes.emptied hthere.1 hthere.2 v hremoved) hnone

theorem HoldsLoaded.ordinal (h : HoldsLoaded place w attempts) :
    (held place (after w attempts)).map Index.Entry.ordinal =
      List.range (held place (after w attempts)).length := by
  obtain hnone | ⟨c, documents, ⟨before, x, later, i, settings, -, -, -, -, hload⟩, hheld⟩ := h
  · rw [hnone]
    rfl
  · rw [hheld, entriesOf, List.map_map, List.length_map, ← Corpus.load_ordinal hload]
    rfl

end History

open OpenIndex (IsDesk Stores indexPlace made catalogName analyzerName)

/-- A folder with a corpus of one document. -/
def desk : Workspace where
  files :=
    { home := ["work"]
      nodes := [([], .folder), (["work"], .folder), (["work", "corpus"], .folder),
        (["work", "corpus", "cats.txt"], .file (Tree.bytesOf ".W\ncats\n") none)] }

/-- The document of the corpus. -/
def cats : Document := { ordinal := 0, content := some "cats" }

/-- The settings for an index beside the corpus. -/
def beside : Config := { indexFolder := "index" }

/-- The index is built. -/
def build : Arguments where
  index := some "index"
  command := .index { corpus := "corpus" }

/-- A term is reported to a file. -/
def ask : Arguments where
  index := some "index"
  command := .term { terms := ["cats"], output := some "report.txt" }

/-- The index is built anew from a corpus that is not there, with the growth of its vocabulary. -/
def rebuild : Arguments where
  index := some "index"
  command := .index { corpus := "missing", regenerate := true, heap := some "growth" }

theorem isDesk_of_desk {w : Workspace} (hfiles : w.files = desk.files) (hlocks : w.locks = []) :
    IsDesk w where
  home := by rw [hfiles]; rfl
  root := by rw [hfiles]; rfl
  folder := by rw [hfiles]; rfl
  fresh := by rw [hfiles]; decide
  link := by rw [hfiles]; simp [desk]
  limits := by rw [hfiles]; rfl
  locks := hlocks

theorem isDesk_desk : IsDesk desk := isDesk_of_desk rfl rfl

/-- The folder once an index without documents is made in it. -/
def opened (catalog analyzer : Node) : Tree where
  home := ["work"]
  nodes := [([], .folder), (["work"], .folder), (["work", "corpus"], .folder),
    (["work", "corpus", "cats.txt"], .file (Tree.bytesOf ".W\ncats\n") none),
    (["work", "index"], .folder), (["work", "index", "meta.json"], catalog),
    (["work", "index", "termstat-analyzer.json"], analyzer)]

theorem made_desk : ∃ catalog analyzer,
    made indexPlace beside (desk.files.put indexPlace .folder) = opened catalog analyzer := by
  refine ⟨.file (Tree.bytesOf (Index.Catalog.toText [])) none,
    .file (Tree.bytesOf (Analyzer.ofConfig beside).toText) none, ?_⟩
  unfold made OpenIndex.listed
  generalize Tree.bytesOf (Index.Catalog.toText []) = catalog
  generalize Tree.bytesOf (Analyzer.ofConfig beside).toText = analyzer
  rfl

theorem load_opened (catalog analyzer : Node) :
    Corpus.load (opened catalog analyzer) "corpus" = .ok [cats] := by
  have hcorpus : IsName "corpus" := by constructor <;> decide
  have hcats : IsName "cats.txt" := by constructor <;> decide
  have hfolder : (opened catalog analyzer).node? ["work", "corpus"] = some .folder := rfl
  have hfile : (opened catalog analyzer).node? (["work", "corpus"] ++ ["cats.txt"]) =
      some (.file (Tree.bytesOf ".W\ncats\n") none) := rfl
  have hroot : (opened catalog analyzer).resolve true "corpus" =
      .ok ⟨["work", "corpus"], some .folder⟩ := by
    rw [← hfolder]
    exact Tree.resolve_name hcorpus rfl (by decide) fun target heq => by cases heq
  have hentries : Corpus.entries ((opened catalog analyzer).below ["work", "corpus"]) =
      [["cats.txt"]] := by cbv
  have hlisted : ∀ place,
      (opened catalog analyzer).isUnlisted (["work", "corpus"] ++ place) = false := fun place => by
    simp [Tree.isUnlisted, opened]
  have hlist : Corpus.list (opened catalog analyzer) "corpus" = .ok [join "corpus" "cats.txt"] := by
    rw [Corpus.list, hroot]
    simp only [hentries, Corpus.unlisted?_eq_none hlisted]
    rfl
  have hspot := Tree.resolve_join hcats (f := true) hroot (by decide)
    fun target heq => by cases hfile.symm.trans heq
  rw [hfile] at hspot
  rw [Corpus.load, hlist]
  simp only [Corpus.read, OpenIndex.readText_of_resolve hspot]
  cbv

/-- The index is built, and then it is said so. -/
theorem run_desk (room : Option Nat) : ∃ summary v,
    ({ arguments := build, room := room } : Attempt).run desk =
      ExceptT.run (Job.print (IndexNotice.mk "index" .created (some summary)).text) v ∧
    v.console = { room := room } ∧
    Holding indexPlace desk.files (entriesOf beside [cats]) v.files ∧
    ∀ p, ¬indexPlace <+: p → v.files.node? p = desk.files.node? p := by
  have hload : Corpus.load (made indexPlace beside (desk.files.put indexPlace .folder)) "corpus" =
      .ok [cats] := by
    obtain ⟨catalog, analyzer, hmade⟩ := made_desk
    rw [hmade, load_opened]
  obtain ⟨summary, v, hbuild, hholding, hother⟩ := build_of_desk
    (w := ({ arguments := build, room := room } : Attempt).start desk) (isDesk_of_desk rfl rfl)
    (c := beside) rfl rfl (by decide) (by decide) rfl hload
    rfl (show IndexArguments.over { corpus := "corpus" } beside = beside from rfl) (by decide)
  have hconsole := build_silent { corpus := "corpus" } beside
    (({ arguments := build, room := room } : Attempt).start desk)
  rw [hbuild] at hconsole
  exact ⟨summary, v, Job.run_bind_of_ok hbuild, hconsole, hholding, hother⟩

theorem holding_build : Holding indexPlace desk.files (entriesOf beside [cats])
    (after desk [{ arguments := build }]).files := by
  obtain ⟨summary, v, hrun, -, hholding, -⟩ := run_desk none
  have hafter : after desk [{ arguments := build }] = _ := congrArg Prod.snd hrun
  rw [hafter]
  exact hholding

theorem isName_of_desk : ∀ name ∈ ["growth", "report.txt"], IsName name := by
  intro name hname
  simp only [List.mem_cons, List.not_mem_nil, or_false] at hname
  obtain rfl | rfl := hname <;> constructor <;> decide

theorem place_eq_of_desk {u : Tree} (hu : Around indexPlace desk.files u) {f : Bool} {path : String}
    {spot : Tree.Spot} (hpath : isAbsolute path = false) (hup : ".." ∉ names path)
    (h : u.resolve f path = .ok spot) : spot.place = "work" :: names path := by
  have hlink := hu.node?_ne_link_of_none isDesk_desk.node?_ne_link
  rw [Tree.place_eq_of_relative hlink hpath hup h, hu.home]
  rfl

theorem isElsewhere_report : IsElsewhere desk.files indexPlace "report.txt" := by
  have hname : IsName "report.txt" := isName_of_desk _ (by decide)
  intro u hu spot h
  rw [place_eq_of_desk hu hname.isAbsolute (by rw [hname.names]; decide) h, hname.names]
  decide

theorem isElsewhere_growth (document : Nat) :
    IsElsewhere desk.files indexPlace (Growth.filePath "growth" document) := by
  have hname : IsName "growth" := isName_of_desk _ (by decide)
  have hfile := Growth.isName_fileName document
  have hnames : names (Growth.filePath "growth" document) =
      ["growth", Growth.fileName document] := by
    rw [Growth.filePath, names_join hfile, hname.names]
    rfl
  have habsolute : isAbsolute (Growth.filePath "growth" document) = false := by
    rw [Growth.filePath, isAbsolute_join hfile, hname.isAbsolute]
  intro u hu spot h
  rw [place_eq_of_desk hu habsolute (by simp [hnames, hfile.up.symm]) h, hnames]
  simp [indexPlace]

theorem worksAt_desk {a : Arguments} (ha : a ∈ [build, ask, rebuild]) {t : Tree} {settings : Config}
    (h : a.settings t = .ok settings) : WorksAt desk.files indexPlace settings a.command := by
  simp only [List.mem_cons, List.not_mem_nil, or_false] at ha
  obtain rfl | rfl | rfl := ha <;> cases h
  all_goals
    refine ⟨isDesk_desk.names.toLeadsTo, fun path hpath => ?_⟩
    cases hpath
  · next hfolder => cases hfolder
  · next hpath =>
    cases hpath
    exact isElsewhere_report
  · next folder document hfolder =>
    cases hfolder
    exact isElsewhere_growth document

/-- The index is built, then asked, then built anew. -/
def rebuilding : List Attempt :=
  [{ arguments := build }, { arguments := ask }, { arguments := rebuild }]

theorem stores_of_holding {u : Tree} {entries : List Index.Entry} (hne : entries ≠ [])
    (h : Holding indexPlace desk.files entries u) :
    ∃ a, Stores indexPlace u [entries] a ∧ u.node? indexPlace = some .folder := by
  cases h.contains with
  | vacant => exact absurd rfl hne
  | stored _ hs => exact ⟨_, hs, (Tree.resolve_eq_ok_iff.mp hs.folder).2.1.symm⟩

/-- The index is to be built anew, by a path through a folder that is not there yet. -/
def detour (corpus : String) : Arguments where
  index := some "missing/../index"
  command := .index { corpus := corpus, regenerate := true }

theorem detour_leads {u : Tree} (hu : Around indexPlace desk.files u) {f : Bool}
    {spot : Tree.Spot} (h : u.resolve f "missing/../index" = .ok spot) :
    spot.place = indexPlace ∧ u.node? ["work", "missing"] = some .folder := by
  have hlink := hu.node?_ne_link_of_none isDesk_desk.node?_ne_link
  have hleads := (Tree.resolve_eq_ok_iff.mp h).1.leads
  have hnames : names "missing/../index" = ["missing", "..", "index"] := by decide
  have habsolute : isAbsolute "missing/../index" = false := by decide
  have hhome : u.home = ["work"] := hu.home
  rw [hnames, habsolute, hhome] at hleads
  -- the way goes into the missing folder, up again, and to the name of the index
  obtain ⟨hmissing, hrest⟩ := (hleads.of_name (by decide) fun target => hlink _ target).of_up
  exact ⟨(hrest.of_name (by decide) fun target => hlink _ target).eq_of_nil, hmissing⟩

theorem worksAt_detour (corpus : String) {t : Tree} {settings : Config}
    (h : (detour corpus).settings t = .ok settings) :
    WorksAt desk.files indexPlace settings (detour corpus).command := by
  cases h
  refine ⟨⟨fun u hu f spot hspot => (detour_leads hu hspot).1⟩, fun path hpath => ?_⟩
  cases hpath with
  | growth hfolder => cases hfolder

/-- Documents stay where the path of the index leads to nothing before the index is opened. -/
theorem held_after_detour (corpus : String) :
    held indexPlace (after desk [{ arguments := build }, { arguments := detour corpus }]) =
      entriesOf beside [cats] := by
  obtain ⟨summary, v, hrun, -, hholding, hother⟩ := run_desk none
  have hv : after desk [{ arguments := build }] = _ := congrArg Prod.snd hrun
  have hmissing : (after desk [{ arguments := build }]).files.node? ["work", "missing"] = none := by
    rw [hv]
    exact hother _ (by decide)
  have habsent : (Attempt.start { arguments := detour corpus }
      (after desk [{ arguments := build }])).files.isThere "missing/../index" = false := by
    unfold Tree.isThere
    split
    · next hspot =>
      have hfolder := (detour_leads (holding_build.limited {}).around hspot).2
      cases hmissing.symm.trans hfolder
    · rfl
  have hindexes : Indexes indexPlace (after desk [{ arguments := build }])
      { arguments := detour corpus } _ _ :=
    indexes_of_holding isDesk_desk.straight holding_build rfl rfl
      (worksAt_detour corpus (t := desk.files) rfl) rfl
  have hstart : held indexPlace (Attempt.start { arguments := detour corpus }
      (after desk [{ arguments := build }])) = entriesOf beside [cats] :=
    OpenIndex.held_eq isDesk_desk.straight (holding_build.limited {})
  have hkept := (hindexes.refills _ (hindexes.untouched (.inr habsent))).kept
    (by rw [hstart]; exact List.cons_ne_nil _ _)
  exact hkept.1.trans hstart

/-- Documents stay where removing them is refused. -/
theorem run_refused : ∃ v,
    Attempt.run { arguments := rebuild, limits := { closed := [indexPlace] } }
      (after desk [{ arguments := build }]) = (.error (.files .denied), v) ∧
      held indexPlace v = entriesOf beside [cats] := by
  have hstart := holding_build.limited { closed := [indexPlace] }
  obtain ⟨a, hs, hnode⟩ := stores_of_holding (List.cons_ne_nil _ _) hstart
  have hstuck : Tree.isStuck
      { (after desk [{ arguments := build }]).files with limits := { closed := [indexPlace] } }
      (indexPlace ++ [catalogName]) = true := by
    rw [Tree.isStuck, Tree.isClosed, List.dropLast_concat]
    simp
  obtain ⟨hstays, hs'⟩ := hs.removeBelow_of_stuck isDesk_desk.straight hstart.around hstuck
  have hremoval := isDesk_desk.removal_index hstart.around
    (v := Attempt.start { arguments := rebuild, limits := { closed := [indexPlace] } }
      (after desk [{ arguments := build }])) rfl hnode
    (c := { beside with regenerate := true, growthFolder := some "growth" }) rfl rfl
  obtain ⟨_, v, hremoved, hfiles, -, rfl⟩ := (hremoval.mono
    (fun _ _ h => absurd (h.2.symm.trans hstays) (by decide)) fun _ _ h => h).exists_error
  have hindexes : Indexes indexPlace (after desk [{ arguments := build }])
      { arguments := rebuild, limits := { closed := [indexPlace] } } _ _ :=
    indexes_of_holding isDesk_desk.straight holding_build rfl rfl
      (worksAt_desk (by simp) (a := rebuild) (t := desk.files) rfl) rfl
  refine ⟨v, (hindexes.refused _ v hremoved).1, OpenIndex.held_eq isDesk_desk.straight ⟨?_, ?_⟩⟩
  · rw [hfiles]
    exact hstart.around.removeBelow
  · rw [hfiles]
    exact .stored (List.cons_ne_nil _ _) hs'

/-- Documents are there though the console is full when it is said that they are. -/
theorem run_unprinted : ∃ v,
    Attempt.run { arguments := build, room := some 0 } desk = (.error (.files .noSpace), v) ∧
      held indexPlace v = entriesOf beside [cats] := by
  obtain ⟨summary, v, hrun, hconsole, hholding, -⟩ := run_desk (some 0)
  have hlength : ¬(IndexNotice.mk "index" .created (some summary)).text.length ≤ 0 := by
    have hindexed : (toString "Indexed ").length = 8 := by decide
    simp only [IndexNotice.text, IndexNotice.summaryLines, String.length_append]
    omega
  have hprint : v.console.print (IndexNotice.mk "index" .created (some summary)).text =
      (v.console, .error .noSpace) := by
    rw [hconsole]
    simp [Console.print, hlength]
  have hend := Job.run_print (IndexNotice.mk "index" .created (some summary)).text v
  rw [hprint] at hend
  exact ⟨v, hrun.trans hend, OpenIndex.held_eq isDesk_desk.straight hholding⟩

end Concordance.CommandLine
