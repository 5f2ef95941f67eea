import Concordance.Proofs.Index.Making
import Concordance.Proofs.Index.Writing
import Mathlib

/-!
# Concordance.Proofs.Index.Reopening

One index in a folder that is opened, filled and left again and again, each time with settings of
its own.  The analyzer is written only where there are no documents, so that the one that stands
beside them is the one that all of them were analyzed with.

* `Shelf`, `Step` — the index over time, with a record of what was added and committed;
* `Sound` — what the folder and an open index have to do with the record, kept by every step;
* `analyzer_stays` — what an opening finds after any steps.
-/

namespace Concordance.OpenIndex

open Files
open Files.Tree (Around LeadsTo Names Spares Straight bytesOf)

/-! ## an index over time -/

/-- A document, and the index that it was added through. -/
structure Added where
  through : OpenIndex
  document : Document

/-- An index in a folder over time. -/
structure Shelf where
  workspace : Workspace
  /-- The index while it is open. -/
  current : Option OpenIndex := none
  /-- What was added since the last commit. -/
  waiting : List Added := []
  /-- What was committed since all documents were last removed. -/
  committed : List Added := []
  /-- What the open index has read of what was committed. -/
  shown : List Added := []

/-- What is done with the index. -/
inductive Step
  | openWith (c : Config)
  | add (d : Document)
  | commit
  | leave

namespace Shelf

/-- The index is left if it is open; what was not committed is lost. -/
def leave (s : Shelf) : Shelf where
  workspace :=
    match s.current with
    | none => s.workspace
    | some o => (ExceptT.run o.close s.workspace).2
  committed := s.committed

/-- What opening with settings leaves of what was committed: all of it, or nothing where the index
is to be removed first and is gone then. -/
def kept (c : Config) (w : Workspace) (committed : List Added) : List Added :=
  if c.regenerate ∧
      isPresent (ExceptT.run (removeIndex c.indexFolder) w).2.files c.indexFolder = false then []
  else committed

/-- The index is opened, after the one that is open is left. -/
def openWith (s : Shelf) (c : Config) : Shelf :=
  let committed := kept c s.leave.workspace s.committed
  match ExceptT.run (openFolder c) s.leave.workspace with
  | (.ok (o, _), w) =>
    { workspace := w, current := some o, committed := committed, shown := committed }
  | (.error _, w) => { workspace := w, committed := committed }

/-- A document is added through the index that is open. -/
def add (s : Shelf) (d : Document) : Shelf :=
  match s.current with
  | none => s
  | some o =>
    match Sink.ofIndex.add d ⟨s.workspace, o⟩ with
    | (.ok (), ⟨w, o'⟩) =>
      { s with workspace := w, current := some o', waiting := s.waiting ++ [⟨o, d⟩] }
    | (.error _, ⟨w, o'⟩) => { s with workspace := w, current := some o' }

/-- What a commit that fails leaves as committed: what has waited is published if anything is
written, and else it is lost. -/
def published (s : Shelf) (w : Workspace) : List Added :=
  if w.files = s.workspace.files then s.committed else s.committed ++ s.waiting

/-- What was added is committed. -/
def commit (s : Shelf) : Shelf :=
  match s.current with
  | none => s
  | some o =>
    match Sink.ofIndex.commit ⟨s.workspace, o⟩ with
    | (.ok (), ⟨w, o'⟩) =>
      let committed := s.committed ++ s.waiting
      { workspace := w, current := some o', committed := committed, shown := committed }
    | (.error _, ⟨w, o'⟩) =>
      { workspace := w, current := some o', committed := s.published w, shown := s.shown }

/-- One step. -/
def next (s : Shelf) : Step → Shelf
  | .openWith c => s.openWith c
  | .add d => s.add d
  | .commit => s.commit
  | .leave => s.leave

/-- The index after steps that begin with a workspace in which it is not open. -/
def after (w : Workspace) (steps : List Step) : Shelf := steps.foldl next { workspace := w }

theorem kept_of_not_regenerate {c : Config} (h : c.regenerate = false) (w : Workspace)
    (committed : List Added) : kept c w committed = committed :=
  if_neg fun hgone => absurd (h.symm.trans hgone.1) (by decide)

theorem kept_nil (c : Config) (w : Workspace) : kept c w [] = [] := ite_self []

theorem after_snoc (w : Workspace) (steps : List Step) (step : Step) :
    after w (steps ++ [step]) = (after w steps).next step :=
  List.foldl_append

end Shelf

theorem Shelf.files_leave (s : Shelf) : s.leave.workspace.files = s.workspace.files := by
  unfold leave
  cases s.current with
  | none => rfl
  | some o => exact files_of_close o s.workspace

section Leaves

variable {γ : Type} (part : Workspace → γ)

theorem Shelf.leaves_leave (hclose : ∀ o : OpenIndex, Leaves part o.close) (s : Shelf) :
    part s.leave.workspace = part s.workspace := by
  unfold leave
  cases s.current with
  | none => rfl
  | some o => exact hclose o s.workspace

/-- What the jobs of an index leave alone, steps leave alone. -/
theorem Shelf.leaves_after (hopen : ∀ c, Leaves part (openFolder c))
    (hclose : ∀ o : OpenIndex, Leaves part o.close)
    (hadd : ∀ (o : OpenIndex) (d : Document), Leaves part (o.add d))
    (hcommit : ∀ o : OpenIndex, Leaves part o.commit) (w : Workspace) (steps : List Step) :
    part (Shelf.after w steps).workspace = part w := by
  have hstep : ∀ (failed : OpenIndex → OpenIndex) (job : OpenIndex → Job OpenIndex),
      (∀ o, Leaves part (job o)) → ∀ s answer v o,
        Sink.step failed job s = (answer, ⟨v, o⟩) → part v = part s.workspace := by
    intro failed job hjob s answer v o heq
    have hleaves := hjob s.index s.workspace
    rwa [← workspace_step failed job s, heq] at hleaves
  induction steps using List.reverseRecOn with
  | nil => rfl
  | append_singleton steps step ih =>
      rw [after_snoc, ← ih]
      cases step with
      | openWith c =>
          have hleaves := hopen c (Shelf.after w steps).leave.workspace
          rw [leaves_leave part hclose] at hleaves
          rw [next, openWith]
          split
          all_goals
            next hrun =>
            rw [hrun] at hleaves
            exact hleaves
      | add d =>
          rw [next, add]
          split
          · rfl
          split
          all_goals
            next heq =>
            exact hstep id (·.add d) (hadd · d) _ _ _ _ heq
      | commit =>
          rw [next, commit]
          split
          · rfl
          split
          all_goals
            next heq =>
            exact hstep afterFailure (·.commit) hcommit _ _ _ _ heq
      | leave => exact leaves_leave part hclose _

end Leaves

/-- No step changes what is refused. -/
theorem Shelf.limits_after (w : Workspace) (steps : List Step) :
    (Shelf.after w steps).workspace.files.limits = w.files.limits :=
  leaves_after (·.files.limits) (fun c v => openFolder_limits c v.files.limits v rfl)
    (fun o v => congrArg Tree.limits (files_of_close o v))
    (fun o d v => add_limits o d v.files.limits v rfl)
    (fun o v => commit_limits o v.files.limits v rfl) w steps

/-! ## the record and the folder -/

variable {place : Place} {t u : Tree} {segments : List Index.Segment} {a : Analyzer}
  {added committed waiting : List Added} {o : OpenIndex}

/-- The documents that were added, analyzed. -/
def entriesOf (a : Analyzer) (added : List Added) : List Index.Entry :=
  added.map fun x => Index.Entry.ofDocument a x.document

/-- All documents were added through indexes with one analyzer. -/
def AllBy (a : Analyzer) (added : List Added) : Prop := ∀ x ∈ added, x.through.index.analyzer = a

/-- Segments hold what was added, analyzed the way in which it was added. -/
structure Hold (segments : List Index.Segment) (a : Analyzer) (added : List Added) : Prop where
  entries : segments.flatten = entriesOf a added
  nonempty : [] ∉ segments
  analyzer : AllBy a added

/-- A place holds what was committed. -/
inductive Keeps (place : Place) (u : Tree) : List Added → Prop
  | vacant (h : IsVacant place u) : Keeps place u []
  | stored {segments : List Index.Segment} {a : Analyzer} {committed : List Added}
      (h : Stores place u segments a) (hhold : Hold segments a committed) : Keeps place u committed

/-- An open index works on what a place holds, with the analyzer that stands there. -/
structure WorksOn (place : Place) (u : Tree) (segments : List Index.Segment)
    (committed waiting : List Added) (o : OpenIndex) : Prop where
  folder : o.folder = some place
  stores : Stores place u segments o.index.analyzer
  hold : Hold segments o.index.analyzer committed
  writer : o.index.writer = writerBehind segments (entriesOf o.index.analyzer waiting)
  waiting : AllBy o.index.analyzer waiting

/-- The folder and the open index are as the record says, whatever was written elsewhere. -/
structure Sound (place : Place) (t : Tree) (s : Shelf) : Prop where
  around : Around place t s.workspace.files
  keeps : Keeps place s.workspace.files s.committed
  current : ∀ o, s.current = some o →
    ∃ segments, WorksOn place s.workspace.files segments s.committed s.waiting o

theorem AllBy.append (h : AllBy a committed) (h' : AllBy a waiting) :
    AllBy a (committed ++ waiting) := fun x hx => (List.mem_append.mp hx).elim (h x) (h' x)

theorem AllBy.nil (a : Analyzer) : AllBy a [] := fun _ hx => absurd hx List.not_mem_nil

theorem Hold.nil (a : Analyzer) : Hold [] a [] :=
  ⟨rfl, List.not_mem_nil, .nil a⟩

/-- There are segments exactly where there are documents. -/
theorem Hold.eq_nil_iff (h : Hold segments a added) : segments = [] ↔ added = [] := by
  constructor
  · rintro rfl
    exact List.map_eq_nil_iff.mp h.entries.symm
  · rintro rfl
    have hempty : ∀ s ∈ segments, s = [] := List.flatten_eq_nil_iff.mp h.entries
    refine List.eq_nil_iff_forall_not_mem.mpr fun s hs => ?_
    obtain rfl := hempty s hs
    exact h.nonempty hs

/-- What has waited is behind what was committed. -/
theorem Hold.behind (h : Hold segments a committed) (hwaiting : AllBy a waiting) :
    Hold (behind segments (entriesOf a waiting)) a (committed ++ waiting) where
  entries := by rw [flatten_behind, h.entries, entriesOf, entriesOf, entriesOf, List.map_append]
  nonempty := by
    rw [nil_mem_behind_iff]
    exact h.nonempty
  analyzer := h.analyzer.append hwaiting

/-- Where something was committed there are segments. -/
theorem Keeps.exists_stores (h : Keeps place u committed) (hne : committed ≠ []) :
    ∃ segments a, Stores place u segments a ∧ segments ≠ [] := by
  cases h with
  | vacant => exact absurd rfl hne
  | stored h hhold => exact ⟨_, _, h, (not_congr hhold.eq_nil_iff).mpr hne⟩

theorem Keeps.isVacant (h : Keeps place u []) : IsVacant place u := by
  cases h with
  | vacant h => exact h
  | stored h hhold =>
      rw [hhold.eq_nil_iff.mpr rfl] at h
      exact h.isVacant

theorem WorksOn.keeps (h : WorksOn place u segments committed waiting o) :
    Keeps place u committed := .stored h.stores h.hold

theorem Sound.of_worksOn {w : Workspace} {shown : List Added} (hu : Around place t w.files)
    (h : WorksOn place w.files segments committed waiting o) :
    Sound place t ⟨w, some o, waiting, committed, shown⟩ where
  around := hu
  keeps := h.keeps
  current _ heq := by
    cases heq
    exact ⟨segments, h⟩

theorem Sound.of_keeps {w : Workspace} (hu : Around place t w.files)
    (h : Keeps place w.files committed) :
    Sound place t { workspace := w, committed := committed } where
  around := hu
  keeps := h
  current _ heq := by cases heq

/-! ## opening -/

/-- What an opening finds and answers, where documents have been kept. -/
structure Opened (place : Place) (u : Tree) (kept : List Added) (r : OpenIndex × Found) : Prop where
  found : r.2 = .existing ↔ kept ≠ []
  published : r.1.index.published.flatten = entriesOf r.1.index.analyzer kept
  works : ∃ segments, WorksOn place u segments kept [] r.1

theorem opened_fresh {c : Config} (h : Stores place u [] (Analyzer.ofConfig c)) :
    Opened place u [] (fresh place c, .created) where
  found := by simp
  published := rfl
  works := ⟨[], rfl, h, .nil _, rfl, .nil _⟩

theorem opened_reused {c : Config} (h : Stores place u segments a)
    (hhold : Hold segments a committed) (hne : segments ≠ []) :
    Opened place u committed (reused place c segments a, .existing) where
  found := by simpa using (not_congr hhold.eq_nil_iff).mp hne
  published := hhold.entries
  works := ⟨segments, rfl, h, hhold, rfl, .nil a⟩

/-- An index is present where there is a catalog. -/
theorem isPresent_of_catalog (hu : Around place t u) (h : HasCatalog place u segments)
    {path : String} (hpath : u.resolve true path = .ok ⟨place, some .folder⟩) : isPresent u path = true := by
  obtain ⟨room, hcatalog⟩ := h.catalog
  have hspot := resolve_below hu isName_catalogName catalogName_size hpath
  rw [hcatalog] at hspot
  rw [isPresent, Tree.isFile, hspot]

theorem isPresent_of_cleared (hu : Around place t u) (h : IsCleared place u) {path : String}
    (hne : path ≠ "") (hpath : LeadsTo t place path) : isPresent u path = false := by
  unfold isPresent Tree.isFile
  split
  · next p content room hspot =>
    obtain ⟨-, heq⟩ := resolve_of_join hu hne hpath isName_catalogName hspot
    exact absurd (congrArg Tree.Spot.node heq).symm (h content room)
  · rfl

section Opening

variable (hplace : Straight t place) {c : Config} (hpath : Names t place c.indexFolder)
include hplace hpath

/-- Removing the index leaves nothing of what was committed where it succeeds. -/
theorem removeIndex_kept (hregenerate : c.regenerate = true) {w : Workspace}
    (hu : Around place t w.files) (hkeeps : Keeps place w.files committed) :
    Ensures (removeIndex c.indexFolder) w
      (fun _ v => Around place t v.files ∧ Keeps place v.files (Shelf.kept c w committed) ∧
        Shelf.kept c w committed = [])
      (fun _ v => Around place t v.files ∧ Keeps place v.files (Shelf.kept c w committed)) := by
  by_cases hnone : committed = []
  case pos =>
    subst hnone
    have hremoved := removeIndex_leaves hu hpath.toLeadsTo (K := IsVacant place) hkeeps.isVacant
      (.inl hkeeps.isVacant.removeBelow)
    rw [Shelf.kept_nil]
    refine hremoved.mono (fun _ v hv => ?_) fun _ v hv => ?_
    · obtain ⟨-, rfl⟩ | ⟨-, hv, hcleared⟩ := hv
      · exact ⟨hu, hkeeps, rfl⟩
      · exact ⟨hv, .vacant hcleared.isVacant, rfl⟩
    · exact ⟨hv.2.1, .vacant (hv.2.2.elim id IsCleared.isVacant)⟩
  case neg =>
    cases hkeeps with
    | vacant => exact absurd rfl hnone
    | @stored segments a _ h hhold =>
        have hfound := hpath.found w.files hu h.folder
        have hthere : w.files.isThere c.indexFolder = true := by rw [Tree.isThere, hfound]
        have hne : c.indexFolder ≠ "" := (Tree.resolve_eq_ok_iff.mp hfound).1.nonempty
        -- what is kept is told by the catalog that removing has left
        have hkept : ∀ {r v}, ExceptT.run (removeIndex c.indexFolder) w = (r, v) →
            Shelf.kept c w committed = if isPresent v.files c.indexFolder = false then [] else
              committed := fun hrun => by
          simp only [Shelf.kept, hrun, hregenerate, true_and]
        have hremoved := removeIndex_leaves hu hpath.toLeadsTo (K := (Stores place · segments a)) h
          (h.removeBelow hplace hu)
        refine hremoved.with_run.mono (fun _ v hv => ?_) fun _ v hv => ?_
        · obtain ⟨⟨habsent, -⟩ | ⟨-, hv, hcleared⟩, hrun⟩ := hv
          · exact absurd (habsent.symm.trans hthere) (by decide)
          · rw [hkept hrun, if_pos (isPresent_of_cleared hv hcleared hne hpath.toLeadsTo)]
            exact ⟨hv, .vacant hcleared.isVacant, rfl⟩
        · obtain ⟨⟨-, hv, hstores | hcleared⟩, hrun⟩ := hv
          · have hpresent := isPresent_of_catalog hv hstores.toHasCatalog
              (hpath.found v.files hv hstores.folder)
            rw [hkept hrun, if_neg (by rw [hpresent]; decide)]
            exact ⟨hv, .stored hstores hhold⟩
          · rw [hkept hrun, if_pos (isPresent_of_cleared hv hcleared hne hpath.toLeadsTo)]
            exact ⟨hv, .vacant hcleared.isVacant⟩

variable (hlength : c.maxTokenLength < Decimal.wordLimit)
include hlength

/-- An opening that removes nothing keeps what was committed, and finds it. -/
theorem reopen_opens {w : Workspace} (hu : Around place t w.files)
    (hkeeps : Keeps place w.files committed) :
    Ensures (reopen c) w (fun r v => Around place t v.files ∧ Opened place v.files committed r)
      (fun _ v => Around place t v.files ∧ Keeps place v.files committed) := by
  have hleads := hpath.toLeadsTo
  by_cases hnone : committed = []
  case pos =>
    subst hnone
    have hw : Holding place t [] w.files := ⟨hu, .vacant hkeeps.isVacant⟩
    refine (reopen_vacant hplace.names.toLeadsTo hleads hlength hw).mono (fun r v hr => ?_)
      fun e v hv => ?_
    · obtain ⟨rfl, hv, hstores⟩ := hr
      exact ⟨hv, opened_fresh hstores⟩
    · exact ⟨hv.1.around, .vacant hv.1.isVacant⟩
  case neg =>
    cases hkeeps with
    | vacant => exact absurd rfl hnone
    | stored h hhold =>
        have hne := (not_congr hhold.eq_nil_iff).mpr hnone
        refine (reopen_stored hleads hu h hne).mono (fun r v hr => ?_) fun _ v hv => ?_
        · obtain ⟨rfl, hv⟩ := hr
          exact ⟨hu.spares hv, opened_reused (h.spares hv) hhold hne⟩
        · exact ⟨hu.spares hv, .stored (h.spares hv) hhold⟩

/-- An opening keeps what was committed unless it removes all of it first. -/
theorem openFolder_opens {w : Workspace} (hu : Around place t w.files)
    (hkeeps : Keeps place w.files committed) :
    Ensures (openFolder c) w
      (fun r v => Around place t v.files ∧ Opened place v.files (Shelf.kept c w committed) r ∧
        (c.regenerate = true → Shelf.kept c w committed = []))
      (fun _ v => Around place t v.files ∧ Keeps place v.files (Shelf.kept c w committed)) := by
  by_cases hregenerate : c.regenerate = true
  · rw [openFolder_eq, removal, if_pos hregenerate]
    refine (removeIndex_kept hplace hpath hregenerate hu hkeeps).bind fun _ v hv => ?_
    obtain ⟨hv, hkeeps, hkept⟩ := hv
    exact (reopen_opens hplace hpath hlength hv hkeeps).mono
      (fun _ _ hr => ⟨hr.1, hr.2, fun _ => hkept⟩) fun _ _ hr => hr
  · rw [openFolder_eq_reopen (Bool.eq_false_iff.mpr hregenerate),
      Shelf.kept_of_not_regenerate (Bool.eq_false_iff.mpr hregenerate)]
    exact (reopen_opens hplace hpath hlength hu hkeeps).mono
      (fun _ _ hr => ⟨hr.1, hr.2, fun h => absurd h hregenerate⟩) fun _ _ hr => hr

end Opening

/-! ## the steps -/

variable {s : Shelf}

theorem Sound.leave (h : Sound place t s) : Sound place t s.leave := by
  have hfiles := s.files_leave
  have hu := h.around
  have hkeeps := h.keeps
  rw [← hfiles] at hu hkeeps
  exact .of_keeps hu hkeeps

theorem Shelf.openWith_of_ok {c : Config} {found : Found} {v : Workspace}
    (h : ExceptT.run (openFolder c) s.leave.workspace = (.ok (o, found), v)) :
    s.openWith c = {
      workspace := v, current := some o, committed := kept c s.leave.workspace s.committed,
      shown := kept c s.leave.workspace s.committed } := by
  rw [openWith, h]

/-- A document that is added waits, or it is refused. -/
theorem Shelf.add_cases (h : s.current = some o) {d : Document}
    {good : OpenIndex → Workspace → Prop} {bad : Fault → Workspace → Prop}
    (hadd : Ensures (o.add d) s.workspace good bad) :
    (∃ o' v, s.add d = { s with
        workspace := v, current := some o', waiting := s.waiting ++ [⟨o, d⟩] } ∧ good o' v) ∨
      ∃ e v, s.add d = { s with workspace := v, current := some o } ∧ bad e v := by
  unfold Shelf.add
  rw [h]
  obtain ⟨o', v, hstep, hgood⟩ | ⟨e, v, hstep, hbad⟩ :=
    step_cases id (·.add d) (s := ⟨s.workspace, o⟩) hadd
  · have hanswer : Sink.ofIndex.add d ⟨s.workspace, o⟩ = (.ok (), ⟨v, o'⟩) := hstep
    simp only [hanswer]
    exact .inl ⟨o', v, rfl, hgood⟩
  · have hanswer : Sink.ofIndex.add d ⟨s.workspace, o⟩ = (.error e, ⟨v, o⟩) := hstep
    simp only [hanswer]
    exact .inr ⟨e, v, rfl, hbad⟩

/-- What has waited is committed, or it is lost. -/
theorem Shelf.commit_cases (h : s.current = some o) {good : OpenIndex → Workspace → Prop}
    {bad : Fault → Workspace → Prop} (hcommit : Ensures o.commit s.workspace good bad) :
    (∃ o' v, s.commit = {
        workspace := v, current := some o', committed := s.committed ++ s.waiting,
        shown := s.committed ++ s.waiting } ∧ good o' v) ∨
      ∃ e v, s.commit = {
        workspace := v, current := some (afterFailure o), committed := s.published v,
        shown := s.shown } ∧ bad e v := by
  unfold Shelf.commit
  rw [h]
  obtain ⟨o', v, hstep, hgood⟩ | ⟨e, v, hstep, hbad⟩ :=
    step_cases afterFailure (·.commit) (s := ⟨s.workspace, o⟩) hcommit
  · have hanswer : Sink.ofIndex.commit ⟨s.workspace, o⟩ = (.ok (), ⟨v, o'⟩) := hstep
    simp only [hanswer]
    exact .inl ⟨o', v, rfl, hgood⟩
  · have hanswer : Sink.ofIndex.commit ⟨s.workspace, o⟩ = (.error e, ⟨v, afterFailure o⟩) := hstep
    simp only [hanswer]
    exact .inr ⟨e, v, rfl, hbad⟩

theorem Sound.openWith (h : Sound place t s) (hplace : Straight t place) {c : Config}
    (hpath : Names t place c.indexFolder) (hlength : c.maxTokenLength < Decimal.wordLimit) :
    Sound place t (s.openWith c) := by
  have hopen := openFolder_opens hplace hpath hlength h.leave.around h.leave.keeps
  unfold Shelf.openWith
  split
  · next o found v hrun =>
    obtain ⟨hv, hopened, -⟩ := hopen.of_ok hrun
    obtain ⟨segments, hworks⟩ := hopened.works
    exact .of_worksOn hv hworks
  · next e v hrun =>
    obtain ⟨hv, hkeeps⟩ := hopen.of_error hrun
    exact .of_keeps hv hkeeps

/-- A document that is added waits, unless no writer is opened.  Nothing is written. -/
theorem Sound.add_current (h : Sound place t s) (hcurrent : s.current = some o) (d : Document) :
    Sound place t (s.add d) ∧ (s.add d).workspace.files = s.workspace.files ∧
      ((∃ o', s.add d = { s with
          workspace := (s.add d).workspace, current := some o', waiting := s.waiting ++ [⟨o, d⟩] }) ∨
        ∃ e, Unwritable place o.index s.workspace e) := by
  obtain ⟨segments, hworks⟩ := h.current o hcurrent
  have hu := h.around
  have hadd := ensures_add hworks.folder hworks.writer
    (fun _ hbase => hworks.stores.toHasCatalog.eq_of_readCatalog hu hbase) d
  obtain ⟨o', v, hshelf, rfl, hfiles⟩ | ⟨e, v, hshelf, ⟨hfiles, -⟩, -, hfailed⟩ :=
    Shelf.add_cases hcurrent hadd
  · rw [← hfiles] at hu hworks
    rw [hshelf]
    refine ⟨.of_worksOn hu ⟨hworks.folder, hworks.stores, hworks.hold, ?_, ?_⟩, hfiles,
      .inl ⟨_, rfl⟩⟩
    · simp [writing, entriesOf]
    · refine hworks.waiting.append fun x hx => ?_
      obtain rfl := List.mem_singleton.mp hx
      rfl
  · rw [← hfiles] at hu hworks
    rw [hshelf]
    exact ⟨.of_worksOn hu hworks, hfiles, .inr ⟨e, hfailed⟩⟩

theorem Sound.add (h : Sound place t s) (d : Document) : Sound place t (s.add d) := by
  cases hcurrent : s.current with
  | none =>
      rw [Shelf.add, hcurrent]
      exact h
  | some o => exact (h.add_current hcurrent d).1

/-- The catalog says whether what has waited is published. -/
theorem Keeps.published {segments : List Index.Segment} {v : Workspace}
    (h : Stores place s.workspace.files segments a) (hhold : Hold segments a s.committed)
    (hwaiting : AllBy a s.waiting)
    (hv : v.files = s.workspace.files ∨
      Stores place v.files (behind segments (entriesOf a s.waiting)) a) :
    ∃ later, Stores place v.files later a ∧ Hold later a (s.published v) := by
  unfold Shelf.published
  split
  · next heq =>
    rw [heq]
    exact ⟨segments, h, hhold⟩
  · next hne =>
    exact ⟨_, hv.resolve_left hne, hhold.behind hwaiting⟩

/-- What has waited is committed, and nothing waits any more.  Only a limit keeps it from that. -/
theorem Sound.commit_current (h : Sound place t s) (hplace : Straight t place)
    (hcurrent : s.current = some o) :
    Sound place t s.commit ∧ (s.workspace.files.limits = {} →
      s.commit.committed = s.committed ++ s.waiting) := by
  obtain ⟨segments, hworks⟩ := h.current o hcurrent
  have hcommit := ensures_commit hplace.names.toLeadsTo h.around hworks.stores hworks.folder
    hworks.writer
  obtain ⟨o', v, hshelf, hv, hstores, rfl⟩ | ⟨e, v, hshelf, -, hlimits, hv⟩ :=
    Shelf.commit_cases hcurrent hcommit
  · rw [hshelf]
    exact ⟨.of_worksOn hv
      ⟨hworks.folder, hstores, hworks.hold.behind hworks.waiting, rfl, .nil _⟩, fun _ => rfl⟩
  · have hu : Around place t v.files := hv.elim (fun heq => heq ▸ h.around) And.left
    obtain ⟨later, hstores, hhold⟩ :=
      Keeps.published hworks.stores hworks.hold hworks.waiting (hv.imp_right And.right)
    rw [hshelf]
    exact ⟨.of_worksOn hu ⟨hworks.folder, hstores, hhold, rfl, .nil _⟩,
      fun hnone => absurd hnone hlimits⟩

theorem Sound.commit (h : Sound place t s) (hplace : Straight t place) : Sound place t s.commit := by
  cases hcurrent : s.current with
  | none =>
      rw [Shelf.commit, hcurrent]
      exact h
  | some o => exact (h.commit_current hplace hcurrent).1

/-- The settings of an opening name the folder, and the token length fits in a machine word. -/
structure OpensAt (t : Tree) (place : Place) (c : Config) : Prop where
  path : Names t place c.indexFolder
  length : c.maxTokenLength < Decimal.wordLimit

theorem Sound.next (h : Sound place t s) (hplace : Straight t place) {step : Step}
    (hstep : ∀ c, step = .openWith c → OpensAt t place c) : Sound place t (s.next step) := by
  cases step with
  | openWith c => exact h.openWith hplace (hstep c rfl).path (hstep c rfl).length
  | add d => exact h.add d
  | commit => exact h.commit hplace
  | leave => exact h.leave

/-! ## all steps -/

theorem sound_after {w : Workspace} (hfresh : ∀ p, place <+: p → w.files.node? p = none)
    (hplace : Straight w.files place) (steps : List Step)
    (hsteps : ∀ c, .openWith c ∈ steps → OpensAt w.files place c) :
    Sound place w.files (Shelf.after w steps) := by
  induction steps using List.reverseRecOn with
  | nil =>
      have hnone := hfresh _ (below_place place catalogName)
      exact .of_keeps (.refl hfresh) (.vacant (isVacant_of_none hnone))
  | append_singleton steps step ih =>
      rw [Shelf.after_snoc]
      refine (ih fun c hc => hsteps c (List.mem_append_left [step] hc)).next hplace fun c hc => ?_
      exact hsteps c (by rw [hc]; simp)

/-- **The analyzer stays with the index**: over any steps on one index, which does not exist at
first, an opening finds documents exactly where some were committed and are not removed.  The index
that is opened takes texts apart as those did through which its documents were added, whatever its
own settings ask for, and all of its documents were analyzed in that way.  The analyzer is what the
file beside the index says, and the file of any analyzer says all of it. -/
theorem analyzer_stays (hplace : ∀ name ∈ place, IsName name) {w : Workspace}
    (hfresh : ∀ p, place <+: p → w.files.node? p = none)
    (hlink : ∀ p target, p <+: place → w.files.node? p ≠ some (.link target))
    (steps : List Step) (hsteps : ∀ c, .openWith c ∈ steps → OpensAt w.files place c)
    {c : Config} (hc : OpensAt w.files place c) {found : Found} {v : Workspace}
    (hopen : ExceptT.run (openFolder c) (Shelf.after w steps).leave.workspace =
      (.ok (o, found), v)) :
    (found = .existing ↔ c.regenerate = false ∧ (Shelf.after w steps).committed ≠ []) ∧
      (found = .existing →
        (∀ x ∈ (Shelf.after w steps).committed, ∀ field text,
          o.index.tokenize field text = x.through.index.tokenize field text) ∧
        o.index.published.flatten = (Shelf.after w steps).committed.map
          fun x => Index.Entry.ofDocument o.index.analyzer x.document) ∧
      readAnalyzer (join c.indexFolder analyzerName) v.files = .ok o.index.analyzer ∧
      ∀ a : Analyzer, a.maxTokenLength < Decimal.wordLimit → Analyzer.ofText? a.toText = some a := by
  have hstraight : Straight w.files place := ⟨hplace, hlink⟩
  have hsound := (sound_after hfresh hstraight steps hsteps).leave
  obtain ⟨hv, hopened, hgone⟩ :=
    (openFolder_opens hstraight hc.path hc.length hsound.around hsound.keeps).of_ok hopen
  obtain ⟨segments, hworks⟩ := hopened.works
  have hpath := hc.path.found v.files hv hworks.stores.folder
  have hkept : c.regenerate = false → Shelf.kept c (Shelf.after w steps).leave.workspace
      (Shelf.after w steps).leave.committed = (Shelf.after w steps).committed :=
    fun h => Shelf.kept_of_not_regenerate h _ _
  have hfound : found = .existing ↔
      c.regenerate = false ∧ (Shelf.after w steps).committed ≠ [] := by
    rw [hopened.found]
    cases hregenerate : c.regenerate with
    | true => simp [hgone hregenerate]
    | false => simp [hkept hregenerate]
  refine ⟨hfound, fun hexisting => ?_, hworks.stores.readAnalyzer hv hpath,
    fun a ha => Analyzer.ofText?_toText ha⟩
  have hanalyzer := hworks.hold.analyzer
  have hpublished := hopened.published
  rw [hkept (hfound.mp hexisting).1] at hanalyzer hpublished
  refine ⟨fun x hx field text => ?_, hpublished⟩
  rw [Index.tokenize, Index.tokenize, hanalyzer x hx]

/-! ### other settings the second time -/

/-- A folder for work with nothing in it. -/
def emptyDesk : Workspace where
  files := { home := ["work"], nodes := [([], .folder), (["work"], .folder)] }

/-- Settings that ask for stop words. -/
def asking (stopWords : List String) : Config where
  indexFolder := "index"
  stopWords := stopWords

/-- A document of two words. -/
def theCat : Document := { ordinal := 0, content := some "The cat" }

theorem isDesk_emptyDesk : IsDesk emptyDesk where
  home := rfl
  root := rfl
  folder := rfl
  fresh := by decide
  link := by simp [emptyDesk]
  limits := rfl
  locks := rfl

theorem opensAt_emptyDesk (stopWords : List String) :
    OpensAt emptyDesk.files indexPlace (asking stopWords) where
  path := isDesk_emptyDesk.names
  length := (by decide : 40 < Decimal.wordLimit)

/-- An index with stop words, filled with a document. -/
def filled : List Step := [.openWith (asking ["The"]), .add theCat, .commit]

theorem opensAt_filled (c : Config) (hc : .openWith c ∈ filled) :
    OpensAt emptyDesk.files indexPlace c := by
  obtain rfl : c = asking ["The"] := by simpa [filled] using hc
  exact opensAt_emptyDesk ["The"]

theorem committed_filled : (Shelf.after emptyDesk filled).committed =
    [⟨fresh indexPlace (asking ["The"]), theCat⟩] := by
  have hstart := sound_after (fun _ => isDesk_emptyDesk.node?_eq_none) isDesk_emptyDesk.straight
    [.openWith (asking ["The"])] fun c hc => opensAt_filled c (List.mem_of_mem_take (i := 1) hc)
  have hafter : Shelf.after emptyDesk filled =
      ((Shelf.after emptyDesk [.openWith (asking ["The"])]).add theCat).commit := rfl
  have hopen : Shelf.after emptyDesk [.openWith (asking ["The"])] =
      Shelf.openWith { workspace := emptyDesk } (asking ["The"]) := rfl
  rw [hafter]
  have hrun := isDesk_emptyDesk.openFolder (c := asking ["The"]) rfl rfl
  have hlimits : (made indexPlace (asking ["The"])
      (emptyDesk.files.put indexPlace .folder)).limits = {} := rfl
  rw [hopen, Shelf.openWith_of_ok (s := { workspace := emptyDesk }) hrun] at hstart ⊢
  generalize made indexPlace (asking ["The"]) (emptyDesk.files.put indexPlace .folder) = u
    at hstart hlimits ⊢
  obtain ⟨hadd, hfiles, ⟨o', hwaiting⟩ | ⟨e, hfailed⟩⟩ := hstart.add_current rfl theCat
  · have hcurrent := congrArg Shelf.current hwaiting
    rw [(hadd.commit_current isDesk_emptyDesk.straight hcurrent).2
      ((congrArg Tree.limits hfiles).trans hlimits), hwaiting]
    rfl
  · cases hfailed with
    | locked h => cases h
    | memory h => cases h
    | catalog h =>
        obtain ⟨segments, hworks⟩ := hstart.current _ rfl
        obtain hread | ⟨-, hunmapped, -⟩ := hworks.stores.toHasCatalog.readCatalog hstart.around
        · cases h.symm.trans hread
        · rw [hlimits] at hunmapped
          cases hunmapped

/-- Settings without stop words find the index with the stop words it was filled with. -/
theorem analyzer_stays_filled :
    ∃ o v, ExceptT.run (openFolder (asking [])) (Shelf.after emptyDesk filled).leave.workspace =
        (.ok (o, .existing), v) ∧
      o.index.tokenize "content" "The cat" = .ok ["cat"] := by
  have hsound := (sound_after (fun _ => isDesk_emptyDesk.node?_eq_none) isDesk_emptyDesk.straight
    filled opensAt_filled).leave
  have hcommitted : (Shelf.after emptyDesk filled).leave.committed = _ := committed_filled
  obtain ⟨segments, a, hstores, hne⟩ := hsound.keeps.exists_stores (by rw [hcommitted]; simp)
  have hnode := (Tree.resolve_eq_ok_iff.mp hstores.folder).2.1.symm
  have hfolder := isDesk_emptyDesk.resolve_index hsound.around
  rw [hnode] at hfolder
  have hmapped : (Shelf.after emptyDesk filled).leave.workspace.files.limits.unmapped = [] := by
    rw [Shelf.files_leave, Shelf.limits_after]
    rfl
  have hopen := reopen_there (c := asking []) hsound.around hstores hne hmapped (hfolder true)
    (Tree.makeFolders_name isName_index hfolder)
  rw [← openFolder_eq_reopen rfl] at hopen
  obtain ⟨r, v, hrun, rfl, -⟩ := hopen.exists_run
  have hstays := analyzer_stays isName_of_indexPlace (fun _ => isDesk_emptyDesk.node?_eq_none)
    isDesk_emptyDesk.straight.link filled opensAt_filled (opensAt_emptyDesk []) hrun
  have hterms := (hstays.2.1 rfl).1 ⟨_, theCat⟩ (by rw [committed_filled]; exact List.mem_cons_self)
    "content" "The cat"
  refine ⟨_, v, hrun, hterms.trans ?_⟩
  cbv

end Concordance.OpenIndex
