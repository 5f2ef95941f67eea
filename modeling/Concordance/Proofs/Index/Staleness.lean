import Concordance.Proofs.Index.History
import Concordance.Proofs.Index.Reopening

/-!
# Concordance.Proofs.Index.Staleness

One session that is asked for the tables of an index in a folder, while the index is opened again
and again.  An index counts its generations from the opening, so that a table which the session has
kept from an earlier opening is handed out again once there have been as many commits.

* `Study`, `Study.Step` — the index over time, and its session;
* `table_since_opening` — a table is built of the index that is open, or was kept from before;
* `not_table_anew` — a table that was kept from before, of an index without documents.
-/

namespace Concordance.OpenIndex

open Files
open Index (source)
open Statistics (Session Table buildAll)

/-! ## the index and its session over time -/

/-- An index in a folder over time, and the session that is asked for its tables all along. -/
structure Study where
  shelf : Shelf
  session : Session

namespace Study

/-- What is done. -/
inductive Step
  | openWith (c : Config)
  | add (d : Document)
  | commit
  | ask

/-- Whether a step is an opening. -/
def Step.isOpening : Step → Bool
  | .openWith _ => true
  | _ => false

/-- Whether a step is a commit. -/
def Step.isCommit : Step → Bool
  | .commit => true
  | _ => false

/-- The session is asked for the table of the index that is open. -/
def ask (s : Study) (o : OpenIndex) : Except Fault Table × Study :=
  let ((answer, session), index) := s.session.table source o.index
  (answer, ⟨{ s.shelf with current := some { o with index := index } }, session⟩)

/-- One step.  Without an index that is open there is no table to ask for. -/
def next (s : Study) : Step → Study
  | .openWith c => { s with shelf := s.shelf.openWith c }
  | .add d => { s with shelf := s.shelf.add d }
  | .commit => { s with shelf := s.shelf.commit }
  | .ask =>
    match s.shelf.current with
    | none => s
    | some o => (s.ask o).2

/-- The index and the session of a field after steps that begin with a workspace. -/
def after (w : Workspace) (field : String) (steps : List Step) : Study :=
  steps.foldl next { shelf := { workspace := w }, session := { field := field } }

/-- The table that is built of an index anew. -/
def anew (field : String) (o : OpenIndex) : Except Fault Table :=
  (ExceptT.run (buildAll source field) o.index).1

theorem after_snoc (w : Workspace) (field : String) (steps : List Step) (step : Step) :
    after w field (steps ++ [step]) = (after w field steps).next step :=
  List.foldl_append

end Study

/-- An index stays open, whether or not it takes a document. -/
theorem Shelf.exists_current_add {s : Shelf} {o : OpenIndex} (h : s.current = some o)
    (d : Document) : ∃ o', (s.add d).current = some o' := by
  unfold add
  rw [h]
  dsimp only
  split <;> exact ⟨_, rfl⟩

/-- An index stays open, whether or not its commit fails. -/
theorem Shelf.exists_current_commit {s : Shelf} {o : OpenIndex} (h : s.current = some o) :
    ∃ o', s.commit.current = some o' := by
  unfold commit
  rw [h]
  dsimp only
  split <;> exact ⟨_, rfl⟩

/-! ## what reads see -/

variable {o : OpenIndex} {w : Workspace} {field : String}

/-- Before anything was read there are no views to be wrong. -/
theorem coherent_of_views {i : Index} (h : i.views = ∅) : i.Coherent := by
  intro name v hv
  simp [h] at hv

/-- Nothing is said about a step. -/
theorem ensures_any (x : Job α) (w : Workspace) :
    Ensures x w (fun _ _ => True) fun _ _ => True := by
  unfold Ensures
  split <;> trivial

/-- A document that is added changes the writer only. -/
theorem add_writing (o : OpenIndex) (d : Document) (w : Workspace) :
    Ensures (o.add d) w (fun o' _ => ∃ writer, o' = o.writing writer) fun _ _ => True := by
  unfold add
  split
  · next folder hfolder hwriter =>
    have hopen : Ensures (openWriter o.index folder) w
        (fun i _ => ∃ writer, i = { o.index with writer := writer }) fun _ _ => True := by
      refine ensures_get_bind ?_
      split
      · exact ensures_throw trivial
      refine (ensures_any _ _).bind fun _ v _ => (ensures_any _ _).bind fun base v _ => ?_
      exact ensures_modify_bind (ensures_pure ⟨_, rfl⟩)
    refine hopen.bind fun i v hi => ensures_pure ?_
    obtain ⟨writer, rfl⟩ := hi
    exact ⟨_, rfl⟩
  · refine Job.ensures_ofExcept_bind (fun i hi => ensures_pure ?_) fun _ _ => trivial
    obtain ⟨writer, rfl, -⟩ := Index.add_ok hi
    exact ⟨some writer, rfl⟩

/-- A commit starts a generation, in which nothing was read. -/
theorem commit_reads (o : OpenIndex) (w : Workspace) :
    Ensures o.commit w
      (fun o' _ => o'.index.generation = o.index.generation + 1 ∧ o'.index.views = ∅)
      fun _ _ => True := by
  unfold commit
  split
  · exact ensures_pure ⟨o.index.generation_commit, o.index.views_commit⟩
  · exact (ensures_any _ _).bind fun _ v _ => (ensures_any _ _).bind fun segments v _ =>
      ensures_pure ⟨rfl, rfl⟩

theorem reopen_reads (c : Config) (w : Workspace) :
    Ensures (reopen c) w
      (fun r _ => r.1.index.generation = 0 ∧ r.1.index.views = ∅) fun _ _ => True :=
  (ensures_any _ _).bind fun _ _ _ => (ensures_any _ _).bind fun _ _ _ =>
    (ensures_any _ _).bind fun _ _ _ => (ensures_any _ _).bind fun _ _ _ => ensures_pure ⟨rfl, rfl⟩

/-- An index that is opened is in the first generation, in which nothing was read. -/
theorem openFolder_reads (c : Config) (w : Workspace) :
    Ensures (openFolder c) w
      (fun r _ => r.1.index.generation = 0 ∧ r.1.index.views = ∅) fun _ _ => True := by
  rw [openFolder_eq]
  exact (ensures_any _ _).bind fun _ v _ => reopen_reads c v

/-! ## since an opening -/

namespace Study

variable {s : Study} {before : Session} {commits : Nat}

/-- What holds since an opening: reads of the index that is open are right, it has had so many
commits, and the session is as it was before the opening or keeps tables of this index. -/
structure Since (field : String) (before : Session) (commits : Nat) (s : Study) : Prop where
  about : s.session.field = field
  coherent : ∀ o, s.shelf.current = some o → o.index.Coherent
  generation : ∀ o, s.shelf.current = some o → o.index.generation ≤ commits
  session : ∀ o, s.shelf.current = some o →
    s.session = before ∨ Index.Keeps field o.index s.session

/-- Whatever happens to its writer, reads of the index are the same. -/
theorem Since.writing (h : Since field before commits s) {shelf : Shelf}
    (hshelf : ∀ o', shelf.current = some o' →
      ∃ o writer, s.shelf.current = some o ∧ o' = o.writing writer) :
    Since field before commits { s with shelf := shelf } := by
  refine ⟨h.about, fun o' ho' => ?_, fun o' ho' => ?_, fun o' ho' => ?_⟩
  all_goals obtain ⟨o, writer, ho, rfl⟩ := hshelf o' ho'
  · exact h.coherent o ho
  · exact h.generation o ho
  · exact (h.session o ho).imp_right fun hkeeps => hkeeps.of_same rfl rfl

theorem anew_eq (hi : o.index.Coherent) (field : String) : anew field o =
    (buildAll (Index.visible o.index.published o.index.generation).recorded field).answer :=
  (Statistics.buildAll_agrees (fun _ => rfl) (Index.agree_source o.index o.index.generation)
    field o.index [] hi.afterReads).1.eq

/-- What a table leaves that is the one of the index. -/
theorem Since.ask_anew (h : Since field before commits s) (ho : s.shelf.current = some o)
    (htable : (s.session.table source o.index).1.1 = (buildAll
        (Index.visible o.index.published o.index.generation).recorded field).answer ∧
      o.index.AfterReads (s.session.table source o.index).2 ∧
      Index.Keeps field o.index (s.session.table source o.index).1.2) :
    (s.ask o).1 = anew field o ∧ Since field before commits (s.ask o).2 := by
  obtain ⟨hanswer, hafter, hkeeps⟩ := htable
  refine ⟨hanswer.trans (anew_eq (h.coherent o ho) field).symm, hkeeps.about, fun o' ho' => ?_,
    fun o' ho' => ?_, fun o' ho' => ?_⟩
  all_goals obtain rfl := Option.some.inj ho'
  · exact hafter.coherent
  · exact Nat.le_trans (Nat.le_of_eq hafter.generation) (h.generation o ho)
  · exact .inr (hkeeps.of_same hafter.published hafter.generation)

/-- A table is built anew, or it was kept from before the opening. -/
theorem Since.ask (h : Since field before commits s) (ho : s.shelf.current = some o) :
    ((s.ask o).1 = anew field o ∨
      s.session = before ∧ ∃ t, before.kept = some (o.index.generation, t) ∧
        (s.ask o).1 = .ok t) ∧ Since field before commits (s.ask o).2 := by
  have hcoherent := h.coherent o ho
  obtain hsame | hkeeps := h.session o ho
  · cases hfresh : s.session.fresh? o.index.generation with
    | none =>
        have htable := Index.Keeps.table_of_stale h.about hcoherent hfresh
        exact (h.ask_anew ho htable).imp_left .inl
    | some t =>
        have hkept := Session.fresh?_eq_some.mp hfresh
        have htable : s.session.table source o.index = ((.ok t, s.session), o.index) :=
          Session.table_of_fresh (r := source) hfresh
        have hask : s.ask o = (.ok t, ⟨{ s.shelf with current := some o }, s.session⟩) := by
          rw [Study.ask, htable]
        rw [hask]
        refine ⟨.inr ⟨hsame, t, hsame ▸ hkept, rfl⟩, h.writing fun o' ho' => ?_⟩
        exact ⟨o, o.index.writer, ho, (Option.some.inj ho').symm⟩
  · exact (h.ask_anew ho (hkeeps.table_eq hcoherent)).imp_left .inl

theorem Since.add (h : Since field before commits s) (d : Document) :
    Since field before commits { s with shelf := s.shelf.add d } := by
  refine h.writing fun o' ho' => ?_
  cases ho : s.shelf.current with
  | none =>
      rw [Shelf.add, ho] at ho'
      cases ho.symm.trans ho'
  | some o =>
      obtain ⟨o₁, v, hshelf, writer, rfl⟩ | ⟨e, v, hshelf, -⟩ :=
        Shelf.add_cases ho (add_writing o d s.shelf.workspace)
      · rw [hshelf] at ho'
        exact ⟨o, writer, rfl, (Option.some.inj ho').symm⟩
      · rw [hshelf] at ho'
        exact ⟨o, o.index.writer, rfl, (Option.some.inj ho').symm⟩

theorem Since.commit (h : Since field before commits s) :
    Since field before (commits + 1) { s with shelf := s.shelf.commit } := by
  cases ho : s.shelf.current with
  | none =>
      have hshelf : s.shelf.commit = s.shelf := by rw [Shelf.commit, ho]
      rw [hshelf]
      exact ⟨h.about, by simp [ho], by simp [ho], by simp [ho]⟩
  | some o =>
      obtain ⟨o₁, v, hshelf, hgeneration, hviews⟩ | ⟨e, v, hshelf, -⟩ :=
        Shelf.commit_cases ho (commit_reads o s.shelf.workspace)
      · have hcurrent : s.shelf.commit.current = some o₁ := by rw [hshelf]
        refine ⟨h.about, fun o' ho' => ?_, fun o' ho' => ?_, fun o' ho' => ?_⟩
        all_goals obtain rfl := Option.some.inj (hcurrent.symm.trans ho')
        · exact coherent_of_views hviews
        · rw [hgeneration]
          exact Nat.succ_le_succ (h.generation o ho)
        · exact (h.session o ho).imp_right fun hkeeps => hkeeps.later hgeneration
      · have hcurrent : s.shelf.commit.current = some (afterFailure o) := by rw [hshelf]
        have hwriting : Since field before commits { s with shelf := s.shelf.commit } :=
          h.writing fun o' ho' => ⟨o, none, ho, Option.some.inj (ho'.symm.trans hcurrent)⟩
        exact ⟨h.about, hwriting.coherent,
          fun o' ho' => Nat.le_succ_of_le (hwriting.generation o' ho'), hwriting.session⟩

theorem since_openWith (s : Study) (c : Config) :
    Since s.session.field s.session 0 (s.next (.openWith c)) := by
  have hopen := openFolder_reads c s.shelf.leave.workspace
  have hcurrent : ∀ o, (s.shelf.openWith c).current = some o →
      o.index.generation = 0 ∧ o.index.views = ∅ := by
    intro o ho
    unfold Shelf.openWith at ho
    split at ho
    · next o₁ found v hrun =>
      obtain rfl := Option.some.inj ho
      exact hopen.of_ok hrun
    · cases ho
  exact ⟨rfl, fun o ho => coherent_of_views (hcurrent o ho).2,
    fun o ho => Nat.le_of_eq (hcurrent o ho).1, fun o ho => .inl rfl⟩

/-- A step that is not an opening. -/
theorem Since.next (h : Since field before commits s) {step : Step}
    (hstep : step.isOpening = false) :
    Since field before (commits + [step].countP Step.isCommit) (s.next step) := by
  cases step with
  | openWith c => cases hstep
  | add d => exact h.add d
  | commit => exact h.commit
  | ask =>
      show Since field before commits (s.next .ask)
      unfold Study.next
      dsimp only
      split
      · exact h
      · next o ho => exact (h.ask ho).2

theorem field_next (s : Study) (step : Step) : (s.next step).session.field = s.session.field := by
  cases step with
  | openWith c => rfl
  | add d => rfl
  | commit => rfl
  | ask =>
      unfold next
      dsimp only
      split
      · rfl
      · next o _ => exact s.session.field_table source o.index

theorem field_after (w : Workspace) (field : String) (steps : List Step) :
    (after w field steps).session.field = field := by
  induction steps using List.reverseRecOn with
  | nil => rfl
  | append_singleton steps step ih => rw [after_snoc, field_next, ih]

theorem since_opening (w : Workspace) (field : String) (steps : List Step) (c : Config)
    {later : List Step} (hlater : ∀ step ∈ later, step.isOpening = false) :
    Since field (after w field steps).session (later.countP Step.isCommit)
      (after w field (steps ++ .openWith c :: later)) := by
  induction later using List.reverseRecOn with
  | nil =>
      have hopen := since_openWith (after w field steps) c
      rw [field_after] at hopen
      rw [after_snoc]
      exact hopen
  | append_singleton later step ih =>
      have hbefore := ih fun x hx => hlater x (List.mem_append_left [step] hx)
      rw [List.countP_append, ← List.cons_append, ← List.append_assoc, after_snoc]
      exact hbefore.next (hlater step (by simp))

/-- **A table is that of the index, or older than its opening**: whatever was done before an index
was opened, the table that a session answers for it is the one that is built anew.  The exception is
a table that the session has kept since before the opening, of the generation that the index is in;
generations are counted anew from the opening, by the commits. -/
theorem table_since_opening (w : Workspace) (field : String) (steps : List Step) (c : Config)
    (later : List Step) (hlater : ∀ step ∈ later, step.isOpening = false) {o : OpenIndex}
    (ho : (after w field (steps ++ .openWith c :: later)).shelf.current = some o) :
    (((after w field (steps ++ .openWith c :: later)).ask o).1 = anew field o ∨
      (after w field (steps ++ .openWith c :: later)).session = (after w field steps).session ∧
        ∃ t, (after w field steps).session.kept = some (o.index.generation, t) ∧
          ((after w field (steps ++ .openWith c :: later)).ask o).1 = .ok t) ∧
      o.index.generation ≤ later.countP Step.isCommit := by
  have h := since_opening w field steps c hlater
  exact ⟨(h.ask ho).1, h.generation o ho⟩

/-! ### a table from before a document -/

/-- A table is built over all documents of the index. -/
theorem totalDocuments_of_anew {t : Table} (h : anew field o = .ok t) :
    t.totalDocuments = o.index.published.flatten.length := by
  have hrun : ExceptT.run (buildAll source field) o.index =
      (.ok t, (ExceptT.run (buildAll source field) o.index).2) := Prod.ext h rfl
  obtain ⟨total, i, htotal, hrun⟩ := Asking.run_bind_ok hrun
  obtain ⟨w, j, -, htable⟩ := Asking.run_bind_ok hrun
  obtain rfl := Except.ok.inj (congrArg Prod.fst htotal)
  obtain rfl := Except.ok.inj (congrArg Prod.fst htable)
  rfl

/-- The table of an index without documents. -/
def emptyTable (field : String) : Table := Statistics.Walk.table 0 field {}

/-- An index is opened, its session is asked for a table, and then a document is added. -/
def consulted : List Step := [.openWith (asking ["The"]), .ask, .add theCat, .commit]

theorem openWith_emptyDesk : ∃ v, Shelf.openWith { workspace := emptyDesk } (asking ["The"]) =
    { workspace := v, current := some (fresh indexPlace (asking ["The"])) } :=
  ⟨_, Shelf.openWith_of_ok (s := { workspace := emptyDesk })
    (isDesk_emptyDesk.openFolder (c := asking ["The"]) rfl rfl)⟩

theorem after_filled : Shelf.after emptyDesk filled =
    ((Shelf.openWith { workspace := emptyDesk } (asking ["The"])).add theCat).commit := rfl

/-- The session keeps the table without documents, and the index is as if it had not been asked. -/
theorem after_consulted : after emptyDesk "content" consulted =
    ⟨Shelf.after emptyDesk filled,
      { field := "content", kept := some (0, emptyTable "content") }⟩ := by
  have hafter : after emptyDesk "content" consulted =
      [.ask, .add theCat, .commit].foldl next
        ⟨Shelf.openWith { workspace := emptyDesk } (asking ["The"]), { field := "content" }⟩ := rfl
  obtain ⟨v, hopen⟩ := openWith_emptyDesk
  rw [hafter, after_filled, hopen]
  rfl

theorem exists_current_filled : ∃ o, (Shelf.after emptyDesk filled).current = some o := by
  obtain ⟨v, hopen⟩ := openWith_emptyDesk
  have hcurrent := congrArg Shelf.current hopen
  obtain ⟨o, ho⟩ := Shelf.exists_current_add hcurrent theCat
  rw [after_filled]
  exact Shelf.exists_current_commit ho

/-- A new session answers the table of the index with its document, though it was asked before. -/
theorem table_since_opening_consulted : ∃ o,
    (after emptyDesk "content" consulted).shelf.current = some o ∧
      ((after emptyDesk "content" consulted).ask o).1 = anew "content" o := by
  obtain ⟨o, ho⟩ := exists_current_filled
  have hcurrent : (after emptyDesk "content" consulted).shelf.current = some o := by
    rw [after_consulted]
    exact ho
  obtain ⟨hanew | ⟨-, t, hkept, -⟩, -⟩ := table_since_opening emptyDesk "content" []
    (asking ["The"]) [.ask, .add theCat, .commit] (by decide) hcurrent
  · exact ⟨o, hcurrent, hanew⟩
  · cases hkept

/-- Settings without stop words find the index with its document and the stop words it was filled
with. -/
theorem reused_filled : ∃ segments v,
    isPresent (Shelf.after emptyDesk filled).leave.workspace.files "index" = true ∧
      ExceptT.run (openFolder (asking [])) (Shelf.after emptyDesk filled).leave.workspace =
        (.ok (reused indexPlace (asking []) segments (Analyzer.ofConfig (asking ["The"])),
          .existing), v) ∧
      segments.flatten = [Index.Entry.ofDocument (Analyzer.ofConfig (asking ["The"])) theCat] := by
  have hsound := (sound_after (fun _ => isDesk_emptyDesk.node?_eq_none) isDesk_emptyDesk.straight
    filled opensAt_filled).leave
  have hkeeps := hsound.keeps
  have hcommitted : (Shelf.after emptyDesk filled).leave.committed = _ := committed_filled
  rw [hcommitted] at hkeeps
  obtain _ | @⟨segments, a, -, hstores, hhold⟩ := hkeeps
  obtain rfl : a = Analyzer.ofConfig (asking ["The"]) :=
    (hhold.analyzer _ List.mem_cons_self).symm
  have hnode := (Tree.resolve_eq_ok_iff.mp hstores.folder).2.1.symm
  have hfolder := isDesk_emptyDesk.resolve_index hsound.around
  rw [hnode] at hfolder
  have hne : segments ≠ [] := (not_congr hhold.eq_nil_iff).mpr (by simp)
  have hmapped : (Shelf.after emptyDesk filled).leave.workspace.files.limits.unmapped = [] := by
    rw [Shelf.files_leave, Shelf.limits_after]
    rfl
  have hopen := reopen_there (c := asking []) hsound.around hstores hne hmapped (hfolder true)
    (Tree.makeFolders_name isName_index hfolder)
  rw [← openFolder_eq_reopen rfl] at hopen
  obtain ⟨r, v, hrun, rfl, -⟩ := hopen.exists_run
  refine ⟨segments, v, ?_, hrun, hhold.entries⟩
  exact isPresent_of_catalog hsound.around hstores.toHasCatalog (hfolder true)

/-- The index is found with its document when it is opened again. -/
theorem openFolder_filled :
    ∃ o v, ExceptT.run (openFolder (asking [])) (Shelf.after emptyDesk filled).leave.workspace =
        (.ok (o, .existing), v) ∧
      o.index.generation = 0 ∧ o.index.published.flatten.length = 1 := by
  obtain ⟨segments, v, -, hrun, hsegments⟩ := reused_filled
  exact ⟨_, v, hrun, rfl, congrArg List.length hsegments⟩

/-- The session answers the table from before the document for the index that holds it. -/
theorem not_table_anew : ∃ o t,
    (after emptyDesk "content" (consulted ++ [.openWith (asking [])])).shelf.current = some o ∧
      ((after emptyDesk "content" (consulted ++ [.openWith (asking [])])).ask o).1 = .ok t ∧
      t.totalDocuments = 0 ∧ o.index.published.flatten.length = 1 ∧ anew "content" o ≠ .ok t := by
  obtain ⟨o, v, hrun, hgeneration, hlength⟩ := openFolder_filled
  have hopen := Shelf.openWith_of_ok hrun
  have hafter : after emptyDesk "content" (consulted ++ [.openWith (asking [])]) =
      ⟨(Shelf.after emptyDesk filled).openWith (asking []),
        { field := "content", kept := some (0, emptyTable "content") }⟩ := by
    rw [after_snoc, after_consulted]
    rfl
  rw [hafter, hopen]
  refine ⟨o, emptyTable "content", rfl, ?_, rfl, hlength, fun hanew => ?_⟩
  · have hfresh : ({ field := "content", kept := some (0, emptyTable "content") } : Session).fresh?
        (source.generation o.index).1 = some (emptyTable "content") :=
      Session.fresh?_eq_some.mpr (by rw [← hgeneration]; rfl)
    rw [ask, Session.table_of_fresh hfresh]
  · have htotal := totalDocuments_of_anew hanew
    rw [hlength] at htotal
    cases htotal

end Study

end Concordance.OpenIndex
