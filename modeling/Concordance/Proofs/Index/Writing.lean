import Concordance.Indexing.Sink
import Concordance.Proofs.Index.Store

/-!
# Concordance.Proofs.Index.Writing

Adding documents to an index in a folder, and committing them, behind the segments that are there.

* `ensures_add` — a document waits in the writer, and nothing is written;
* `ensures_commit` — what has waited is published behind the segments, all of it or nothing.
-/

namespace Concordance.OpenIndex

open Files
open Files.Tree (Around LeadsTo)

variable {place : Place} {t : Tree} {segments : List Index.Segment} {o : OpenIndex} {w : Workspace}

/-- An index with another writer, or without one. -/
def writing (o : OpenIndex) (writer : Option Index.Writer) : OpenIndex :=
  { o with index := { o.index with writer := writer } }

/-- The writer with documents that wait behind segments, which is opened for the first one. -/
def writerBehind (segments : List Index.Segment) (entries : List Index.Entry) :
    Option Index.Writer :=
  if entries.isEmpty then none else some { base := segments, queue := entries.reverse }

/-- Segments with documents behind them.  Without documents there is no new segment. -/
def behind (segments : List Index.Segment) (entries : List Index.Entry) : List Index.Segment :=
  if entries.isEmpty then segments else segments ++ [entries]

theorem flatten_behind (segments : List Index.Segment) (entries : List Index.Entry) :
    (behind segments entries).flatten = segments.flatten ++ entries := by
  cases entries with
  | nil => simp [behind]
  | cons first rest => simp [behind]

theorem nil_mem_behind_iff (segments : List Index.Segment) (entries : List Index.Entry) :
    [] ∈ behind segments entries ↔ [] ∈ segments := by
  cases entries with
  | nil => rfl
  | cons first rest => simp [behind]

/-! ## adding -/

/-- Why no writer is opened on a folder. -/
inductive Unwritable (place : Place) (i : Index) (w : Workspace) (e : Fault) : Prop
  | locked (h : place ∈ w.locks)
  | memory (h : Index.checkMemory i.writerMemory = .error e)
  | catalog (h : readCatalog w.files place = .error e)

/-- A writer is opened on the segments of the catalog, unless another one is open, the memory is not
right or the catalog is not read. -/
theorem ensures_openWriter {i : Index}
    (hread : ∀ base, readCatalog w.files place = .ok base → base = segments) :
    Ensures (openWriter i place) w
      (fun j v => j = { i with writer := some { base := segments } } ∧ v.files = w.files)
      (fun e v => (v.files = w.files ∧ e.isAboutGrowth = false) ∧ Unwritable place i w e) := by
  refine ensures_get_bind ?_
  split
  · next hlock => exact ensures_throw ⟨⟨rfl, rfl⟩, .locked (List.contains_iff_mem.mp hlock)⟩
  refine Job.ensures_ofExcept_bind (fun _ _ => ?_) fun e he => ⟨⟨rfl, ?_⟩, .memory he⟩
  · refine Job.ensures_inspect_bind (fun base hbase => ?_) fun e he =>
      ⟨⟨rfl, not_isAboutGrowth_of_readCatalog he⟩, .catalog he⟩
    obtain rfl := hread base hbase
    exact ensures_modify_bind (ensures_pure ⟨rfl, rfl⟩)
  · unfold Index.checkMemory at he
    split at he
    · cases he
      rfl
    · split at he <;> cases he
      rfl

/-- A document waits behind those before it, and nothing is written.  Only the first one can be
refused. -/
theorem ensures_add {entries : List Index.Entry} (hfolder : o.folder = some place)
    (hwriter : o.index.writer = writerBehind segments entries)
    (hread : ∀ base, readCatalog w.files place = .ok base → base = segments) (d : Document) :
    Ensures (o.add d) w
      (fun o' v =>
        o' = o.writing (writerBehind segments
          (entries ++ [Index.Entry.ofDocument o.index.analyzer d])) ∧ v.files = w.files)
      (fun e v => (v.files = w.files ∧ e.isAboutGrowth = false) ∧
        entries = [] ∧ Unwritable place o.index w e) := by
  cases entries with
  | nil =>
      have hnone : o.index.writer = none := hwriter
      unfold add
      rw [hfolder, hnone]
      refine ((ensures_openWriter hread).imp_error fun _ _ he => ⟨he.1, rfl, he.2⟩).bind
        fun i v hi => ensures_pure ?_
      obtain ⟨rfl, hfiles⟩ := hi
      refine ⟨?_, hfiles⟩
      simp [writing, writerBehind, Index.enqueue, hfolder]
  | cons first rest =>
      have hsome : o.index.writer =
          some { base := segments, queue := (first :: rest).reverse } := hwriter
      have hadd : o.index.add d = .ok (o.index.enqueue d) := by
        rw [Index.add, Index.withWriter, hsome]
      unfold add
      rw [hfolder, hsome]
      refine Job.ensures_ofExcept_bind (fun i hi => ensures_pure ?_) fun e he => ?_
      · obtain rfl := Except.ok.inj (hadd.symm.trans hi)
        simp [writing, writerBehind, Index.enqueue, hsome, hfolder]
      · cases hadd.symm.trans he

/-! ## committing -/

section Commit

variable (hleads : LeadsTo t place (absolute place)) (hu : Around place t w.files)
include hleads hu

/-- What has waited is published behind the segments, or nothing is written. -/
theorem ensures_commitWriter {a : Analyzer} (hs : Stores place w.files segments a) {i : Index}
    {entries : List Index.Entry} (hwriter : i.writer = writerBehind segments entries) :
    Ensures (commitWriter i place) w
      (fun _ v => Around place t v.files ∧ Stores place v.files (behind segments entries) a ∧
        v.files.limits = w.files.limits)
      (fun e v => v.files = w.files ∧ e = .index .unusable ∧ w.files.limits ≠ {}) := by
  unfold commitWriter
  rw [hwriter]
  cases entries with
  | nil => exact ensures_pure ⟨hu, hs, rfl⟩
  | cons first rest =>
      have hsegments : Index.Writer.segments
          { base := segments, queue := (first :: rest).reverse } =
            behind segments (first :: rest) := by
        simp [Index.Writer.segments, behind]
      obtain hwrite | ⟨u, hwrite, halters, hcatalog⟩ :=
        writeCatalog_cases hleads hu (behind segments (first :: rest))
      all_goals
        refine ensures_modify_bind (Job.ensures_alter (fun v _ h => ?_) fun v e h => ?_)
        all_goals
          rw [hsegments, hwrite] at h
          cases h
      · refine ⟨rfl, rfl, fun hlimits => ?_⟩
        obtain ⟨room, hcatalog⟩ := hs.catalog
        have hok := writeCatalog_of_unlimited hlimits hu hs.folder (by rw [hcatalog]; simp)
          (behind segments (first :: rest))
        cases congrArg Prod.snd (hwrite.symm.trans hok)
      · obtain ⟨room, hnode⟩ := hcatalog.catalog
        have hanalyzer : u.node? (place ++ [analyzerName]) =
            w.files.node? (place ++ [analyzerName]) :=
          halters.other _ (append_analyzerName_ne place)
        exact ⟨hu.alters halters hnode,
          ⟨hcatalog, hs.analyzer.imp fun _ => hanalyzer.trans, hs.length⟩, halters.limits⟩

/-- After a commit the segments are read as they were written, and no document waits.  A commit that
fails, which takes a limit, has published nothing, or it has published all but
cannot read it back. -/
theorem ensures_commit (hs : Stores place w.files segments o.index.analyzer)
    {entries : List Index.Entry} (hfolder : o.folder = some place)
    (hwriter : o.index.writer = writerBehind segments entries) :
    Ensures o.commit w
      (fun o' v => Around place t v.files ∧
        Stores place v.files (behind segments entries) o'.index.analyzer ∧
        o' = { o with index :=
          { o.index with stored := behind segments entries, writer := none }.reload })
      (fun e v => e = .index .unusable ∧ w.files.limits ≠ {} ∧ (v.files = w.files ∨
        Around place t v.files ∧
          Stores place v.files (behind segments entries) o.index.analyzer)) := by
  obtain ⟨i, folder⟩ := o
  obtain rfl : folder = some place := hfolder
  refine Ensures.bind ((ensures_commitWriter hleads hu hs hwriter).imp_error
    fun e v hv => ⟨hv.2.1, hv.2.2, .inl hv.1⟩) fun _ v hv => ?_
  obtain ⟨hv, hstores, hlimits⟩ := hv
  obtain hread | ⟨-, hunmapped, hread⟩ := hstores.toHasCatalog.readCatalog hv
  all_goals
    refine Job.ensures_inspect_bind (fun read hsegments => ensures_pure ?_) fun e he => ?_
  · obtain rfl := Except.ok.inj (hread.symm.trans hsegments)
    exact ⟨hv, hstores, rfl⟩
  · cases hread.symm.trans he
  · cases hread.symm.trans hsegments
  · refine ⟨Except.error.inj (he.symm.trans hread), fun hnone => ?_, .inr ⟨hv, hstores⟩⟩
    rw [hlimits, hnone] at hunmapped
    cases hunmapped

/-- Whatever a commit comes to, only the catalog is changed. -/
theorem commit_other (hfolder : o.folder = some place) :
    Ensures o.commit w
      (fun _ v => ∀ p, p ≠ place ++ [catalogName] → v.files.node? p = w.files.node? p)
      (fun _ v => ∀ p, p ≠ place ++ [catalogName] → v.files.node? p = w.files.node? p) := by
  have hwriter : ∀ i, Ensures (commitWriter i place) w
      (fun _ v => ∀ p, p ≠ place ++ [catalogName] → v.files.node? p = w.files.node? p)
      (fun _ v => ∀ p, p ≠ place ++ [catalogName] → v.files.node? p = w.files.node? p) := by
    intro i
    unfold commitWriter
    split
    · exact ensures_pure fun _ _ => rfl
    next writer _ =>
    obtain hwrite | ⟨u, hwrite, halters, -⟩ := writeCatalog_cases hleads hu writer.segments
    all_goals
      refine ensures_modify_bind (Job.ensures_alter (fun v _ h => ?_) fun v e h => ?_)
      all_goals
        rw [hwrite] at h
        cases h
    · exact fun _ _ => rfl
    · exact halters.other
  unfold commit
  rw [hfolder]
  refine (hwriter o.index).bind fun _ v hv => ?_
  exact Job.ensures_inspect_bind (fun _ _ => ensures_pure hv) fun _ _ => hv

end Commit

/-- No document that is added changes what is refused. -/
theorem add_limits (o : OpenIndex) (d : Document) (limits : Limits) :
    Job.Keeps (fun u => u.limits = limits) (o.add d) := by
  unfold add
  split
  · refine Job.Keeps.bind ?_ fun _ => Job.keeps_pure _
    refine Job.keeps_get.bind fun w => ?_
    split
    · exact (Job.keeps_throw _).bind fun _ => (Job.keeps_ofExcept _).bind fun _ =>
        (Job.keeps_inspect _).bind fun _ =>
          Job.Keeps.bind (Job.keeps_modify fun _ => rfl) fun _ => Job.keeps_pure _
    · exact (Job.keeps_ofExcept _).bind fun _ => (Job.keeps_inspect _).bind fun _ =>
        Job.Keeps.bind (Job.keeps_modify fun _ => rfl) fun _ => Job.keeps_pure _
  · exact (Job.keeps_ofExcept _).bind fun _ => Job.keeps_pure _

/-- No commit changes what is refused. -/
theorem commit_limits (o : OpenIndex) (limits : Limits) :
    Job.Keeps (fun u => u.limits = limits) o.commit := by
  unfold commit
  split
  · exact Job.keeps_pure _
  · refine Job.Keeps.bind ?_ fun _ => (Job.keeps_inspect _).bind fun _ => Job.keeps_pure _
    unfold commitWriter
    split
    · exact Job.keeps_pure _
    · exact Job.Keeps.bind (Job.keeps_modify fun _ => rfl) fun _ =>
        Job.keeps_alter fun u hu => (limits_writeCatalog _ _ u).trans hu

/-! ## leaving -/

theorem files_of_close (o : OpenIndex) (w : Workspace) :
    (ExceptT.run o.close w).2.files = w.files := by
  unfold close
  split <;> rfl

/-! ## as a sink -/

theorem workspace_step (failed : OpenIndex → OpenIndex) (job : OpenIndex → Job OpenIndex)
    (s : Sink.Indexed) :
    (Sink.step failed job s).2.workspace = (ExceptT.run (job s.index) s.workspace).2 := by
  unfold Sink.step
  rcases ExceptT.run (job s.index) s.workspace with ⟨_ | _, _⟩ <;> rfl

/-- A sink that is an index does what the job does; where that fails, the index is left as told. -/
theorem step_cases (failed : OpenIndex → OpenIndex) (job : OpenIndex → Job OpenIndex)
    {s : Sink.Indexed} {good : OpenIndex → Workspace → Prop} {bad : Fault → Workspace → Prop}
    (h : Ensures (job s.index) s.workspace good bad) :
    (∃ o v, Sink.step failed job s = (.ok (), ⟨v, o⟩) ∧ good o v) ∨
      ∃ e v, Sink.step failed job s = (.error e, ⟨v, failed s.index⟩) ∧ bad e v := by
  unfold Sink.step
  rcases hrun : (job s.index).run s.workspace with ⟨e | o, v⟩
  · exact .inr ⟨e, v, rfl, h.of_error hrun⟩
  · exact .inl ⟨o, v, rfl, h.of_ok hrun⟩

end Concordance.OpenIndex
