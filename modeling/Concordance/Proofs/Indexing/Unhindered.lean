import Concordance.Proofs.Indexing.Feed

/-!
# Concordance.Proofs.Indexing.Unhindered

Feeding a corpus into an index without documents where nothing is refused.  It succeeds, and it
changes nothing but the catalog.

* `Writable` — when a writer is opened on an index and its commit is published;
* `feedAll_succeeds`, `feedAndCommit_succeeds`, `feedCorpus_succeeds` — documents, their commit, and
  all of a corpus.
-/

namespace Concordance.Indexing

open Files
open Files.Tree (Around LeadsTo)
open OpenIndex (HasCatalog Stores Unwritable filling queued absolute fresh catalogName ensures_add
  ensures_commit commit_other)

variable {place : Place} {t : Tree} {c : Config}

/-- Nothing keeps an index from being written: no writer is open, its memory is right, and the files
are without limits. -/
structure Writable (place : Place) (c : Config) (w : Workspace) : Prop where
  unlocked : place ∉ w.locks
  memory : Index.checkMemory c.writerMemory = .ok ()
  limits : w.files.limits = {}

theorem Writable.not_unwritable {w : Workspace} (h : Writable place c w)
    (hu : Around place t w.files) (hcatalog : HasCatalog place w.files []) {e : Fault}
    {writer : Option Index.Writer} : ¬Unwritable place (filling place c writer).index w e := by
  rintro (hlocked | hmemory | hread)
  · exact h.unlocked hlocked
  · cases h.memory.symm.trans hmemory
  · cases (hcatalog.readCatalog_nil hu).symm.trans hread

/-- A call of the sink leaves the tracker alone. -/
theorem call_tracker {σ α : Type} (f : σ → Except Fault α × σ) (p : Progress σ) :
    Ensures (call f) p (fun _ q => q.tracker = p.tracker) (fun _ q => q.tracker = p.tracker) :=
  ensures_call (fun _ _ _ => rfl) fun _ _ _ => rfl

section Feed

variable {files : Tree} (hu : Around place t files) (hcatalog : HasCatalog place files [])
include hu hcatalog

theorem add_succeeds {entries : List Index.Entry} {p : Progress Sink.Indexed}
    (hp : Waiting place c files entries p.sink)
    (hw : entries = [] → Writable place c p.sink.workspace) (d : Document) :
    Ensures (call (Sink.ofIndex.add d)) p (fun _ q => q.tracker = p.tracker)
      (fun _ _ => False) := by
  obtain ⟨hindex, rfl⟩ := hp
  have hadd := ensures_add (o := filling place c (queued entries)) rfl rfl
    (fun _ hbase => hcatalog.eq_of_readCatalog hu hbase) d
  rw [← hindex] at hadd
  have hstep : Ensures (call (Sink.step id (·.add d))) p _ _ := ensures_step hadd
  refine (hstep.and (call_tracker _ p)).mono (fun _ _ hq => hq.2) fun e q he => ?_
  rw [hindex] at he
  exact (hw he.1.2.1).not_unwritable hu hcatalog he.1.2.2

/-- A document at its position is taken where its growth is not tracked. -/
theorem feed_succeeds {entries : List Index.Entry} {p : Progress Sink.Indexed}
    (hp : Waiting place c files entries p.sink) (htracker : p.tracker = none)
    (hw : entries = [] → Writable place c p.sink.workspace) (field : String) (d : Document) :
    Ensures (feed Sink.ofIndex field d.ordinal d) p (fun _ q => q.tracker = none)
      (fun _ _ => False) := by
  unfold feed
  rw [if_neg (not_not.mpr rfl)]
  refine ensures_get_bind ?_
  rw [htracker]
  refine (add_succeeds hu hcatalog hp hw d).bind fun _ q hq => ?_
  exact hq.trans htracker

/-- Only the first document can be refused, and where nothing is refused it is not. -/
theorem feedAll_succeeds {entries : List Index.Entry} {p : Progress Sink.Indexed}
    (hp : Waiting place c files entries p.sink) (htracker : p.tracker = none)
    (hw : entries = [] → Writable place c p.sink.workspace) (field : String) {position : Nat}
    {documents : List Document}
    (hnumbered : documents.map (·.ordinal) = List.range' position documents.length) :
    Ensures (feedAll Sink.ofIndex field position documents) p (fun _ q => q.tracker = none)
      (fun _ _ => False) := by
  induction documents generalizing entries p position with
  | nil => exact ensures_pure htracker
  | cons d rest ih =>
      obtain ⟨rfl, hrest⟩ := List.cons.inj hnumbered
      have hfirst := (feed_waits hu hcatalog hp field d.ordinal d).and
        (feed_succeeds hu hcatalog hp htracker hw field d)
      refine (hfirst.imp_error fun _ _ he => he.2).bind fun _ q hq => ?_
      exact ih hq.1 hq.2 (by simp) hrest

end Feed

section Commit

variable (hleads : LeadsTo t place (absolute place)) {p : Progress Sink.Indexed}
  (hu : Around place t p.sink.workspace.files)
  (hs : Stores place p.sink.workspace.files [] (Analyzer.ofConfig c))
  (hindex : p.sink.index = fresh place c) (hw : Writable place c p.sink.workspace)
include hleads hu hs hindex hw

/-- Documents that are numbered in order are committed. -/
theorem feedAndCommit_succeeds (htracker : p.tracker = none) (field : String)
    {documents : List Document}
    (hnumbered : documents.map (·.ordinal) = List.range documents.length) :
    Ensures (feedAndCommit Sink.ofIndex field documents) p
      (fun _ q => q.tracker = none ∧ ∀ x, x ≠ place ++ [catalogName] →
        q.sink.workspace.files.node? x = p.sink.workspace.files.node? x)
      (fun _ _ => False) := by
  have hwaiting : Waiting place c p.sink.workspace.files [] p.sink := ⟨hindex, rfl⟩
  rw [List.range_eq_range'] at hnumbered
  have hfeed := (feedAll_waits hu hs.toHasCatalog hwaiting field 0 documents).and
    (feedAll_succeeds hu hs.toHasCatalog hwaiting htracker (fun _ => hw) field hnumbered)
  refine (hfeed.imp_error fun _ _ he => he.2).bind fun _ q hq => ?_
  obtain ⟨hq, hnone⟩ := hq
  have hlimits := hw.limits
  rw [List.nil_append] at hq
  rw [← hq.files] at hu hs hlimits
  have hcommit := (ensures_commit (o := filling place c (queued (entriesOf c documents))) hleads hu
    hs rfl rfl).and (commit_other hleads hu rfl)
  rw [← hq.index] at hcommit
  have hstep : Ensures (call (Sink.step OpenIndex.afterFailure (·.commit))) q _ _ :=
    ensures_step hcommit
  refine ((hstep.and (call_tracker _ q)).imp_error fun e r hr => hr.1.1.2.1 hlimits).bind
    fun _ r hr => ensures_get_bind (ensures_pure ⟨hr.2.trans hnone, ?_⟩)
  rw [← hq.files]
  exact hr.1.2

/-- All of a corpus is fed where its growth is not recorded. -/
theorem feedCorpus_succeeds (hgrowth : c.recordsGrowth = false) {corpus : String}
    {documents : List Document}
    (hload : Corpus.load p.sink.workspace.files corpus = .ok documents) :
    Ensures (feedCorpus Sink.ofIndex indexDesk corpus c) p
      (fun _ q => ∀ x, x ≠ place ++ [catalogName] →
        q.sink.workspace.files.node? x = p.sink.workspace.files.node? x)
      (fun _ _ => False) := by
  refine ensures_call_bind (fun loaded s h => ?_) fun e s h => ?_
  all_goals
    obtain ⟨hanswer, rfl⟩ := Prod.mk.inj h
  · obtain rfl := Except.ok.inj (hload.symm.trans hanswer)
    refine ensures_modify_bind ?_
    rw [hgrowth]
    have hfeed := feedAndCommit_succeeds (p := ⟨p.sink, none, p.summary⟩) hleads hu hs hindex hw rfl
      c.field (Corpus.load_ordinal hload)
    refine hfeed.bind fun summary q hq => ensures_get_bind ?_
    rw [hq.1]
    exact ensures_pure hq.2
  · cases hload.symm.trans hanswer

end Commit

end Concordance.Indexing
