import Concordance.Indexing.Feed
import Concordance.Proofs.Corpus.Listing
import Concordance.Proofs.Growth.Files
import Concordance.Proofs.Index.Writing

/-!
# Concordance.Proofs.Indexing.Feed

What feeding a corpus into an index without documents leaves in its folder: all documents of the
corpus once the commit has published them, and none before.

* `feedAll_waits` — until the commit nothing is written;
* `commit_contains` — a commit writes all that was added, or nothing;
* `feedCorpus_fills` — the run of all three.
-/

namespace Concordance

open Files
open Files.Tree (Around LeadsTo IsElsewhere Spares)

/-! ## growth files -/

namespace Growth

variable {place : Place} {t u : Tree} {folder : String}
  (hfiles : ∀ document, IsElsewhere t place (filePath folder document))

section Spares

include hfiles

theorem writeFiles_spares (hu : Around place t u) (first : Nat) (curves : List (List Point)) :
    Spares place u (writeFiles u folder first curves).1 := by
  induction curves generalizing u first with
  | nil => exact .refl place u
  | cons points curves ih =>
      have hwrite := hu.write_spares (hfiles first) (Tree.bytesOf (render points))
      rw [writeFiles_cons]
      split
      · next heq =>
        rw [heq] at hwrite
        exact hwrite
      next v heq =>
      rw [heq] at hwrite
      have hboth := hwrite.trans (ih (hu.spares hwrite) (first + 1))
      split
      all_goals
        next heq' =>
        rw [heq'] at hboth
        exact hboth

theorem save_spares (hu : Around place t u) (tracker : Tracker) :
    Spares place u (tracker.save u folder).1 := by
  have hmade := (Tree.makeFolders_adds u folder).spares place
  unfold Tracker.save
  split
  · next heq =>
    rw [heq] at hmade
    exact hmade
  · next v heq =>
    rw [heq] at hmade
    exact hmade.trans (writeFiles_spares hfiles (hu.spares hmade) 0 tracker.curves)

end Spares

theorem isAboutGrowth_of_writeFiles {first : Nat} {curves : List (List Point)} {e : Fault}
    (h : (writeFiles u folder first curves).2 = .error e) : e.isAboutGrowth = true := by
  induction curves generalizing u first with
  | nil => cases h
  | cons points curves ih =>
      rw [writeFiles_cons] at h
      split at h
      · cases h
        rfl
      split at h
      · next heq =>
        cases h
        exact ih (congrArg Prod.snd heq)
      · cases h

theorem isAboutGrowth_of_save {tracker : Tracker} {e : Fault}
    (h : (tracker.save u folder).2 = .error e) : e.isAboutGrowth = true := by
  unfold Tracker.save at h
  split at h
  · cases h
    rfl
  · exact isAboutGrowth_of_writeFiles h

end Growth

/-! ## the index -/

namespace OpenIndex

variable {place : Place} {t : Tree} {c : Config}

/-- An index without published documents, with a writer or without one. -/
def filling (place : Place) (c : Config) (writer : Option Index.Writer) : OpenIndex :=
  { fresh place c with index := { (fresh place c).index with writer := writer } }

/-- The writer after documents, which is opened for the first one. -/
def queued (entries : List Index.Entry) : Option Index.Writer :=
  if entries.isEmpty then none else some { base := [], queue := entries.reverse }

/-- A document is queued behind those before it. -/
theorem add_queues {w : Workspace} (hu : Around place t w.files)
    (hcatalog : HasCatalog place w.files []) (entries : List Index.Entry) (d : Document) :
    Ensures ((filling place c (queued entries)).add d) w
      (fun o v =>
        o = filling place c (queued (entries ++ [Index.Entry.ofDocument (Analyzer.ofConfig c) d])) ∧
          v.files = w.files)
      (fun e v => v.files = w.files ∧ e.isAboutGrowth = false) :=
  (ensures_add (o := filling place c (queued entries)) rfl rfl
    (fun _ hbase => hcatalog.eq_of_readCatalog hu hbase) d).imp_error fun _ _ h => h.1

/-- What was published behind nothing is held. -/
theorem holding_of_behind {u : Tree} (hu : Around place t u) {entries : List Index.Entry}
    {a : Analyzer} (hs : Stores place u (behind [] entries) a) : Holding place t entries u := by
  cases entries with
  | nil => exact ⟨hu, .vacant hs.isVacant⟩
  | cons first rest => exact ⟨hu, .stored (List.cons_ne_nil first rest) hs⟩

/-- A commit writes all documents that were added.  One that fails has written none of them, or all
of them, which it could not read back then. -/
theorem commit_contains (hleads : LeadsTo t place (absolute place)) {w : Workspace}
    (hu : Around place t w.files) (hs : Stores place w.files [] (Analyzer.ofConfig c))
    (entries : List Index.Entry) :
    Ensures ((filling place c (queued entries)).commit) w
      (fun _ v => Holding place t entries v.files)
      (fun e v => e = .index .unusable ∧
        (Holding place t [] v.files ∨ Holding place t entries v.files)) := by
  have hwriter : (filling place c (queued entries)).index.writer = writerBehind [] entries := rfl
  have hcommit := ensures_commit (o := filling place c (queued entries)) hleads hu hs rfl hwriter
  refine hcommit.mono (fun o v hv => holding_of_behind hv.1 hv.2.1) fun e v hv => ⟨hv.1, ?_⟩
  refine hv.2.2.imp (fun heq => ?_) fun hv => holding_of_behind hv.1 hv.2
  rw [heq]
  exact ⟨hu, .vacant hs.isVacant⟩

end OpenIndex

/-! ## feeding -/

namespace Indexing

open OpenIndex (Stores Holding filling queued absolute fresh)

variable {σ α β : Type}

section Call

variable {f : σ → Except Fault α × σ} {g : α → Feeding σ β} {p : Progress σ}
  {last : β → Progress σ → Prop} {bad : Fault → Progress σ → Prop}

theorem ensures_call {good : α → Progress σ → Prop}
    (hgood : ∀ a s, f p.sink = (.ok a, s) → good a { p with sink := s })
    (hbad : ∀ e s, f p.sink = (.error e, s) → bad e { p with sink := s }) :
    Ensures (call f) p good bad := by
  have hrun : ExceptT.run (call f) p = ((f p.sink).1, { p with sink := (f p.sink).2 }) := rfl
  rw [Ensures, hrun]
  rcases hf : f p.sink with ⟨e | a, s⟩
  · exact hbad e s hf
  · exact hgood a s hf

theorem ensures_call_bind
    (hgood : ∀ a s, f p.sink = (.ok a, s) → Ensures (g a) { p with sink := s } last bad)
    (hbad : ∀ e s, f p.sink = (.error e, s) → bad e { p with sink := s }) :
    Ensures (call f >>= g) p last bad := by
  have hcall : Ensures (call f) p (fun a q => Ensures (g a) q last bad) bad :=
    ensures_call hgood hbad
  exact hcall.bind fun _ _ h => h

end Call

/-- A sink that is an index does what the job does. -/
theorem ensures_step {failed : OpenIndex → OpenIndex} {job : OpenIndex → Job OpenIndex}
    {p : Progress Sink.Indexed} {good : OpenIndex → Workspace → Prop}
    {bad : Fault → Workspace → Prop} (h : Ensures (job p.sink.index) p.sink.workspace good bad) :
    Ensures (call (Sink.step failed job)) p (fun _ q => good q.sink.index q.sink.workspace)
      (fun e q => bad e q.sink.workspace) := by
  refine ensures_call (fun _ s hs => ?_) fun e s hs => ?_
  all_goals
    obtain ⟨o, v, hstep, hgood⟩ | ⟨e, v, hstep, hbad⟩ := OpenIndex.step_cases failed job h
    all_goals
      rw [hstep] at hs
      cases hs
  · exact hgood
  · exact hbad

variable {place : Place} {t : Tree} {c : Config}

theorem not_isAboutGrowth_of_addTokens {tracker : Growth.Tracker} {document : Nat}
    {terms : List String} {e : Fault} (h : tracker.addTokens document terms = .error e) :
    e.isAboutGrowth = false := by
  have hupdate : ∀ {α : Type} {tracker : Growth.Tracker} {f : Growth.Curve → α × Growth.Curve}
      {e : Fault}, tracker.update document f = .error e → e.isAboutGrowth = false := by
    intro α tracker f e h
    unfold Growth.Tracker.update at h
    split at h <;> cases h
    rfl
  induction terms generalizing tracker with
  | nil => cases h
  | cons term terms ih =>
      unfold Growth.Tracker.addTokens at h
      split at h
      · next htoken =>
        cases h
        unfold Growth.Tracker.addToken at htoken
        split at htoken
        · next hterm =>
          cases htoken
          exact hupdate hterm
        · exact hupdate htoken
      · exact ih h

theorem growthTerms_sink (field : String) (d : Document) (p : Progress Sink.Indexed) :
    Ensures (growthTerms Sink.ofIndex field d) p (fun _ q => q.sink = p.sink)
      (fun e q => q.sink = p.sink ∧ e.isAboutGrowth = false) := by
  unfold growthTerms
  split
  · next text _ =>
    refine ensures_call (fun terms s h => ?_) fun e s h => ?_
    · obtain ⟨-, rfl⟩ := Prod.mk.inj h
      rfl
    · obtain ⟨he, rfl⟩ := Prod.mk.inj h
      refine ⟨rfl, ?_⟩
      unfold Index.tokenize Index.textField at he
      split at he
      · next heq =>
        cases he
        split at heq <;> cases heq
        rfl
      · cases he
  · exact ensures_pure rfl

/-- Tracking the growth of a document asks the sink for its terms only. -/
theorem track_sink (field : String) (d : Document) (tracker : Growth.Tracker)
    (p : Progress Sink.Indexed) :
    Ensures (track Sink.ofIndex field d tracker) p (fun _ q => q.sink = p.sink)
      (fun e q => q.sink = p.sink ∧ e.isAboutGrowth = false) := by
  refine ensures_modify_bind ((growthTerms_sink field d _).bind fun terms q hq => ?_)
  split
  · next heq => exact ensures_throw ⟨hq, not_isAboutGrowth_of_addTokens heq⟩
  · exact hq

/-- The documents of a corpus as an index with settings holds them. -/
def entriesOf (c : Config) (documents : List Document) : List Index.Entry :=
  documents.map (Index.Entry.ofDocument (Analyzer.ofConfig c))

/-- The sink of a feeding that has not committed: documents wait, and the files are as they were. -/
structure Waiting (place : Place) (c : Config) (files : Tree) (entries : List Index.Entry)
    (s : Sink.Indexed) : Prop where
  index : s.index = filling place c (queued entries)
  files : s.workspace.files = files

section Feed

variable {files : Tree} (hu : Around place t files) (hcatalog : OpenIndex.HasCatalog place files [])
include hu hcatalog

theorem add_waits {entries : List Index.Entry} {p : Progress Sink.Indexed}
    (hp : Waiting place c files entries p.sink) (d : Document) :
    Ensures (call (Sink.ofIndex.add d)) p
      (fun _ q => Waiting place c files
        (entries ++ [Index.Entry.ofDocument (Analyzer.ofConfig c) d]) q.sink)
      (fun e q => q.sink.workspace.files = files ∧ e.isAboutGrowth = false) := by
  obtain ⟨hindex, rfl⟩ := hp
  have hqueue := OpenIndex.add_queues (c := c) hu hcatalog entries d
  rw [← hindex] at hqueue
  have hstep : Ensures (call (Sink.step id (·.add d))) p _ _ := ensures_step hqueue
  exact hstep.mono (fun _ _ hq => ⟨hq.1, hq.2⟩) fun _ _ he => he

theorem feed_waits {entries : List Index.Entry} {p : Progress Sink.Indexed}
    (hp : Waiting place c files entries p.sink) (field : String) (position : Nat) (d : Document) :
    Ensures (feed Sink.ofIndex field position d) p
      (fun _ q => Waiting place c files
        (entries ++ [Index.Entry.ofDocument (Analyzer.ofConfig c) d]) q.sink)
      (fun e q => q.sink.workspace.files = files ∧ e.isAboutGrowth = false) := by
  unfold feed
  split
  · exact ensures_throw ⟨hp.files, rfl⟩
  refine ensures_get_bind ?_
  split
  · exact (add_waits hu hcatalog hp d).bind fun _ _ hq => hq
  · next tracker _ =>
    refine ((track_sink field d tracker p).imp_error fun e q hq => ?_).bind fun _ q hq => ?_
    · rw [hq.1]
      exact ⟨hp.files, hq.2⟩
    · rw [← hq] at hp
      exact (add_waits hu hcatalog hp d).bind fun _ _ hq => hq

/-- Until the commit all documents wait and nothing is written. -/
theorem feedAll_waits {entries : List Index.Entry} {p : Progress Sink.Indexed}
    (hp : Waiting place c files entries p.sink) (field : String) (position : Nat)
    (documents : List Document) :
    Ensures (feedAll Sink.ofIndex field position documents) p
      (fun _ q => Waiting place c files (entries ++ entriesOf c documents) q.sink)
      (fun e q => q.sink.workspace.files = files ∧ e.isAboutGrowth = false) := by
  induction documents generalizing entries p position with
  | nil =>
      refine ensures_pure ?_
      rwa [entriesOf, List.map_nil, List.append_nil]
  | cons d rest ih =>
      refine (feed_waits hu hcatalog hp field position d).bind fun _ q hq => ?_
      have hrest := ih hq (position + 1)
      rwa [List.append_assoc] at hrest

end Feed

/-- Feeding that fails has left no documents, or all of them where the commit could not read them
back. -/
theorem feedAndCommit_fills (hleads : LeadsTo t place (absolute place))
    {p : Progress Sink.Indexed} (hu : Around place t p.sink.workspace.files)
    (hs : Stores place p.sink.workspace.files [] (Analyzer.ofConfig c))
    (hindex : p.sink.index = fresh place c) (field : String) (documents : List Document) :
    Ensures (feedAndCommit Sink.ofIndex field documents) p
      (fun _ q => Holding place t (entriesOf c documents) q.sink.workspace.files)
      (fun e q => e.isAboutGrowth = false ∧ (Holding place t [] q.sink.workspace.files ∨
        e = .index .unusable ∧ Holding place t (entriesOf c documents) q.sink.workspace.files)) := by
  have hwaiting : Waiting place c p.sink.workspace.files [] p.sink := ⟨hindex, rfl⟩
  -- a failure before the commit finds the files as they were, and so without documents
  have hfeed := feedAll_waits hu hs.toHasCatalog hwaiting field 0 documents
  refine (hfeed.imp_error fun e q hq => ?_).bind fun _ q hq => ?_
  · rw [hq.1]
    exact ⟨hq.2, .inl ⟨hu, .vacant hs.isVacant⟩⟩
  · rw [List.nil_append] at hq
    rw [← hq.files] at hu hs
    have hcommit := OpenIndex.commit_contains hleads hu hs (entriesOf c documents)
    rw [← hq.index] at hcommit
    have hstep : Ensures (call (Sink.step OpenIndex.afterFailure (·.commit))) q _ _ :=
      ensures_step hcommit
    refine (hstep.imp_error fun e r hr => ?_).bind fun _ r hr => hr
    obtain ⟨rfl, hr⟩ := hr
    exact ⟨rfl, hr.imp_right fun hr => ⟨rfl, hr⟩⟩

/-- What feeding a corpus has left where it ends well: all documents that were loaded. -/
def HasFed (place : Place) (t : Tree) (c : Config) (corpus : String) (before after : Tree) : Prop :=
  ∃ documents, Corpus.load before corpus = .ok documents ∧
    Holding place t (entriesOf c documents) after

/-- What feeding a corpus has left where it fails: all documents if only their growth could not be
saved, or if they could not be read back, and else none. -/
def HasFailed (place : Place) (t : Tree) (c : Config) (corpus : String) (before : Tree) (e : Fault)
    (after : Tree) : Prop :=
  (e.isAboutGrowth = true ∧ HasFed place t c corpus before after) ∨
    (e.isAboutGrowth = false ∧ (Holding place t [] after ∨
      e = .index .unusable ∧ HasFed place t c corpus before after))

theorem save_fills {documents : List Document} {folder : String}
    (hgrowth : ∀ document, IsElsewhere t place (Growth.filePath folder document))
    (tracker : Growth.Tracker) {p : Progress Sink.Indexed}
    (hp : Holding place t (entriesOf c documents) p.sink.workspace.files) :
    Ensures (save indexDesk folder tracker) p
      (fun _ q => Holding place t (entriesOf c documents) q.sink.workspace.files)
      (fun e q => e.isAboutGrowth = true ∧
        Holding place t (entriesOf c documents) q.sink.workspace.files) := by
  have hfilled : Holding place t (entriesOf c documents)
      (tracker.save p.sink.workspace.files folder).1 :=
    hp.spares (Growth.save_spares hgrowth hp.around tracker)
  refine ensures_call (fun _ s h => ?_) fun e s h => ?_
  · obtain ⟨-, rfl⟩ := Prod.mk.inj h
    exact hfilled
  · obtain ⟨he, rfl⟩ := Prod.mk.inj h
    exact ⟨Growth.isAboutGrowth_of_save he, hfilled⟩

theorem feedCorpus_fills (hleads : LeadsTo t place (absolute place))
    (hgrowth : ∀ folder, c.growthFolder = some folder →
      ∀ document, IsElsewhere t place (Growth.filePath folder document))
    {p : Progress Sink.Indexed} (hu : Around place t p.sink.workspace.files)
    (hs : Stores place p.sink.workspace.files [] (Analyzer.ofConfig c))
    (hindex : p.sink.index = fresh place c) (corpus : String) :
    Ensures (feedCorpus Sink.ofIndex indexDesk corpus c) p
      (fun _ q => HasFed place t c corpus p.sink.workspace.files q.sink.workspace.files)
      (fun e q => HasFailed place t c corpus p.sink.workspace.files e q.sink.workspace.files) := by
  refine ensures_call_bind (fun documents s h => ?_) fun e s h => ?_
  · obtain ⟨hload, rfl⟩ := Prod.mk.inj h
    refine ensures_modify_bind ?_
    have hfeed := feedAndCommit_fills (p := ⟨p.sink, if c.recordsGrowth then some {} else none,
      p.summary⟩) hleads hu hs hindex c.field documents
    refine (hfeed.imp_error fun e q hq => .inr ⟨hq.1, hq.2.imp_right fun hq =>
      ⟨hq.1, documents, hload, hq.2⟩⟩).bind fun summary q hq => ?_
    refine ensures_get_bind ?_
    split
    · next tracker folder _ hfolder =>
      refine ((save_fills (hgrowth folder hfolder) tracker hq).imp_error
        fun e r hr => .inl ⟨hr.1, documents, hload, hr.2⟩).bind fun _ r hr => ?_
      exact ensures_pure ⟨documents, hload, hr⟩
    · exact ensures_pure ⟨documents, hload, hq⟩
  · obtain ⟨hload, rfl⟩ := Prod.mk.inj h
    exact .inr ⟨Corpus.not_isAboutGrowth_of_load hload, .inl ⟨hu, .vacant hs.isVacant⟩⟩

end Indexing

end Concordance
