import Concordance.Proofs.Index.Staleness

/-!
# Concordance.Proofs.Index.Visits

Indexes that are opened, filled and read.  Reads leave views behind, and in all that may become of
an index these are views of its published segments, whatever happens to the files in the meantime.
Where an index is alone in its folder, the published segments hold what was committed.

* `Reached.coherent` — the views of an index;
* `Visit`, `Shelf.visited` — an index in a folder over time, reads included;
* `shows_visited` — what an index shows after any visits;
* `Committed.published` — the documents of an index in memory or in a folder.
-/

namespace Concordance

open Files
open Files.Tree (Around Straight)
open Statistics (Session)

/-! ## reads -/

namespace Index

/-- A read leaves an index as it was, but for views of its published segments. -/
theorem Coherent.read {i : Index} (hi : i.Coherent) (r : Read) (session : Session) :
    i.AfterReads (r.run ⟨i, session⟩).2.index := by
  have hsource := agree_source i i.generation
  cases r with
  | total => exact hi.afterReads
  | documentFrequency name term => exact hi.afterReads
  | collectionFrequency name term =>
      exact (hsource.collectionFrequency name term i [] hi.afterReads).2
  | bag document name => exact (hsource.bag document name i [] hi.afterReads).2
  | table =>
      show i.AfterReads (session.table source i).2
      cases hfresh : session.fresh? i.generation with
      | none => exact (Keeps.table_of_stale rfl hi hfresh).2.1
      | some t =>
          rw [Session.table_of_fresh (r := source) hfresh]
          exact hi.afterReads

end Index

namespace OpenIndex

/-- An index after a read, which a session may have asked for. -/
def reading (o : OpenIndex) (r : Index.Read) (session : Session) : OpenIndex :=
  { o with index := (r.run ⟨o.index, session⟩).2.index }

/-! ## whatever happens to the files -/

/-- What may become of an index that is opened and used.  The workspace may be another one at each
step. -/
inductive Reached : OpenIndex → Prop
  | inMemory (c : Config) : Reached (.inMemory c)
  | opened {o : OpenIndex} {found : Found} {c : Config} {w v : Workspace}
      (h : ExceptT.run (openFolder c) w = (.ok (o, found), v)) : Reached o
  | added {o o' : OpenIndex} {d : Document} {w v : Workspace} (ho : Reached o)
      (h : ExceptT.run (o.add d) w = (.ok o', v)) : Reached o'
  | committed {o o' : OpenIndex} {w v : Workspace} (ho : Reached o)
      (h : ExceptT.run o.commit w = (.ok o', v)) : Reached o'
  | failed {o : OpenIndex} (ho : Reached o) : Reached (afterFailure o)
  | read {o : OpenIndex} (ho : Reached o) (r : Index.Read) (session : Session) :
      Reached (o.reading r session)

/-- The views of an index are those of its published segments. -/
theorem Reached.coherent {o : OpenIndex} (ho : Reached o) : o.index.Coherent := by
  induction ho with
  | inMemory c => exact coherent_of_views rfl
  | @opened o found c w v h => exact coherent_of_views ((openFolder_reads c w).of_ok h).2
  | @added o o' d w v _ h ih =>
      obtain ⟨writer, rfl⟩ := (add_writing o d w).of_ok h
      exact ih
  | @committed o o' w v _ h ih => exact coherent_of_views ((commit_reads o w).of_ok h).2
  | failed _ ih => exact ih
  | read _ r session ih => exact (ih.read r session).coherent

/-! ## alone in a folder -/

/-- What is done with an index in a folder: a step, or a read. -/
inductive Visit
  | change (step : Step)
  | read (r : Index.Read) (session : Session)

namespace Shelf

/-- One visit.  Without an index that is open there is nothing to read. -/
def visit (s : Shelf) : Visit → Shelf
  | .change step => s.next step
  | .read r session => { s with current := s.current.map (·.reading r session) }

/-- The index after visits that begin with a workspace in which it is not open. -/
def visited (w : Workspace) (visits : List Visit) : Shelf :=
  visits.foldl visit { workspace := w }

theorem visited_snoc (w : Workspace) (visits : List Visit) (x : Visit) :
    visited w (visits ++ [x]) = (visited w visits).visit x :=
  List.foldl_append

end Shelf

variable {place : Place} {t : Tree} {s : Shelf} {o : OpenIndex}

/-- What is known of an index in a folder and its record: what is open was reached, and shows what
it has read of what was committed. -/
structure Shows (place : Place) (t : Tree) (s : Shelf) : Prop extends Sound place t s where
  reached : ∀ o, s.current = some o → o.Reached
  published : ∀ o, s.current = some o →
    o.index.published.flatten = entriesOf o.index.analyzer s.shown

namespace Shows

/-- Without an index that is open there is nothing to show. -/
theorem of_closed (h : Sound place t s) (hclosed : s.current = none) : Shows place t s where
  toSound := h
  reached o ho := by simp [hclosed] at ho
  published o ho := by simp [hclosed] at ho

theorem openWith (h : Shows place t s) (hplace : Straight t place) {c : Config}
    (hc : OpensAt t place c) : Shows place t (s.openWith c) := by
  have hsound := h.toSound.openWith hplace hc.path hc.length
  rcases hrun : ExceptT.run (openFolder c) s.leave.workspace with ⟨e | ⟨o, found⟩, v⟩
  · refine of_closed hsound ?_
    rw [Shelf.openWith, hrun]
  · have hopened := ((openFolder_opens hplace hc.path hc.length h.leave.around
      h.leave.keeps).of_ok hrun).2.1
    have hshelf := Shelf.openWith_of_ok hrun
    rw [hshelf] at hsound ⊢
    refine ⟨hsound, fun o' ho' => ?_, fun o' ho' => ?_⟩
    all_goals obtain rfl := Option.some.inj ho'
    · exact .opened hrun
    · exact hopened.published

theorem add (h : Shows place t s) (d : Document) : Shows place t (s.add d) := by
  cases hcurrent : s.current with
  | none =>
      rw [Shelf.add, hcurrent]
      exact h
  | some o =>
      have hsound := h.toSound.add d
      obtain ⟨o', v, hshelf, ⟨writer, rfl⟩, hrun⟩ | ⟨e, v, hshelf, -⟩ :=
        Shelf.add_cases hcurrent (add_writing o d s.workspace).with_run
      · rw [hshelf] at hsound ⊢
        refine ⟨hsound, fun o' ho' => ?_, fun o' ho' => ?_⟩
        all_goals obtain rfl := Option.some.inj ho'
        · exact .added (h.reached o hcurrent) hrun
        · exact h.published o hcurrent
      · rw [hshelf] at hsound ⊢
        exact ⟨hsound, fun o' ho' => h.reached o' (hcurrent.trans ho'),
          fun o' ho' => h.published o' (hcurrent.trans ho')⟩

/-- What has waited is shown after a commit.  A commit that fails changes nothing
of what is shown. -/
theorem commit (h : Shows place t s) (hplace : Straight t place) : Shows place t s.commit := by
  cases hcurrent : s.current with
  | none =>
      rw [Shelf.commit, hcurrent]
      exact h
  | some o =>
      have hsound := h.toSound.commit hplace
      obtain ⟨segments, hworks⟩ := h.current o hcurrent
      have hcommit := ensures_commit hplace.names.toLeadsTo h.around hworks.stores hworks.folder
        hworks.writer
      obtain ⟨o', v, hshelf, ⟨-, -, ho⟩, hrun⟩ | ⟨e, v, hshelf, -⟩ :=
        Shelf.commit_cases hcurrent hcommit.with_run
      · rw [hshelf] at hsound ⊢
        refine ⟨hsound, fun o'' ho'' => ?_, fun o'' ho'' => ?_⟩
        all_goals obtain rfl := Option.some.inj ho''
        · exact .committed (h.reached o hcurrent) hrun
        · rw [ho]
          exact (hworks.hold.behind hworks.waiting).entries
      · rw [hshelf] at hsound ⊢
        refine ⟨hsound, fun o'' ho'' => ?_, fun o'' ho'' => ?_⟩
        all_goals obtain rfl := Option.some.inj ho''
        · exact .failed (h.reached o hcurrent)
        · exact h.published o hcurrent

/-- A read leaves everything as it was but the views. -/
theorem read (h : Shows place t s) (r : Index.Read) (session : Session) :
    Shows place t (s.visit (.read r session)) := by
  cases hcurrent : s.current with
  | none =>
      have hsame : s.visit (.read r session) = s := by
        rw [Shelf.visit, hcurrent, Option.map_none, ← hcurrent]
      rwa [hsame]
  | some o =>
      have hreached := h.reached o hcurrent
      have hpublished := h.published o hcurrent
      obtain ⟨segments, hworks⟩ := h.current o hcurrent
      obtain ⟨views, hviews⟩ := (hreached.coherent.read r session).same
      have hreading : o.reading r session =
          { o with index := { o.index with views := views } } := by
        rw [reading, hviews]
      have hvisit : s.visit (.read r session) =
          ⟨s.workspace, some (o.reading r session), s.waiting, s.committed, s.shown⟩ := by
        rw [Shelf.visit, hcurrent, Option.map_some]
      have hreads : WorksOn place s.workspace.files segments s.committed s.waiting
          (o.reading r session) := by
        rw [hreading]
        exact ⟨hworks.folder, hworks.stores, hworks.hold, hworks.writer, hworks.waiting⟩
      rw [hvisit]
      refine ⟨.of_worksOn h.around hreads, fun o' ho' => ?_, fun o' ho' => ?_⟩
      · obtain rfl := Option.some.inj ho'
        exact .read hreached r session
      · obtain rfl := Option.some.inj ho'
        rw [hreading]
        exact hpublished

theorem visit (h : Shows place t s) (hplace : Straight t place) {x : Visit}
    (hx : ∀ c, x = .change (.openWith c) → OpensAt t place c) : Shows place t (s.visit x) := by
  cases x with
  | read r session => exact h.read r session
  | change step =>
      cases step with
      | openWith c => exact h.openWith hplace (hx c rfl)
      | add d => exact h.add d
      | commit => exact h.commit hplace
      | leave => exact of_closed h.leave rfl

end Shows

/-- After any visits of an index that does not exist at first, what is open shows what it has read
of what was committed. -/
theorem shows_visited {w : Workspace} (hfresh : ∀ p, place <+: p → w.files.node? p = none)
    (hplace : Straight w.files place) (visits : List Visit)
    (hvisits : ∀ c, .change (.openWith c) ∈ visits → OpensAt w.files place c) :
    Shows place w.files (Shelf.visited w visits) := by
  induction visits using List.reverseRecOn with
  | nil => exact .of_closed (sound_after hfresh hplace [] (by simp)) rfl
  | append_singleton visits x ih =>
      rw [Shelf.visited_snoc]
      refine (ih fun c hc => hvisits c (List.mem_append_left [x] hc)).visit hplace fun c hc => ?_
      exact hvisits c (by rw [hc]; simp)

end OpenIndex

/-! ## the documents of an index -/

namespace Index

open OpenIndex (Added OpensAt Reached Shelf Visit absolute)

/-- The documents that an index of given settings takes: all, or none where no writer can be
opened. -/
def taken (c : Config) (documents : List Document) : List Document :=
  match checkMemory c.writerMemory with
  | .ok () => documents
  | .error _ => []

/-- The documents that are committed to an index, as it has last read them: in memory, or in a
folder in which it did not exist at first and in which nothing else writes. -/
inductive Committed : Index → List Document → Prop
  | inMemory (c : Config) (field : String) (steps : List Step) :
      Committed (after c field steps).index (taken c (committed steps))
  | inFolder {place : Place} (hplace : ∀ name ∈ place, IsName name) {w : Workspace}
      (hfresh : ∀ p, place <+: p → w.files.node? p = none)
      (hlink : ∀ p target, p <+: place → w.files.node? p ≠ some (.link target))
      (visits : List Visit)
      (hvisits : ∀ c, .change (.openWith c) ∈ visits → OpensAt w.files place c) {o : OpenIndex}
      (ho : (Shelf.visited w visits).current = some o) :
      Committed o.index ((Shelf.visited w visits).shown.map Added.document)

/-- The published segments hold the documents, analyzed. -/
theorem Committed.published {i : Index} {documents : List Document} (h : Committed i documents) :
    i.published.flatten = documents.map (Entry.ofDocument i.analyzer) := by
  cases h with
  | inMemory c field steps =>
      have hi := (after_invariant c field steps).1
      rw [hi.published, hi.analyzer]
      unfold entries taken
      cases checkMemory c.writerMemory <;> rfl
  | inFolder hplace hfresh hlink visits hvisits ho =>
      rw [(OpenIndex.shows_visited hfresh ⟨hplace, hlink⟩ visits hvisits).published _ ho, List.map_map]
      rfl

/-- An index in memory is reached, in any workspace. -/
theorem reached_after (c : Config) (field : String) (steps : List Step) (w : Workspace) :
    Reached { index := (after c field steps).index } := by
  induction steps using List.reverseRecOn with
  | nil => exact .inMemory c
  | append_singleton steps step ih =>
      rw [after, List.foldl_append]
      change Reached { index := ((after c field steps).step step).index }
      generalize after c field steps = reader at ih
      cases step with
      | add d =>
          cases hadd : reader.index.add d with
          | error e =>
              simp only [Reader.step, hadd]
              exact ih
          | ok i =>
              simp only [Reader.step, hadd]
              refine ih.added (d := d) (w := w) (v := w) ?_
              rw [OpenIndex.add, hadd]
              cases reader.index.writer <;> rfl
      | commit => exact ih.committed (w := w) (v := w) rfl
      | read r => exact ih.read r reader.session

end Index

end Concordance
