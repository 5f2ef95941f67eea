import Concordance.CommandLine.Run
import Concordance.Proofs.Workspace

/-!
# Concordance.Proofs.CommandLine.Silent

What prints nothing: opening an index, and building one up to the notice about it.  How much the
console takes decides nothing but how the printing at the end of a command comes out.

* `openFilled_silent`, `build_silent` — opening and building.
-/

namespace Concordance

open Files

variable {α β : Type}

namespace OpenIndex

/-- A job that prints nothing. -/
abbrev Silent (x : Job α) : Prop := Leaves Workspace.console x

theorem removeIndex_silent (path : String) : Silent (removeIndex path) := by
  refine leaves_get.bind fun w => ?_
  split
  · exact Leaves.bind (fun _ => rfl) fun _ => leaves_modify fun _ => rfl
  · exact leaves_pure _

theorem openCatalog_silent (folder : Place) : Silent (openCatalog folder) := by
  refine leaves_get.bind fun w => ?_
  split
  · exact fun _ => rfl
  · exact Leaves.bind (fun _ => rfl) fun _ => leaves_pure _

theorem openAnalyzer_silent (c : Config) (found : Found) : Silent (openAnalyzer c found) := by
  refine leaves_get.bind fun w => ?_
  dsimp only
  split
  · refine Leaves.bind (fun _ => rfl) fun stored => ?_
    split
    · exact Leaves.bind (fun _ => rfl) fun _ => leaves_pure _
    · exact leaves_pure _
  · exact Leaves.bind (fun _ => rfl) fun _ => leaves_pure _

theorem openFolder_silent (c : Config) : Silent (openFolder c) := by
  unfold openFolder
  refine (removeIndex_silent c.indexFolder).ite_bind ?_
  exact Leaves.bind (fun _ => rfl) fun _ => Leaves.bind (fun _ => rfl) fun folder =>
    (openCatalog_silent folder).bind fun _ => (openAnalyzer_silent c _).bind fun _ => leaves_pure _

theorem openWriter_silent (i : Index) (folder : Place) : Silent (openWriter i folder) := by
  refine leaves_get.bind fun w => (leaves_throw _).ite_bind ?_
  exact Leaves.bind (fun _ => rfl) fun _ => Leaves.bind (fun _ => rfl) fun _ =>
    Leaves.bind (leaves_modify fun _ => rfl) fun _ => leaves_pure _

theorem add_silent (o : OpenIndex) (d : Document) : Silent (o.add d) := by
  unfold add
  split
  · exact (openWriter_silent _ _).bind fun _ => leaves_pure _
  · exact Leaves.bind (fun _ => rfl) fun _ => leaves_pure _

theorem commit_silent (o : OpenIndex) : Silent o.commit := by
  unfold commit
  split
  · exact leaves_pure _
  · refine Leaves.bind ?_ fun _ => Leaves.bind (fun _ => rfl) fun _ => leaves_pure _
    unfold commitWriter
    split
    · exact leaves_pure _
    · exact Leaves.bind (leaves_modify fun _ => rfl) fun _ => fun _ => rfl

theorem console_close (o : OpenIndex) (w : Workspace) :
    (ExceptT.run o.close w).2.console = w.console := by
  unfold close
  split <;> rfl

end OpenIndex

open OpenIndex (Silent)

/-! ## feeding -/

namespace Indexing

/-- A step of the feeding of an index that prints nothing. -/
abbrev Quiet (x : Feeding Sink.Indexed α) : Prop := Leaves (fun p => p.sink.workspace.console) x

theorem quiet_call {f : Sink.Indexed → Except Fault α × Sink.Indexed}
    (hf : ∀ s, (f s).2.workspace.console = s.workspace.console) : Quiet (call f) :=
  fun p => hf p.sink

theorem quiet_step (failed : OpenIndex → OpenIndex) {job : OpenIndex → Job OpenIndex}
    (hjob : ∀ o, Silent (job o)) : Quiet (call (Sink.step failed job)) := by
  refine quiet_call fun s => ?_
  have hs := hjob s.index s.workspace
  unfold Sink.step
  rcases hrun : (job s.index).run s.workspace with ⟨e | o, w⟩ <;> rwa [hrun] at hs

theorem track_quiet (field : String) (d : Document) (tracker : Growth.Tracker) :
    Quiet (track Sink.ofIndex field d tracker) := by
  refine Leaves.bind (leaves_modify fun _ => rfl) fun _ => Leaves.bind ?_ fun terms => ?_
  · unfold growthTerms
    split
    · exact quiet_call fun _ => rfl
    · exact leaves_pure _
  · split
    · exact leaves_throw _
    · exact leaves_modify fun _ => rfl

theorem feed_quiet (field : String) (position : Nat) (d : Document) :
    Quiet (feed Sink.ofIndex field position d) := by
  have hadd : Quiet (call (Sink.ofIndex.add d) >>= fun _ => modify fun p =>
      { p with summary := { p.summary with documents := p.summary.documents + 1 } }) :=
    (quiet_step id fun o => o.add_silent d).bind fun _ => leaves_modify fun _ => rfl
  unfold feed
  refine (leaves_throw _).ite_bind (leaves_get.bind fun p => ?_)
  split
  · exact hadd
  · next tracker _ => exact (track_quiet field d tracker).bind fun _ => hadd

theorem feedAll_quiet (field : String) (position : Nat) (documents : List Document) :
    Quiet (feedAll Sink.ofIndex field position documents) := by
  induction documents generalizing position with
  | nil => exact leaves_pure _
  | cons d rest ih => exact (feed_quiet field position d).bind fun _ => ih (position + 1)

theorem feedCorpus_quiet (corpus : String) (c : Config) :
    Quiet (feedCorpus Sink.ofIndex indexDesk corpus c) := by
  refine Leaves.bind (quiet_call fun _ => rfl) fun documents =>
    Leaves.bind (leaves_modify fun _ => rfl) fun _ => Leaves.bind ?_ fun summary => ?_
  · refine (feedAll_quiet c.field 0 documents).bind fun _ =>
      (quiet_step OpenIndex.afterFailure OpenIndex.commit_silent).bind fun _ =>
        leaves_get.bind fun _ => leaves_pure _
  · refine leaves_get.bind fun p => ?_
    split
    · exact Leaves.bind (quiet_call fun _ => rfl) fun _ => leaves_pure _
    · exact leaves_pure _

end Indexing

/-! ## commands -/

namespace CommandLine

/-- Building an index prints nothing. -/
theorem build_silent (a : IndexArguments) (settings : Config) : Silent (a.build settings) := by
  have hfeed : ∀ o c, Silent (feed o a.corpus c) := by
    intro o c w
    have hquiet := Indexing.feedCorpus_quiet a.corpus c ⟨⟨w, o⟩, none, {}⟩
    exact (OpenIndex.console_close _ _).trans hquiet
  have hfill : ∀ o found c, Silent (fill o found a.corpus c) := by
    intro o found c
    unfold fill
    split
    · rw [map_eq_pure_bind]
      exact (hfeed o c).bind fun _ => leaves_pure _
    · split
      · exact Leaves.bind (fun _ => rfl) fun _ => leaves_pure _
      · exact leaves_pure _
  exact Leaves.bind (fun _ => rfl) fun _ => (OpenIndex.openFolder_silent _).bind fun x =>
    (hfill x.1 x.2 _).bind fun _ => leaves_pure _

/-- Opening an index that holds documents prints nothing. -/
theorem openFilled_silent (c : Config) : Silent (openFilled c) := by
  unfold openFilled
  refine leaves_get.bind fun w => (leaves_throw _).ite_bind ?_
  refine (OpenIndex.openFolder_silent _).bind fun (o, found) => ?_
  cases found with
  | created => exact leaves_throw _
  | existing => exact leaves_pure _

end CommandLine

end Concordance
