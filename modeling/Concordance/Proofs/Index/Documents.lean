import Concordance.Proofs.Index.Source

/-!
# Concordance.Proofs.Index.Documents

Which documents an index in memory holds: the published segments hold those of the last commit, and
the segments that would be stored next hold all that were added.  The views kept are those of the
published segments throughout.

* `add_ok`, `add_error` — what adding a document does, and when it is refused;
* `Holds.add`, `Holds.commit`, `Holds.afterReads` — what steps do to the documents of an index.
-/

namespace Concordance.Index

/-! ## adding -/

/-- The documents that an index of given settings takes, as it holds them.  It takes none where no
writer can be opened. -/
def entries (c : Config) (documents : List Document) : List Entry :=
  match checkMemory c.writerMemory with
  | .ok () => documents.map (Entry.ofDocument (Analyzer.ofConfig c))
  | .error _ => []

theorem entries_append (c : Config) (ds es : List Document) :
    entries c (ds ++ es) = entries c ds ++ entries c es := by
  unfold entries
  split <;> simp

theorem ordinals_entries (c : Config) (documents : List Document) :
    ((entries c documents).map Entry.ordinal).Sublist (documents.map Document.ordinal) := by
  unfold entries
  split
  · rw [List.map_map]
    exact List.Sublist.refl _
  · exact List.nil_sublist _

theorem Writer.flatten_segments (w : Writer) :
    w.segments.flatten = w.base.flatten ++ w.queue.reverse := by
  unfold segments
  split
  · next h => simp [List.isEmpty_iff.mp h]
  · simp

/-- What is added is stored after what would have been stored before. -/
theorem add_ok {i j : Index} {d : Document} (h : i.add d = .ok j) :
    ∃ w, j = { i with writer := some w } ∧
      w.segments.flatten = i.store.stored.flatten ++ [Entry.ofDocument i.analyzer d] ∧
      (i.writer.isSome = true ∨ checkMemory i.writerMemory = .ok ()) := by
  unfold add withWriter at h
  cases hw : i.writer with
  | some w =>
      simp only [hw, Except.ok.injEq] at h
      refine ⟨{ w with queue := Entry.ofDocument i.analyzer d :: w.queue }, ?_, ?_, .inl rfl⟩
      · rw [← h, enqueue, hw]
        rfl
      · simp [store, hw, Writer.flatten_segments]
  | none =>
      simp only [hw] at h
      cases hm : checkMemory i.writerMemory with
      | error e => simp [hm] at h
      | ok u =>
          simp only [hm, Except.ok.injEq] at h
          refine ⟨{ base := i.stored, queue := [Entry.ofDocument i.analyzer d] }, h.symm, ?_,
            .inr rfl⟩
          simp [store, hw, Writer.flatten_segments]

/-- A document is refused where no writer can be opened. -/
theorem add_error {i : Index} {d : Document} {e : Fault} (h : i.add d = .error e) :
    i.writer = none ∧ checkMemory i.writerMemory = .error e := by
  unfold add withWriter at h
  cases hw : i.writer with
  | some w => simp [hw] at h
  | none =>
      simp only [hw] at h
      cases hm : checkMemory i.writerMemory with
      | error e' => simpa [hm] using h
      | ok u => simp [hm] at h

/-! ## the documents of an index -/

/-- What an index holds that was given documents, some of them committed. -/
structure Holds (c : Config) (done all : List Document) (i : Index) : Prop where
  analyzer : i.analyzer = Analyzer.ofConfig c
  writerMemory : i.writerMemory = c.writerMemory
  writer : i.writer.isSome = true → checkMemory c.writerMemory = .ok ()
  published : i.published.flatten = entries c done
  /-- What would be stored next. -/
  pending : i.store.stored.flatten = entries c all
  coherent : i.Coherent

namespace Holds

variable {c : Config} {done all : List Document} {i j : Index}

theorem empty (c : Config) : Holds c [] [] (Index.empty c) where
  analyzer := rfl
  writerMemory := rfl
  writer h := by cases h
  published := by simp [Index.empty, entries]; split <;> rfl
  pending := by simp [Index.empty, store, entries]; split <;> rfl
  coherent name v h := by simp [Index.empty] at h

/-- A document that was added is pending. -/
theorem add (h : Holds c done all i) {d : Document} (hadd : i.add d = .ok j) :
    Holds c done (all ++ [d]) j := by
  obtain ⟨w, rfl, hsegments, hwriter⟩ := add_ok hadd
  have hmemory : checkMemory c.writerMemory = .ok () :=
    hwriter.elim h.writer fun hm => h.writerMemory ▸ hm
  refine ⟨h.analyzer, h.writerMemory, fun _ => hmemory, h.published, ?_, h.coherent⟩
  have hentry : entries c [d] = [Entry.ofDocument i.analyzer d] := by
    rw [entries, hmemory, h.analyzer]
    rfl
  rw [entries_append, hentry, ← h.pending]
  exact hsegments

/-- A document that was refused is none that the index takes. -/
theorem add_refused (h : Holds c done all i) {d : Document} {e : Fault}
    (hadd : i.add d = .error e) : Holds c done (all ++ [d]) i := by
  obtain ⟨-, hmemory⟩ := add_error hadd
  rw [h.writerMemory] at hmemory
  refine ⟨h.analyzer, h.writerMemory, h.writer, h.published, ?_, h.coherent⟩
  have hentry : entries c [d] = [] := by rw [entries, hmemory]
  rw [entries_append, hentry, List.append_nil, h.pending]

/-- After a commit all documents are published, and no view is kept. -/
theorem commit (h : Holds c done all i) : Holds c all all i.commit := by
  have hcommit : i.commit.published = i.store.stored ∧ i.commit.store.stored = i.store.stored ∧
      i.commit.analyzer = i.analyzer ∧ i.commit.writerMemory = i.writerMemory ∧
      i.commit.writer = none := by
    unfold Index.commit reload store
    cases hw : i.writer <;> simp [hw]
  obtain ⟨hpublished, hstored, hanalyzer, hmemory, hwriter⟩ := hcommit
  refine ⟨hanalyzer.trans h.analyzer, hmemory.trans h.writerMemory, ?_, ?_, ?_, ?_⟩
  · simp [hwriter]
  · rw [hpublished, h.pending]
  · rw [hstored, h.pending]
  · intro name v hv
    simp [views_commit] at hv

theorem afterReads (h : Holds c done all i) (hj : i.AfterReads j) : Holds c done all j := by
  obtain ⟨⟨views, rfl⟩, hcoherent⟩ := hj
  refine ⟨h.analyzer, h.writerMemory, h.writer, h.published, ?_, hcoherent⟩
  rw [← h.pending]
  unfold store
  cases i.writer <;> rfl

end Holds

end Concordance.Index
