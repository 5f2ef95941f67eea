import Concordance.Proofs.Index.History
import Concordance.Proofs.Workspace
import Concordance.Index.Store

/-!
# Concordance.Proofs.Index.Memory

The memory of a writer.  A configuration is checked long before a writer is opened, which happens
when the first document is added, and the check knows only the least memory a writer needs and not
that there is a most.

* `checkMemory_of_check` — what a writer says to a configuration that has passed its check;
* `Holds.add_error_iff` — when a document is refused;
* `fill_of_check` — an index of checked settings takes all documents, unless its memory
  is too large;
* `not_filled_overLimit` — settings that pass their check and leave an index that takes no document.
-/

namespace Concordance

/-- Whether a fault is about an argument that is not valid. -/
def Fault.isInvalidArgument : Fault → Bool
  | .index cause => cause.argument?.isSome
  | .request (.invalidArgument _) => true
  | _ => false

namespace Index

variable {c : Config} {done all : List Document} {i : Index}

/-- A configuration that has passed its check gives a writer enough memory, but maybe too much. -/
theorem checkMemory_of_check (hc : c.check = .ok ()) :
    checkMemory c.writerMemory =
      if writerMemoryLimit ≤ c.writerMemory then .error (.index .tooMuchMemory) else .ok () := by
  obtain ⟨-, hleast, -⟩ := c.check_eq_ok_iff.mp hc
  rw [checkMemory, if_neg (Nat.not_lt.mpr hleast)]

/-- A writer is open only where the memory is right, so the same documents are refused whether or
not others were added before. -/
theorem Holds.add_error_iff (h : Holds c done all i) (hc : c.check = .ok ()) (d : Document)
    (e : Fault) :
    i.add d = .error e ↔ writerMemoryLimit ≤ c.writerMemory ∧ e = .index .tooMuchMemory := by
  have hmemory := checkMemory_of_check hc
  constructor
  · intro hadd
    obtain ⟨-, herror⟩ := add_error hadd
    rw [h.writerMemory, hmemory] at herror
    split at herror
    · next hlimit => exact ⟨hlimit, (Except.error.inj herror).symm⟩
    · cases herror
  · rintro ⟨hlimit, rfl⟩
    rw [if_pos hlimit] at hmemory
    have hclosed : i.writer = none := by
      cases hwriter : i.writer with
      | none => rfl
      | some w => cases hmemory.symm.trans (h.writer (by rw [hwriter]; rfl))
    rw [Index.add, withWriter, hclosed, h.writerMemory, hmemory]

theorem Holds.exists_add (h : Holds c done all i) (hc : c.check = .ok ())
    (hlimit : c.writerMemory < writerMemoryLimit) (d : Document) : ∃ j, i.add d = .ok j := by
  cases hadd : i.add d with
  | ok j => exact ⟨j, rfl⟩
  | error e => exact absurd ((h.add_error_iff hc d e).mp hadd).1 (Nat.not_le.mpr hlimit)

end Index

namespace OpenIndex

open Index (Holds writerMemoryLimit after)

variable {c : Config}

/-- Add documents to an empty index in memory, one after the other, and commit them. -/
def fill (c : Config) (documents : List Document) : Job OpenIndex := do
  let o ← documents.foldlM add (inMemory c)
  o.commit

/-- An index in memory is asked itself to take a document. -/
theorem add_inMemory (i : Index) (d : Document) :
    add { index := i } d = (do
      let j ← Job.ofExcept (i.add d)
      return { index := j }) := by
  unfold add
  cases i.writer <;> rfl

/-- Documents are added behind those that an index in memory has, as long as the memory is right. -/
theorem run_addAll (hc : c.check = .ok ()) (hlimit : c.writerMemory < writerMemoryLimit)
    {done all : List Document} {i : Index} (h : Holds c done all i) (documents : List Document)
    (w : Workspace) :
    ∃ j, ExceptT.run (documents.foldlM add { index := i }) w = (.ok { index := j }, w) ∧
      Holds c done (all ++ documents) j := by
  induction documents generalizing i all with
  | nil => exact ⟨i, rfl, by rwa [List.append_nil]⟩
  | cons d rest ih =>
      obtain ⟨j, hadd⟩ := h.exists_add hc hlimit d
      obtain ⟨k, hrun, hk⟩ := ih (h.add hadd)
      refine ⟨k, ?_, by rwa [List.append_cons]⟩
      rw [List.foldlM_cons, add_inMemory, hadd]
      exact hrun

theorem run_fill (hc : c.check = .ok ()) (hlimit : c.writerMemory < writerMemoryLimit)
    (documents : List Document) (w : Workspace) :
    ∃ o, ExceptT.run (fill c documents) w = (.ok o, w) ∧
      o.index.published.flatten =
        documents.map (Index.Entry.ofDocument (Analyzer.ofConfig c)) := by
  obtain ⟨j, hadded, hj⟩ := run_addAll hc hlimit (Holds.empty c) documents w
  refine ⟨{ index := j.commit }, ?_, ?_⟩
  · rw [fill, Job.run_bind, inMemory, hadded]
    rfl
  · have hmemory := Index.checkMemory_of_check hc
    rw [if_neg (Nat.not_le.mpr hlimit)] at hmemory
    rw [hj.commit.published, List.nil_append, Index.entries, hmemory]

/-- The first document is refused already. -/
theorem run_fill_overLimit (hc : c.check = .ok ()) (hlimit : writerMemoryLimit ≤ c.writerMemory)
    (d : Document) (rest : List Document) (w : Workspace) :
    ExceptT.run (fill c (d :: rest)) w = (.error (.index .tooMuchMemory), w) := by
  have hadd := ((Holds.empty c).add_error_iff hc d _).mpr ⟨hlimit, rfl⟩
  rw [fill, List.foldlM_cons, inMemory, add_inMemory, hadd]
  rfl

/-- **Room for a writer**: an index in memory, made for settings that have passed their check, takes
all documents and publishes them with one commit, unless the memory of the writer is at its limit or
above; then any document at all is refused, because of an argument that is not valid.  So it is in
whatever order documents are added, committed and read. -/
theorem fill_of_check (hc : c.check = .ok ()) (documents : List Document) (w : Workspace) :
    (c.writerMemory < writerMemoryLimit →
      ∃ o, ExceptT.run (fill c documents) w = (.ok o, w) ∧
        o.index.published.flatten =
          documents.map (Index.Entry.ofDocument (Analyzer.ofConfig c))) ∧
    (∀ e v, ExceptT.run (fill c documents) w = (.error e, v) ↔
      writerMemoryLimit ≤ c.writerMemory ∧ documents ≠ [] ∧ e = .index .tooMuchMemory ∧ v = w) ∧
    (∀ e v, ExceptT.run (fill c documents) w = (.error e, v) → e.isInvalidArgument = true) ∧
    ∀ field steps d e, (after c field steps).index.add d = .error e ↔
      writerMemoryLimit ≤ c.writerMemory ∧ e = .index .tooMuchMemory := by
  have hrefused : ∀ e v, ExceptT.run (fill c documents) w = (.error e, v) →
      writerMemoryLimit ≤ c.writerMemory ∧ documents ≠ [] ∧ e = .index .tooMuchMemory ∧ v = w := by
    intro e v hrun
    by_cases hlimit : c.writerMemory < writerMemoryLimit
    · obtain ⟨o, hok, -⟩ := run_fill hc hlimit documents w
      cases hok.symm.trans hrun
    have hover := Nat.not_lt.mp hlimit
    cases documents with
    | nil => cases hrun
    | cons d rest =>
        cases (run_fill_overLimit hc hover d rest w).symm.trans hrun
        exact ⟨hover, List.cons_ne_nil d rest, rfl, rfl⟩
  refine ⟨fun hlimit => run_fill hc hlimit documents w, fun e v => ⟨hrefused e v, ?_⟩,
    fun e v hrun => ?_,
    fun field steps d e => (Index.after_invariant c field steps).1.add_error_iff hc d e⟩
  · rintro ⟨hlimit, hne, rfl, rfl⟩
    obtain ⟨d, rest, rfl⟩ := List.exists_cons_of_ne_nil hne
    exact run_fill_overLimit hc hlimit d rest v
  · obtain ⟨-, -, rfl, -⟩ := hrefused e v hrun
    rfl

/-- Settings with the most memory that a writer takes, and some bytes more. -/
def roomy (more : Nat) : Config where
  writerMemory := 4293967294 + more

/-- A document with one word. -/
def catAlone : Document where
  ordinal := 0
  content := some "cat"

/-- A workspace without files. -/
def bareWorkspace : Workspace where
  files := { home := [], nodes := [] }

/-- A document is added with the most memory and refused with one byte more. -/
theorem fill_of_check_roomy :
    (roomy 0).check = .ok () ∧ (roomy 1).check = .ok () ∧
      (∃ o, ExceptT.run (fill (roomy 0) [catAlone]) bareWorkspace = (.ok o, bareWorkspace)) ∧
      ExceptT.run (fill (roomy 1) [catAlone]) bareWorkspace =
        (.error (.index .tooMuchMemory), bareWorkspace) := by
  have hmost : (roomy 0).check = .ok () := rfl
  have hover : (roomy 1).check = .ok () := rfl
  refine ⟨hmost, hover, ?_, ?_⟩
  · obtain ⟨o, ho, -⟩ := (fill_of_check hmost [catAlone] bareWorkspace).1 (by decide)
    exact ⟨o, ho⟩
  · exact ((fill_of_check hover [catAlone] bareWorkspace).2.1 _ _).mpr
      ⟨by decide, List.cons_ne_nil _ _, rfl, rfl⟩

/-- Settings may pass their check and be refused as an argument that is not valid all the same. -/
theorem not_filled_overLimit :
    ¬∀ (c : Config) (documents : List Document) (w v : Workspace) (e : Fault), c.check = .ok () →
      ExceptT.run (fill c documents) w = (.error e, v) → e.isInvalidArgument = false := by
  intro h
  have hrun : ExceptT.run (fill { writerMemory := 5000000000 } [catAlone]) bareWorkspace =
      (.error (.index .tooMuchMemory), bareWorkspace) := rfl
  exact absurd (h _ _ _ _ _ rfl hrun) (by decide)

end OpenIndex

end Concordance
