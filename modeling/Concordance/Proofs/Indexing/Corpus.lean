import Concordance.Proofs.Corpus.Listing
import Concordance.Proofs.Growth.Files
import Concordance.Proofs.Indexing.Course
import Mathlib

/-!
# Concordance.Proofs.Indexing.Corpus

A corpus that is fed into a sink while its growth is tracked: from the listing of the files to the
growth files.  The growth files come behind the commit, so that what has become of the sink is known
from the fault alone unless the sink has failed itself.

* `Stopped.refused` — documents that are numbered are stopped by a call of the sink only;
* `feedCorpus_course` — what was listed, called, written and answered.
-/

namespace Concordance.Indexing

open Files
open Growth (Tracker Unlinked filePath growthPoints load)
open Sink (Event Course)

variable {σ : Type}

/-! ## faults of the sink -/

/-- The last call of the sink was answered with a fault, and it has committed nothing before. -/
def Refused (sink : Sink σ) (s : σ) (e : Fault) (u : σ) : Prop :=
  ∃ events event, Course sink s (events ++ [event]) u ∧ event.fault? = some e ∧
    .committed (.ok ()) ∉ events

theorem not_mem_analyzing {tracked : Bool} {field : String} {d : Document} {terms : List String}
    {answer : Except Fault Unit} : .committed answer ∉ analyzing tracked field d terms := by
  unfold analyzing
  split <;> simp

theorem not_mem_feeding {tracked : Bool} {field : String} {fed : List (Document × List String)}
    {answer : Except Fault Unit} : .committed answer ∉ fed.flatMap (feeding tracked field) := by
  intro hmem
  obtain ⟨x, -, hx⟩ := List.mem_flatMap.mp hmem
  obtain hx | hx := List.mem_append.mp hx
  · exact not_mem_analyzing hx
  · simp at hx

/-- Documents that are numbered in order are stopped by the sink only. -/
theorem Stopped.refused {sink : Sink σ} {field : String} {documents : List Document} {s : σ}
    {tracker : Option Tracker} {fed : List (Document × List String)} {e : Fault} {q : Progress σ}
    (h : Stopped sink field documents s tracker fed e q)
    (hnumbered : documents.map (·.ordinal) = List.range documents.length) :
    Refused sink s e q.sink := by
  cases h with
  | commit hdocuments hreceived hcourse htracker =>
      exact ⟨_, _, hcourse, rfl, not_mem_feeding⟩
  | @document d rest events termss hdocuments hreceived hhalts hcourse htracker =>
      cases hhalts with
      | misnumbered hordinal =>
          refine absurd ?_ hordinal
          have hlast := congrArg (·[fed.length]?) hnumbered
          simpa [hdocuments] using hlast
      | untokenized htracked hordinal hfield =>
          exact ⟨_, _, hcourse, rfl, not_mem_feeding⟩
      | refused hordinal hreads =>
          rw [← List.append_assoc] at hcourse
          refine ⟨_, _, hcourse, rfl, fun hmem => ?_⟩
          exact (List.mem_append.mp hmem).elim not_mem_feeding not_mem_analyzing

/-! ## the growth files -/

/-- A new tracker writes a growth file for each document that it has gained. -/
theorem ensures_save {desk : Desk σ} (hdesk : ∀ s t, desk.files (desk.setFiles s t) = t)
    {tracker : Tracker} {termss : List (List String)} (h : Tracker.Gained termss {} tracker)
    (folder : String) (p : Progress σ) :
    Ensures (save desk folder tracker) p
      (fun paths q => paths = (List.range termss.length).map (filePath folder) ∧
        (∃ t, q.sink = desk.setFiles p.sink t) ∧
        (Unlinked (desk.files q.sink) folder termss.length → ∀ i terms, termss[i]? = some terms →
          load (desk.files q.sink) (filePath folder i) = .ok (growthPoints terms)))
      (fun e q => e.isAboutGrowth = true ∧ ∃ t, q.sink = desk.setFiles p.sink t) := by
  have hcount : tracker.curves.length = termss.length := by rw [h.curves_eq, List.length_map]
  refine ensures_call (fun paths u heq => ?_) fun e u heq => ?_
  · obtain ⟨hanswer, rfl⟩ := Prod.mk.inj heq
    have hsave : tracker.save (desk.files p.sink) folder =
        ((tracker.save (desk.files p.sink) folder).1, .ok paths) := Prod.ext rfl hanswer
    obtain ⟨hpaths, hload⟩ := Growth.save_ok hsave
    rw [hcount] at hpaths hload
    refine ⟨hpaths, ⟨_, rfl⟩, ?_⟩
    rw [hdesk]
    intro hunlinked i terms hi
    refine hload hunlinked i (growthPoints terms) ?_
    rw [h.curves_eq, List.getElem?_map, hi, Option.map_some]
  · obtain ⟨hanswer, rfl⟩ := Prod.mk.inj heq
    exact ⟨Growth.isAboutGrowth_of_save hanswer, _, rfl⟩

theorem exists_of_rel_some {α β : Type} {r : α → β → Prop} {a : α} {y : Option β}
    (h : Option.Rel r (some a) y) : ∃ b, y = some b ∧ r a b := by
  cases h with
  | some hab => exact ⟨_, rfl, hab⟩

/-! ## the course of a corpus -/

variable (sink : Sink σ) (desk : Desk σ)

/-- Where a corpus can end with a fault. -/
inductive Ending
  /-- At the files of the corpus. -/
  | unloaded
  /-- At a call of the sink. -/
  | stopped
  /-- At a growth file. -/
  | unsaved

/-- A corpus whose growth is tracked ends there with a fault. -/
inductive Ends (corpus field : String) (s : σ) (e : Fault) (q : Progress σ) : Ending → Prop
  /-- The corpus could not be listed or read, and the sink was not called. -/
  | unloaded (hload : Corpus.load (desk.files s) corpus = .error e)
      (hfault : e = .corpus (.notAFolder corpus) ∨ (∃ path cause, e = .walk path cause) ∨
        ∃ cause, e = .files cause)
      (hsink : q.sink = s) : Ends corpus field s e q .unloaded
  /-- The sink has failed itself and has committed nothing. -/
  | stopped {documents : List Document} {fed : List (Document × List String)}
      (hload : Corpus.load (desk.files s) corpus = .ok documents)
      (hrun : ExceptT.run (feedAndCommit sink field documents) ⟨s, some {}, {}⟩ = (.error e, q))
      (hstopped : Stopped sink field documents s (some {}) fed e q)
      (hrefused : Refused sink s e q.sink) : Ends corpus field s e q .stopped
  /-- Everything was committed, and then a growth file could not be written. -/
  | unsaved {documents : List Document} {fed : List (Document × List String)} {summary : Summary}
      {r : Progress σ} {t : Tree} (hload : Corpus.load (desk.files s) corpus = .ok documents)
      (hrun : ExceptT.run (feedAndCommit sink field documents) ⟨s, some {}, {}⟩ = (.ok summary, r))
      (hcompleted : Completed sink field documents s (some {}) fed summary r)
      (hsink : q.sink = desk.setFiles r.sink t) (hgrowth : e.isAboutGrowth = true) :
      Ends corpus field s e q .unsaved

section Ends

variable {sink desk} {corpus field : String} {s : σ} {e : Fault} {q : Progress σ}
  {ending other : Ending}

/-- A corpus ends at one of the three. -/
theorem Ends.eq (h : Ends sink desk corpus field s e q ending)
    (hother : Ends sink desk corpus field s e q other) : ending = other := by
  cases h with
  | unloaded hload =>
      cases hother with
      | unloaded => rfl
      | stopped hload' => cases hload.symm.trans hload'
      | unsaved hload' => cases hload.symm.trans hload'
  | stopped hload hrun =>
      cases hother with
      | unloaded hload' => cases hload.symm.trans hload'
      | stopped => rfl
      | unsaved hload' hrun' =>
          obtain rfl := Except.ok.inj (hload.symm.trans hload')
          cases hrun.symm.trans hrun'
  | unsaved hload hrun =>
      cases hother with
      | unloaded hload' => cases hload.symm.trans hload'
      | stopped hload' hrun' =>
          obtain rfl := Except.ok.inj (hload.symm.trans hload')
          cases hrun.symm.trans hrun'
      | unsaved => rfl

theorem Ends.exists_unique (h : Ends sink desk corpus field s e q ending) :
    ∃! ending, Ends sink desk corpus field s e q ending :=
  ⟨ending, h, fun _ hother => hother.eq h⟩

/-- A fault that is about no growth file comes before the commit. -/
theorem Ends.uncommitted (h : Ends sink desk corpus field s e q ending)
    (hgrowth : e.isAboutGrowth = false) : q.sink = s ∨ Refused sink s e q.sink := by
  cases h with
  | unloaded _ _ hsink => exact .inl hsink
  | stopped _ _ _ hrefused => exact .inr hrefused
  | unsaved _ _ _ _ habout => cases hgrowth.symm.trans habout

end Ends

/-- **The course of a corpus**: the documents are the files of the listing as it was at the start,
in order.  Where the run ends well, every document has its growth file, which is loaded with the
growth of the terms that the sink gave for that document, as long as no two growth files are linked.
Where it ends with a fault, one of three things has happened: the corpus could not be loaded, the
sink has failed itself, or everything was committed before a growth file could not be written.  A
fault that is about no growth file leaves the sink with nothing committed, and no growth file is
written. -/
theorem feedCorpus_course (hdesk : ∀ s t, desk.files (desk.setFiles s t) = t) (corpus : String)
    (c : Config) {folder : String} (hfolder : c.growthFolder = some folder) (s : σ) :
    Ensures (feedCorpus sink desk corpus c) ⟨s, none, {}⟩
      (fun summary q => ∃ (places : List Place) (paths : List String) (texts : List String)
          (fed : List (Document × List String)) (counts : Summary) (r : Progress σ),
        Corpus.list (desk.files s) corpus = .ok paths ∧ paths = places.map (joinAll corpus) ∧
        places.Pairwise (fun a b => notAfter a b = true) ∧
        List.Forall₂ (fun path text => (desk.files s).readText path = .ok text) paths texts ∧
        Completed sink c.field (texts.mapIdx fun i text => Markup.parse text i) s (some {}) fed
          counts r ∧
        summary = { counts with growthFiles := (List.range paths.length).map (filePath folder) } ∧
        (∃ t, q.sink = desk.setFiles r.sink t) ∧
        (Unlinked (desk.files q.sink) folder paths.length → ∀ i d terms, fed[i]? = some (d, terms) →
          load (desk.files q.sink) (filePath folder i) = .ok (growthPoints terms)))
      (fun e q => (∃! ending, Ends sink desk corpus c.field s e q ending) ∧
        (e.isAboutGrowth = false → q.sink = s ∨ Refused sink s e q.sink)) := by
  have hends : ∀ {e : Fault} {q : Progress σ} {ending : Ending},
      Ends sink desk corpus c.field s e q ending →
      (∃! ending, Ends sink desk corpus c.field s e q ending) ∧
        (e.isAboutGrowth = false → q.sink = s ∨ Refused sink s e q.sink) :=
    fun h => ⟨h.exists_unique, h.uncommitted⟩
  refine ensures_call_bind (fun documents u h => ?_) fun e u h => ?_
  · obtain ⟨hload, rfl⟩ := Prod.mk.inj h
    refine ensures_modify_bind ?_
    rw [Config.recordsGrowth, hfolder]
    refine ((feedAndCommit_fed sink c.field documents ⟨s, some {}, {}⟩).with_run.imp_error
      fun e q h => ?_).bind fun counts r h => ?_
    · have hordinals := Corpus.load_ordinal hload
      obtain ⟨h, hrun⟩ := h
      obtain ⟨fed, d, rest, r, rfl, hfed, hhalted⟩ | ⟨fed, r, rfl, hfed, hcommit, hq⟩ := h
      · have hstopped := hfed.stopped rest hhalted
        exact hends (.stopped hload hrun hstopped (hstopped.refused hordinals))
      · have hstopped := hfed.uncommitted hcommit
        rw [← hq] at hstopped
        exact hends (.stopped hload hrun hstopped (hstopped.refused hordinals))
    obtain ⟨h, hrun⟩ := h
    obtain ⟨fed, r', hdocuments, hfed, hcommit, hr, rfl⟩ := h
    have hcompleted := hfed.completed hcommit
    rw [hdocuments, ← hr] at hcompleted
    obtain ⟨tracker, htracker, hgained⟩ := exists_of_rel_some hcompleted.tracker
    obtain ⟨paths, texts, hlist, hread, htexts⟩ := Corpus.load_eq hload
    obtain ⟨places, hpaths, hsorted⟩ := Corpus.list_sorted hlist
    have hlength : (fed.map Prod.snd).length = paths.length := by
      rw [hread.length_eq, List.length_map, ← List.length_map (f := Prod.fst), hdocuments, htexts,
        List.length_mapIdx]
    refine ensures_get_bind ?_
    simp only [htracker]
    refine ((ensures_save hdesk hgained folder r).imp_error fun e q h => ?_).bind
      fun growthFiles q h => ?_
    · obtain ⟨hgrowth, t, hsink⟩ := h
      exact hends (.unsaved hload hrun hcompleted hsink hgrowth)
    · rw [hlength] at h
      obtain ⟨rfl, hsink, hfiles⟩ := h
      refine ensures_pure ⟨places, paths, texts, fed, r'.summary, r, hlist, hpaths, hsorted, hread,
        ?_, rfl, hsink, ?_⟩
      · rw [← htexts]
        exact hcompleted
      · intro hunlinked i d terms hi
        exact hfiles hunlinked i terms (by rw [List.getElem?_map, hi]; rfl)
  · obtain ⟨hload, rfl⟩ := Prod.mk.inj h
    exact hends (.unloaded hload (Corpus.load_error hload) rfl)

/-! ### two texts -/

/-- A corpus of two texts and a folder for their growth, where the first growth file may be a link
to the second one. -/
def twoTexts (isLinked : Bool) : Tree where
  home := ["work"]
  nodes := [([], .folder), (["work"], .folder), (["work", "corpus"], .folder),
    (["work", "corpus", "a.txt"], .file (Tree.bytesOf ".W\ncat dog\n") none),
    (["work", "corpus", "b.txt"], .file (Tree.bytesOf ".W\nflow\n") none),
    (["work", "growth"], .folder)] ++
      if isLinked then [(["work", "growth", "heap-0.csv"], .link "heap-1.csv")] else []

/-- Their documents. -/
def twoDocuments : List Document :=
  [{ ordinal := 0, content := some "cat dog" }, { ordinal := 1, content := some "flow" }]

/-- A sink that takes the words of a text as its terms, and answers a commit as it is told. -/
def wordsSink (commit : Except Fault Unit) : Sink Tree where
  tokenize _ text t := (.ok (Sink.words text), t)
  add _ t := (.ok (), t)
  commit t := (commit, t)

/-- The sink holds the files themselves. -/
def filesDesk : Desk Tree where
  files t := t
  setFiles _ t := t

/-- The settings, with a folder for the growth. -/
def tracked : Config := { growthFolder := some "growth" }

section TwoTexts

variable (isLinked : Bool)

theorem resolve_twoTexts {name : String} (hname : name = "corpus" ∨ name = "growth") (f : Bool) :
    (twoTexts isLinked).resolve f name = .ok ⟨["work", name], some .folder⟩ := by
  have hisName : IsName name := by obtain rfl | rfl := hname <;> constructor <;> decide
  have hsize : name.utf8ByteSize ≤ Tree.nameLimit := by obtain rfl | rfl := hname <;> decide
  have hnode : (twoTexts isLinked).node? ((twoTexts isLinked).home ++ [name]) = some .folder := by
    obtain rfl | rfl := hname <;> rfl
  have hspot := Tree.resolve_name hisName (t := twoTexts isLinked) (f := f) rfl hsize
    fun target heq => by cases hnode.symm.trans heq
  rw [hnode] at hspot
  exact hspot

theorem readText_twoTexts (name : String) {text : String} (hname : name = "a.txt" ∨ name = "b.txt")
    (hnode : (twoTexts isLinked).node? (["work", "corpus"] ++ [name]) =
      some (.file (Tree.bytesOf text) none)) :
    (twoTexts isLinked).readText (join "corpus" name) = .ok text := by
  have hisName : IsName name := by obtain rfl | rfl := hname <;> constructor <;> decide
  have hsize : name.utf8ByteSize ≤ Tree.nameLimit := by obtain rfl | rfl := hname <;> decide
  have hspot := Tree.resolve_join hisName (f := true) (resolve_twoTexts isLinked (.inl rfl) true)
    hsize fun target heq => by cases hnode.symm.trans heq
  rw [hnode] at hspot
  exact OpenIndex.readText_of_resolve hspot

theorem load_twoTexts : Corpus.load (twoTexts isLinked) "corpus" = .ok twoDocuments := by
  have hentries : Corpus.entries ((twoTexts isLinked).below ["work", "corpus"]) =
      [["a.txt"], ["b.txt"]] := by
    cases isLinked <;> cbv
  have hlist : Corpus.list (twoTexts isLinked) "corpus" =
      .ok [join "corpus" "a.txt", join "corpus" "b.txt"] := by
    have hlisted : ∀ place, (twoTexts isLinked).isUnlisted (["work", "corpus"] ++ place) = false :=
      fun place => by simp [Tree.isUnlisted, twoTexts]
    rw [Corpus.list, resolve_twoTexts isLinked (.inl rfl)]
    simp only [hentries, Corpus.unlisted?_eq_none hlisted]
    rfl
  rw [Corpus.load, hlist]
  simp only [Corpus.read, readText_twoTexts isLinked "a.txt" (.inl rfl) rfl,
    readText_twoTexts isLinked "b.txt" (.inr rfl) rfl]
  cbv

/-- Nothing stands where a growth file will be; where the files are linked, that is one place. -/
theorem standsAt_twoTexts {k : Nat} (hk : k < 2) :
    ∃ place, Growth.StandsAt (twoTexts isLinked) "growth" k place ∧
      (twoTexts isLinked).node? place = none ∧
      (isLinked = true → place = ["work", "growth", "heap-1.csv"]) := by
  have hname := Growth.isName_fileName k
  by_cases hlink : isLinked = true ∧ k = 0
  · obtain ⟨rfl, rfl⟩ := hlink
    refine ⟨_, Growth.standsAt_of_link (by constructor <;> decide) (by constructor <;> decide)
      rfl rfl rfl ?_ (by decide), rfl, fun _ => rfl⟩
    intro other heq
    cases heq
  · have hk' : k = 0 ∨ k = 1 := by omega
    have hsize : (Growth.fileName k).utf8ByteSize ≤ Tree.nameLimit := by
      obtain rfl | rfl := hk' <;> decide
    have hplace : (twoTexts isLinked).node? (["work", "growth"] ++ [Growth.fileName k]) = none ∧
        (isLinked = true → ["work", "growth"] ++ [Growth.fileName k] =
          ["work", "growth", "heap-1.csv"]) := by
      obtain rfl | rfl := hk'
      all_goals
        cases isLinked
        all_goals simp at hlink
        all_goals exact ⟨rfl, by decide⟩
    have hspot := Tree.resolve_join hname (f := true) (resolve_twoTexts isLinked (.inr rfl) true)
      hsize fun target heq => by cases hplace.1.symm.trans heq
    exact ⟨_, ⟨_, hspot⟩, hplace⟩

theorem ensures_load_twoTexts {p : Progress Tree} (hp : p.sink = twoTexts isLinked) :
    Ensures (call fun s => (Corpus.load (filesDesk.files s) "corpus", s)) p
      (fun documents q => documents = twoDocuments ∧ q = p) (fun _ _ => False) := by
  refine ensures_call (fun documents u h => ?_) fun e u h => ?_
  all_goals
    obtain ⟨hload, rfl⟩ := Prod.mk.inj h
    change Corpus.load p.sink "corpus" = _ at hload
    rw [hp, load_twoTexts] at hload
    cases hload
  exact ⟨rfl, rfl⟩

theorem eq_of_course_words {commit : Except Fault Unit} {t u : Tree} {events : List Event}
    (h : Course (wordsSink commit) t events u) : u = t := by
  induction h with
  | done t => rfl
  | @call t v u event events hcall _ ih =>
      have hv : v = t := by
        cases event with
        | tokenized field text answer => exact (Prod.mk.inj hcall).2.symm
        | added d answer => exact (Prod.mk.inj hcall).2.symm
        | committed answer => exact (Prod.mk.inj hcall).2.symm
      rw [ih, hv]

/-- Feeding the two documents ends as the commit does. -/
theorem run_twoTexts (commit : Except Fault Unit) (t : Tree) :
    ∃ q, (feedAndCommit (wordsSink commit) "content" twoDocuments).run ⟨t, some {}, {}⟩ =
      (commit.map fun _ => ⟨2, 3, []⟩, q) := by
  have hanswer : ((feedAndCommit (wordsSink commit) "content" twoDocuments).run
      ⟨t, some {}, {}⟩).1 = commit.map fun _ => ⟨2, 3, []⟩ := by
    cases commit <;> cbv
  exact exists_run hanswer

-- a run is not to be computed where it is taken apart
attribute [local irreducible] Ensures

theorem feedAndCommit_twoTexts {p : Progress Tree} (hp : p = ⟨p.sink, some {}, {}⟩) :
    Ensures (feedAndCommit (wordsSink (.ok ())) "content" twoDocuments) p
      (fun summary q => summary = ⟨2, 3, []⟩ ∧ q.sink = p.sink ∧
        ∃ tracker termss, q.tracker = some tracker ∧ Tracker.Gained termss {} tracker ∧
          termss.length = 2)
      (fun _ _ => False) := by
  obtain ⟨q, hrun⟩ := run_twoTexts (.ok ()) p.sink
  rw [← hp] at hrun
  obtain ⟨fed, r, hdocuments, hfed, hcommit, hq, -⟩ :=
    (feedAndCommit_fed (wordsSink (.ok ())) "content" twoDocuments p).of_ok hrun
  rw [Ensures, hrun]
  have hsink : q.sink = p.sink := by
    have hcommitted := (Prod.mk.inj hcommit).2
    exact hcommitted.symm.trans (eq_of_course_words hfed.course)
  have htracker : p.tracker = some {} := by rw [hp]
  refine ⟨rfl, hsink, _, fed.map Prod.snd, ?_, Tracker.gained_extend {} (fed.map Prod.snd), ?_⟩
  · have hafter := hfed.tracker
    rw [htracker] at hafter
    rw [hq]
    exact hafter
  · rw [List.length_map, ← List.length_map (f := Prod.fst), hdocuments]
    rfl

/-- The growth files are written, and stand where they would stand before. -/
theorem save_twoTexts {tracker : Tracker} {termss : List (List String)}
    (hgained : Tracker.Gained termss {} tracker) (htermss : termss.length = 2) {p : Progress Tree}
    (hp : p.sink = twoTexts isLinked) :
    Ensures (save filesDesk "growth" tracker) p
      (fun paths q => paths = [filePath "growth" 0, filePath "growth" 1] ∧
        ∀ k < 2, ∀ place, Growth.StandsAt (twoTexts isLinked) "growth" k place →
          Growth.StandsAt q.sink "growth" k place)
      (fun _ _ => False) := by
  have hgrowth : IsName "growth" := by constructor <;> decide
  have hcurves : tracker.curves.length = 2 := by rw [hgained.curves_eq, List.length_map, htermss]
  have hwritten : ∃ u paths,
      Growth.writeFiles (twoTexts isLinked) "growth" 0 tracker.curves = (u, .ok paths) := by
    refine Growth.exists_writeFiles_of_resolve fun k hk => ?_
    rw [hcurves] at hk
    obtain ⟨place, hstands, hnone, -⟩ := standsAt_twoTexts isLinked hk
    rw [Nat.zero_add]
    exact ⟨place, hstands, Tree.hasRoom_of_none rfl hnone⟩
  obtain ⟨u, paths, hwrite⟩ := hwritten
  have hsave : tracker.save p.sink "growth" = (u, .ok paths) := by
    rw [hp, Tracker.save, Tree.makeFolders_name hgrowth (resolve_twoTexts isLinked (.inr rfl))]
    exact hwrite
  obtain ⟨hpaths, hgrows, -⟩ := Growth.writeFiles_ok hwrite
  rw [hcurves] at hpaths
  refine ensures_call (fun answer v h => ?_) fun e v h => ?_
  all_goals
    simp only [filesDesk, hsave] at h
    cases h
  exact ⟨hpaths, fun k _ place hplace => hplace.grows hgrows⟩

theorem feedCorpus_twoTexts {p : Progress Tree} (hp : p = ⟨twoTexts isLinked, none, {}⟩) :
    Ensures (feedCorpus (wordsSink (.ok ())) filesDesk "corpus" tracked) p
      (fun summary q => summary = ⟨2, 3, [filePath "growth" 0, filePath "growth" 1]⟩ ∧
        ∀ k < 2, ∀ place, Growth.StandsAt (twoTexts isLinked) "growth" k place →
          Growth.StandsAt q.sink "growth" k place)
      (fun _ _ => False) := by
  have hsink : p.sink = twoTexts isLinked := by rw [hp]
  refine (ensures_load_twoTexts isLinked hsink).bind fun documents p' h => ?_
  obtain ⟨rfl, rfl⟩ := h
  refine ensures_modify_bind ?_
  generalize hr : ({ p' with
    tracker := if tracked.recordsGrowth then some {} else none } : Progress Tree) = r
  have hr' : r = ⟨r.sink, some {}, {}⟩ := by
    rw [← hr, hp]
    rfl
  have hrsink : r.sink = twoTexts isLinked := by rw [← hr, hsink]
  refine (feedAndCommit_twoTexts hr').bind fun summary q hq => ?_
  obtain ⟨rfl, hqsink, tracker, termss, htracker, hgained, htermss⟩ := hq
  rw [hrsink] at hqsink
  refine ensures_get_bind ?_
  simp only [htracker]
  refine (save_twoTexts isLinked hgained htermss hqsink).bind fun paths u hu => ?_
  obtain ⟨rfl, hstands⟩ := hu
  exact ensures_pure ⟨rfl, hstands⟩

end TwoTexts

theorem exists_run_feedCorpus (isLinked : Bool) :
    ∃ q, (feedCorpus (wordsSink (.ok ())) filesDesk "corpus" tracked).run
        ⟨twoTexts isLinked, none, {}⟩ =
          (.ok ⟨2, 3, [filePath "growth" 0, filePath "growth" 1]⟩, q) ∧
      ∀ k < 2, ∀ place, Growth.StandsAt (twoTexts isLinked) "growth" k place →
        Growth.StandsAt q.sink "growth" k place := by
  generalize hp : (⟨twoTexts isLinked, none, {}⟩ : Progress Tree) = p
  obtain ⟨summary, q, hrun, rfl, hstands⟩ := (feedCorpus_twoTexts isLinked hp.symm).exists_run
  exact ⟨q, hrun, hstands⟩

theorem feedAndCommit_refused (e : Fault) {p : Progress Tree} (hp : p = ⟨p.sink, some {}, {}⟩)
    {documents : List Document} (hdocuments : documents = twoDocuments) :
    Ensures (feedAndCommit (wordsSink (.error e)) "content" documents) p (fun _ _ => False)
      (fun f _ => f = e) := by
  obtain ⟨q, hrun⟩ := run_twoTexts (.error e) p.sink
  rw [← hp, ← hdocuments] at hrun
  rw [Ensures, hrun]
  rfl

/-- A sink that does not commit ends the run as it answers. -/
theorem feedCorpus_refused (isLinked : Bool) (e : Fault) {p : Progress Tree}
    (hp : p = ⟨twoTexts isLinked, none, {}⟩) :
    Ensures (feedCorpus (wordsSink (.error e)) filesDesk "corpus" tracked) p (fun _ _ => False)
      (fun f _ => f = e) := by
  have hsink : p.sink = twoTexts isLinked := by rw [hp]
  refine ((ensures_load_twoTexts isLinked hsink).imp_error fun _ _ h => h.elim).bind
    fun documents p' h => ?_
  obtain ⟨hdocuments, rfl⟩ := h
  refine ensures_modify_bind ?_
  generalize hr : ({ p' with
    tracker := if tracked.recordsGrowth then some {} else none } : Progress Tree) = r
  have hr' : r = ⟨r.sink, some {}, {}⟩ := by
    rw [← hr, hp]
    rfl
  exact (feedAndCommit_refused e hr' hdocuments).bind fun _ _ h => h.elim

theorem exists_run_uncommitted (isLinked : Bool) (e : Fault) :
    ∃ q, (feedCorpus (wordsSink (.error e)) filesDesk "corpus" tracked).run
      ⟨twoTexts isLinked, none, {}⟩ = (.error e, q) := by
  generalize hp : (⟨twoTexts isLinked, none, {}⟩ : Progress Tree) = p
  obtain ⟨f, q, hrun, rfl⟩ := (feedCorpus_refused isLinked e hp.symm).exists_error
  exact ⟨q, hrun⟩

/-- The two growth files are read from one place where they are linked. -/
theorem not_load_linked {t : Tree}
    (hstands : ∀ k < 2, ∀ place, Growth.StandsAt (twoTexts true) "growth" k place →
      Growth.StandsAt t "growth" k place) :
    ¬(load t (filePath "growth" 0) = .ok (growthPoints ["cat", "dog"]) ∧
      load t (filePath "growth" 1) = .ok (growthPoints ["flow"])) := by
  rintro ⟨hfirst, hsecond⟩
  have hlinked : ∀ k < 2, Growth.StandsAt t "growth" k ["work", "growth", "heap-1.csv"] := by
    intro k hk
    obtain ⟨place, hplace, -, heq⟩ := standsAt_twoTexts true hk
    obtain rfl := heq rfl
    exact hstands k hk _ hplace
  have hboth := (hlinked 0 (by decide)).load_eq (hlinked 1 (by decide)) hfirst
  have heq := congrArg List.length (Except.ok.inj (hboth.symm.trans hsecond))
  rw [Growth.length_growthPoints, Growth.length_growthPoints] at heq
  exact absurd heq (by decide)

/-- Where the growth files are linked, the growth of a document is not what its file is loaded with,
and a sink may answer any fault before it has committed. -/
theorem not_load_twoTexts :
    (tracked.check = .ok () ∧ Corpus.load (twoTexts true) "corpus" = .ok twoDocuments ∧
      Sink.words "cat dog" = ["cat", "dog"] ∧ Sink.words "flow" = ["flow"] ∧
      ∃ summary q, (feedCorpus (wordsSink (.ok ())) filesDesk "corpus" tracked).run
        ⟨twoTexts true, none, {}⟩ = (.ok summary, q) ∧
          ¬(load q.sink (filePath "growth" 0) = .ok (growthPoints ["cat", "dog"]) ∧
            load q.sink (filePath "growth" 1) = .ok (growthPoints ["flow"]))) ∧
    ∀ e, ∃ q, (feedCorpus (wordsSink (.error e)) filesDesk "corpus" tracked).run
      ⟨twoTexts true, none, {}⟩ = (.error e, q) := by
  have hload := load_twoTexts true
  obtain ⟨q, hrun, hstands⟩ := exists_run_feedCorpus true
  have hlinked := not_load_linked hstands
  exact ⟨⟨by decide, hload, by cbv, by cbv, _, q, hrun, hlinked⟩, exists_run_uncommitted true⟩

/-- Without a link the run ends well, and names the growth files of the two documents. -/
theorem feedCorpus_course_twoTexts :
    ∃ summary q, (feedCorpus (wordsSink (.ok ())) filesDesk "corpus" tracked).run
        ⟨twoTexts false, none, {}⟩ = (.ok summary, q) ∧
      ∃ fed counts r, Completed (wordsSink (.ok ())) "content" twoDocuments (twoTexts false)
        (some {}) fed counts r ∧
      summary = { counts with growthFiles := [filePath "growth" 0, filePath "growth" 1] } := by
  obtain ⟨q, hrun, -⟩ := exists_run_feedCorpus false
  have hload := load_twoTexts false
  -- the files are not to be computed with from here on
  generalize twoTexts false = t at hrun hload ⊢
  obtain ⟨places, paths, texts, fed, counts, r, hlist, -, -, hread, hcompleted, hsummary, -⟩ :=
    (feedCorpus_course (wordsSink (.ok ())) filesDesk (fun _ _ => rfl) "corpus" tracked rfl
      t).of_ok hrun
  obtain ⟨paths', texts', hlist', hread', htexts'⟩ := Corpus.load_eq hload
  obtain rfl := Except.ok.inj (hlist.symm.trans hlist')
  have htexts : texts = texts' :=
    List.right_unique_forall₂' (fun _ _ _ ha hb => Except.ok.inj (ha.symm.trans hb)) hread hread'
  have hlength : paths.length = 2 := by
    rw [hread'.length_eq, ← List.length_mapIdx, ← htexts']
    rfl
  rw [htexts, ← htexts'] at hcompleted
  rw [hlength] at hsummary
  exact ⟨_, q, hrun, fed, counts, r, hcompleted, hsummary⟩

end Concordance.Indexing
