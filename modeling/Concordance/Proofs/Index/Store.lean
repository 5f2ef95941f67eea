import Concordance.Index.Store
import Concordance.Proofs.Files.Folder
import Concordance.Proofs.Files.Text
import Concordance.Proofs.Index.Catalog
import Concordance.Proofs.Workspace

/-!
# Concordance.Proofs.Index.Store

What opening finds in the folder of an index, and what it leaves there.

* `Stores`, `IsVacant`, `Contains` — what a folder holds;
* `reopen_vacant`, `reopen_stored` — opening it;
* `held` — the documents that are found where nothing is refused.
-/

namespace Concordance.OpenIndex

open Files
open Files.Tree (bytesOf Around LeadsTo Names Spares Straight Alters Grows)

variable {place : Place} {t u v : Tree} {segments : List Index.Segment} {a : Analyzer}

theorem isName_catalogName : IsName catalogName := by
  constructor <;> decide

theorem isName_analyzerName : IsName analyzerName := by
  constructor <;> decide

theorem append_analyzerName_ne (place : Place) :
    place ++ [analyzerName] ≠ place ++ [catalogName] := by
  intro heq
  have hname : analyzerName = catalogName := List.singleton_inj.mp (List.append_cancel_left heq)
  exact absurd hname (by decide)

/-! ## what a folder holds -/

/-- The folder at a place holds a catalog of segments. -/
structure HasCatalog (place : Place) (t : Tree) (segments : List Index.Segment) : Prop where
  folder : t.resolve true (absolute place) = .ok ⟨place, some .folder⟩
  catalog : ∃ room, t.node? (place ++ [catalogName]) =
    some (.file (bytesOf (Index.Catalog.toText segments)) room)

/-- The folder at a place holds a catalog of segments and the analyzer they were made with. -/
structure Stores (place : Place) (t : Tree) (segments : List Index.Segment) (a : Analyzer) : Prop
    extends HasCatalog place t segments where
  analyzer : ∃ room, t.node? (place ++ [analyzerName]) = some (.file (bytesOf a.toText) room)
  length : a.maxTokenLength < Decimal.wordLimit

/-- A place has no catalog, or an empty one. -/
def IsVacant (place : Place) (t : Tree) : Prop :=
  ∀ content room, t.node? (place ++ [catalogName]) = some (.file content room) →
    content = bytesOf (Index.Catalog.toText [])

/-- A place holds documents as one segment, or none. -/
inductive Contains (place : Place) (t : Tree) : List Index.Entry → Prop
  | vacant (h : IsVacant place t) : Contains place t []
  | stored {entries : List Index.Entry} {a : Analyzer} (hne : entries ≠ [])
      (h : Stores place t [entries] a) : Contains place t entries

theorem below_place (place : Place) (name : String) : place <+: place ++ [name] := by simp

theorem Stores.spares (h : Stores place t segments a) (hs : Spares place t u) :
    Stores place u segments a where
  folder := Tree.resolve_folder_grows hs.grows h.folder
  catalog := h.catalog.imp fun _ => hs.node?_of_some (below_place place _)
  analyzer := h.analyzer.imp fun _ => hs.node?_of_some (below_place place _)
  length := h.length

theorem IsVacant.spares (h : IsVacant place t) (hs : Spares place t u) : IsVacant place u := by
  intro content room hnode
  obtain heq | ⟨-, hfolder⟩ := hs.inside _ (below_place place catalogName)
  · exact h content room (heq.symm.trans hnode)
  · exact absurd (hfolder.symm.trans hnode) (by simp)

theorem Contains.spares {entries : List Index.Entry} (h : Contains place t entries)
    (hs : Spares place t u) : Contains place u entries := by
  cases h with
  | vacant h => exact .vacant (h.spares hs)
  | stored hne h => exact .stored hne (h.spares hs)

/-- A place has no catalog. -/
def IsCleared (place : Place) (t : Tree) : Prop :=
  ∀ content room, t.node? (place ++ [catalogName]) ≠ some (.file content room)

theorem IsCleared.isVacant (h : IsCleared place t) : IsVacant place t :=
  fun content room hnode => absurd hnode (h content room)

theorem isCleared_of_none (h : t.node? (place ++ [catalogName]) = none) : IsCleared place t :=
  fun _ _ hnode => absurd (h.symm.trans hnode) (by simp)

theorem isVacant_of_none (h : t.node? (place ++ [catalogName]) = none) : IsVacant place t :=
  (isCleared_of_none h).isVacant

theorem HasCatalog.isVacant (h : HasCatalog place t []) : IsVacant place t := by
  intro content room hnode
  obtain ⟨room', hcatalog⟩ := h.catalog
  cases hcatalog.symm.trans hnode
  rfl

/-! ## files in the folder -/

-- a path is not to be computed where an operation on it is taken apart
attribute [local irreducible] Tree.resolve

/-- A name in the folder stands for what is there: paths lead to it, and not through it. -/
theorem resolve_below (hu : Around place t u) {base name : String} (hname : IsName name)
    (hsize : name.utf8ByteSize ≤ Tree.nameLimit)
    (hbase : u.resolve true base = .ok ⟨place, some .folder⟩) :
    u.resolve true (join base name) = .ok ⟨place ++ [name], u.node? (place ++ [name])⟩ :=
  Tree.resolve_join hname hbase hsize (hu.node?_ne_link (below_place place name))

/-- Whatever a path below the folder leads to, the folder is on the way and
the name stands there. -/
theorem resolve_of_join (hu : Around place t u) {base name : String} (hbase : base ≠ "")
    (hleads : LeadsTo t place base) (hname : IsName name) {f : Bool} {spot : Tree.Spot}
    (h : u.resolve f (join base name) = .ok spot) :
    u.resolve true base = .ok ⟨place, some .folder⟩ ∧
      spot = ⟨place ++ [name], u.node? (place ++ [name])⟩ := by
  obtain ⟨p, hp, -, hspot⟩ := Tree.folder_of_resolve_join hname hbase h
  obtain rfl : p = place := hleads.place_eq u hu true _ hp
  have hplace := hspot (hu.node?_ne_link (below_place p name))
  obtain ⟨q, node⟩ := spot
  obtain rfl : q = p ++ [name] := hplace
  obtain rfl : node = u.node? (p ++ [name]) := (Tree.resolve_eq_ok_iff.mp h).2.1
  exact ⟨hp, rfl⟩

/-- A write to a file in the folder leaves a file there, or else nothing is changed. -/
theorem write_below (hu : Around place t u) {base name : String} (hbase : base ≠ "")
    (hleads : LeadsTo t place base) (hname : IsName name) (bytes : List UInt8) :
    (u.write (join base name) bytes).1 = u ∨
      ∃ content room, Alters u (u.write (join base name) bytes).1 (place ++ [name]) ∧
        (u.write (join base name) bytes).1.node? (place ++ [name]) = some (.file content room) := by
  refine (Tree.write_cases u (join base name) bytes).imp_right ?_
  rintro ⟨spot, content, room, hspot, halters, hnode⟩
  obtain ⟨-, rfl⟩ := resolve_of_join hu hbase hleads hname hspot
  exact ⟨content, room, halters, hnode⟩

/-- A write to a file in the folder that succeeds has written all of it. -/
theorem write_below_ok (hu : Around place t u) {base name : String} (hbase : base ≠ "")
    (hleads : LeadsTo t place base) (hname : IsName name) {bytes : List UInt8} (hbytes : bytes ≠ [])
    (h : u.write (join base name) bytes = (v, .ok ())) :
    Alters u v (place ++ [name]) ∧ ∃ room, v.node? (place ++ [name]) = some (.file bytes room) := by
  obtain ⟨spot, room, hspot, halters, hnode⟩ := Tree.write_ok hbytes h
  obtain ⟨-, rfl⟩ := resolve_of_join hu hbase hleads hname hspot
  exact ⟨halters, room, hnode⟩

theorem readText_of_resolve {path text : String} {p : Place} {room : Option Nat}
    (h : t.resolve true path = .ok ⟨p, some (.file (bytesOf text) room)⟩) :
    t.readText path = .ok text := by
  have hbytes : t.readBytes path = .ok (bytesOf text) := by
    rw [Tree.readBytes, h]
  rw [Tree.readText, hbytes]
  simp only [Tree.textOf?_bytesOf]

theorem catalogName_size : catalogName.utf8ByteSize ≤ Tree.nameLimit := by decide

theorem analyzerName_size : analyzerName.utf8ByteSize ≤ Tree.nameLimit := by decide

/-! ## the catalog -/

/-- The catalog is read as it was written, unless its segments are not mapped. -/
theorem HasCatalog.readCatalog (h : HasCatalog place u segments) (hu : Around place t u) :
    readCatalog u place = .ok segments ∨
      segments ≠ [] ∧ u.limits.unmapped.contains place = true ∧
        readCatalog u place = .error (.index .unusable) := by
  obtain ⟨room, hcatalog⟩ := h.catalog
  have hspot := resolve_below hu isName_catalogName catalogName_size h.folder
  rw [hcatalog] at hspot
  have hread := readText_of_resolve hspot
  unfold OpenIndex.readCatalog
  simp only [hread, Index.Catalog.ofText?_toText]
  split
  · next hlimits =>
    rw [Bool.and_eq_true, Bool.not_eq_true', List.isEmpty_eq_false_iff] at hlimits
    exact .inr ⟨hlimits.1, hlimits.2, rfl⟩
  · exact .inl rfl

/-- Where the catalog is read, it says what was written. -/
theorem HasCatalog.eq_of_readCatalog (h : HasCatalog place u segments) (hu : Around place t u)
    {base : List Index.Segment} (hbase : OpenIndex.readCatalog u place = .ok base) :
    base = segments := by
  obtain hread | ⟨-, -, hread⟩ := h.readCatalog hu
  · exact Except.ok.inj (hbase.symm.trans hread)
  · cases hbase.symm.trans hread

/-- An empty catalog has no segments to be mapped. -/
theorem HasCatalog.readCatalog_nil (h : HasCatalog place u []) (hu : Around place t u) :
    OpenIndex.readCatalog u place = .ok [] :=
  (h.readCatalog hu).resolve_right fun hlimits => hlimits.1 rfl

theorem isAbout_of_readCatalog {e : Fault} (h : readCatalog t place = .error e) :
    e = .index .unusable := by
  unfold OpenIndex.readCatalog at h
  split at h
  · cases h
    rfl
  · split at h
    · cases h
      rfl
    · split at h <;> cases h
      rfl

theorem not_isAboutGrowth_of_readCatalog {e : Fault} (h : readCatalog t place = .error e) :
    e.isAboutGrowth = false := by
  rw [isAbout_of_readCatalog h]
  rfl

theorem absolute_ne_empty (place : Place) : absolute place ≠ "" := by
  intro heq
  have hempty : (absolute place).toList = [] := by rw [heq]; rfl
  simp [absolute, Tree.pathOf] at hempty

/-- A catalog is published as a whole, or the one that is there stays. -/
theorem writeCatalog_cases (hleads : LeadsTo t place (absolute place)) (hu : Around place t u)
    (segments : List Index.Segment) :
    writeCatalog segments place u = (u, .error (.index .unusable)) ∨
      ∃ v, writeCatalog segments place u = (v, .ok ()) ∧ Alters u v (place ++ [catalogName]) ∧
        HasCatalog place v segments := by
  unfold writeCatalog
  obtain ⟨e, hreplace⟩ | ⟨p, node, hspot, hnode, hreplace⟩ := Tree.replace_cases u
    (join (absolute place) catalogName) (bytesOf (Index.Catalog.toText segments))
  · exact .inl (by rw [hreplace])
  obtain ⟨hfolder, hplace⟩ :=
    resolve_of_join hu (absolute_ne_empty place) hleads isName_catalogName hspot
  obtain ⟨rfl, rfl⟩ := Tree.Spot.mk.inj hplace
  have hway : Tree.isWay (u.node? (place ++ [catalogName])) = false := by
    cases hold : u.node? (place ++ [catalogName]) with
    | none => rfl
    | some old =>
        obtain rfl | ⟨content, room, rfl⟩ := hu.inside _ old (below_place place _) hold
        · exact absurd hold hnode
        · rfl
  have halters : Alters u
      (u.put (place ++ [catalogName]) (.file (bytesOf (Index.Catalog.toText segments))
        (u.roomFor (place ++ [catalogName])))) (place ++ [catalogName]) :=
    Tree.put_alters hway rfl
  rw [hreplace]
  refine .inr ⟨_, rfl, halters, Tree.resolve_folder_grows halters.grows hfolder,
    u.roomFor (place ++ [catalogName]), ?_⟩
  rw [Tree.node?_put, if_pos rfl]

/-- Where nothing is refused a catalog is published unless a folder has its name. -/
theorem writeCatalog_of_unlimited (hlimits : u.limits = {}) (hu : Around place t u)
    (hfolder : u.resolve true (absolute place) = .ok ⟨place, some .folder⟩)
    (hnode : u.node? (place ++ [catalogName]) ≠ some .folder) (segments : List Index.Segment) :
    writeCatalog segments place u =
      (u.put (place ++ [catalogName]) (.file (bytesOf (Index.Catalog.toText segments)) none),
        .ok ()) := by
  have hspot := Tree.resolve_join isName_catalogName (f := false) hfolder catalogName_size
    (hu.node?_ne_link (below_place place catalogName))
  unfold writeCatalog
  rw [Tree.replace_of_resolve hlimits hspot (demandsFolder_join isName_catalogName _) hnode]

/-! ## opening -/

theorem not_isAboutGrowth_of_filesFault {α : Type} {answer : Except Refusal α} {e : Fault}
    (h : Job.filesFault answer = .error e) : e.isAboutGrowth = false := by
  cases answer <;> cases h
  rfl

theorem exists_resolve_of_isThere {path : String} (h : t.isThere path = true) :
    ∃ p node, t.resolve true path = .ok ⟨p, some node⟩ := by
  unfold Tree.isThere at h
  split at h
  · exact ⟨_, _, ‹_›⟩
  · cases h

/-- A catalog that is there is read, unless its segments are not mapped. -/
theorem openCatalog_stored {w : Workspace} (hu : Around place t w.files)
    (h : HasCatalog place w.files segments) :
    Ensures (openCatalog place) w (fun s v => s = segments ∧ v = w)
      (fun e v => v = w ∧ e = .index .unusable ∧ segments ≠ [] ∧
        w.files.limits.unmapped.contains place = true) := by
  obtain ⟨room, hcatalog⟩ := h.catalog
  have hspot := resolve_below hu isName_catalogName catalogName_size h.folder
  rw [hcatalog] at hspot
  have hthere : w.files.isThere (join (absolute place) catalogName) = true := by
    rw [Tree.isThere, hspot]
  refine ensures_get_bind ?_
  rw [if_pos hthere]
  obtain hread | ⟨hne, hunmapped, hread⟩ := h.readCatalog hu
  · refine Job.ensures_inspect (fun s hs => ⟨Except.ok.inj (hs.symm.trans hread), rfl⟩)
      fun e he => ?_
    cases he.symm.trans hread
  · refine Job.ensures_inspect (fun s hs => ?_) fun e he => ⟨rfl, ?_, hne, hunmapped⟩
    · cases hs.symm.trans hread
    · exact Except.error.inj (he.symm.trans hread)

/-- An empty catalog is found or published. -/
theorem openCatalog_vacant (hleads : LeadsTo t place (absolute place)) {w : Workspace}
    (hu : Around place t w.files) (hvacant : IsVacant place w.files) :
    Ensures (openCatalog place) w
      (fun s v => s = [] ∧ Around place t v.files ∧ Grows w.files v.files ∧
        HasCatalog place v.files [])
      (fun e v => v.files = w.files ∧ e.isAboutGrowth = false) := by
  by_cases hthere : w.files.isThere (join (absolute place) catalogName) = true
  · obtain ⟨p, node, hspot⟩ := exists_resolve_of_isThere hthere
    obtain ⟨hfolder, hbelow⟩ :=
      resolve_of_join hu (absolute_ne_empty place) hleads isName_catalogName hspot
    have hnode : w.files.node? (place ++ [catalogName]) = some node :=
      (congrArg Tree.Spot.node hbelow).symm
    -- what is there can only be a folder, which is not read, or the empty catalog
    obtain rfl | ⟨content, room, rfl⟩ := hu.inside _ node (below_place place catalogName) hnode
    · refine ensures_get_bind ?_
      rw [if_pos hthere]
      refine Job.ensures_inspect (fun s hs => ?_) fun e he =>
        ⟨rfl, not_isAboutGrowth_of_readCatalog he⟩
      unfold readCatalog at hs
      rw [Tree.readText, Tree.readBytes, hspot] at hs
      cases hs
    · obtain rfl := hvacant content room hnode
      refine (openCatalog_stored hu ⟨hfolder, room, hnode⟩).mono (fun s v hv => ?_)
        fun e v hv => absurd rfl hv.2.2.1
      rw [hv.2]
      exact ⟨hv.1, hu, .refl _, hfolder, room, hnode⟩
  · refine ensures_get_bind ?_
    rw [if_neg hthere]
    obtain hwrite | ⟨u, hwrite, halters, hcatalog⟩ := writeCatalog_cases hleads hu []
    all_goals
      refine Job.ensures_alter_bind (fun v _ h => ensures_pure ?_) fun v e h => ?_
      all_goals
        rw [hwrite] at h
        cases h
    · exact ⟨rfl, rfl⟩
    · obtain ⟨room, hnode⟩ := hcatalog.catalog
      exact ⟨rfl, hu.alters halters hnode, halters.grows, hcatalog⟩

theorem toText_ne_nil (h : a.maxTokenLength < Decimal.wordLimit) : bytesOf a.toText ≠ [] := by
  intro hnil
  have htext : some a.toText = some "" := by
    rw [← Tree.textOf?_bytesOf, hnil]
    rfl
  have hread := Analyzer.ofText?_toText h
  have hempty : Analyzer.ofText? "" = none := by decide
  rw [Option.some.inj htext, hempty] at hread
  cases hread

/-- The analyzer that is asked for is stored beside an index without documents. -/
theorem openAnalyzer_created {c : Config} {w : Workspace} (hu : Around place t w.files)
    (hpath : LeadsTo t place c.indexFolder) (hne : c.indexFolder ≠ "")
    (hlength : c.maxTokenLength < Decimal.wordLimit) :
    Ensures (openAnalyzer c .created) w
      (fun a v => a = Analyzer.ofConfig c ∧ Alters w.files v.files (place ++ [analyzerName]) ∧
        ∃ room, v.files.node? (place ++ [analyzerName]) = some (.file (bytesOf a.toText) room))
      (fun e v => e.isAboutGrowth = false ∧ (v.files = w.files ∨
        ∃ content room, Alters w.files v.files (place ++ [analyzerName]) ∧
          v.files.node? (place ++ [analyzerName]) = some (.file content room))) := by
  refine ensures_get_bind ?_
  rw [if_neg fun h => absurd h.1 (by decide)]
  refine Job.ensures_alter_bind (fun v _ h => ensures_pure ?_) fun v e h => ?_
  · rcases hwrite : w.files.write (join c.indexFolder analyzerName)
      (bytesOf (Analyzer.ofConfig c).toText) with ⟨v', e | _⟩
    all_goals
      rw [writeAnalyzer, hwrite] at h
      cases h
    exact ⟨rfl, write_below_ok hu hne hpath isName_analyzerName (toText_ne_nil hlength) hwrite⟩
  · obtain ⟨rfl, he⟩ := Prod.mk.inj h
    exact ⟨not_isAboutGrowth_of_filesFault he,
      write_below hu hne hpath isName_analyzerName (bytesOf (Analyzer.ofConfig c).toText)⟩

/-- The analyzer is read as it was written. -/
theorem Stores.readAnalyzer (h : Stores place u segments a) (hu : Around place t u) {path : String}
    (hpath : u.resolve true path = .ok ⟨place, some .folder⟩) :
    readAnalyzer (join path analyzerName) u = .ok a := by
  obtain ⟨room, hanalyzer⟩ := h.analyzer
  have hspot := resolve_below hu isName_analyzerName analyzerName_size hpath
  rw [hanalyzer] at hspot
  have htext := readText_of_resolve hspot
  unfold OpenIndex.readAnalyzer
  simp only [htext, Analyzer.ofText?_toText h.length]

/-- The analyzer beside an index with documents wins over the one that is asked for. -/
theorem openAnalyzer_existing {c : Config} {w : Workspace} (hu : Around place t w.files)
    (h : Stores place w.files segments a)
    (hpath : w.files.resolve true c.indexFolder = .ok ⟨place, some .folder⟩) :
    Ensures (openAnalyzer c .existing) w (fun b v => b = a ∧ v.files = w.files)
      (fun _ _ => False) := by
  obtain ⟨room, hanalyzer⟩ := h.analyzer
  have hspot := resolve_below hu isName_analyzerName analyzerName_size hpath
  rw [hanalyzer] at hspot
  have hfile : w.files.isFile (join c.indexFolder analyzerName) = true := by
    rw [Tree.isFile, hspot]
  have hread := h.readAnalyzer hu hpath
  refine ensures_get_bind ?_
  rw [if_pos ⟨rfl, hfile⟩]
  refine Job.ensures_inspect_bind (fun b hb => ?_) fun e he => ?_
  · obtain rfl : b = a := Except.ok.inj (hb.symm.trans hread)
    dsimp only
    split
    · exact ⟨rfl, rfl⟩
    · exact ⟨rfl, rfl⟩
  · exact absurd (he.symm.trans hread) (by simp)

/-! ## the folder -/

/-- An index without documents in a folder, as the settings ask for it. -/
def fresh (place : Place) (c : Config) : OpenIndex where
  index := { analyzer := Analyzer.ofConfig c, writerMemory := c.writerMemory }
  folder := some place

/-- An index with documents in a folder. -/
def reused (place : Place) (c : Config) (segments : List Index.Segment) (a : Analyzer) :
    OpenIndex where
  index :=
    { analyzer := a, writerMemory := c.writerMemory, stored := segments, published := segments }
  folder := some place

/-- Open the index in a folder that is there. -/
def openAt (c : Config) (folder : Place) : Job (OpenIndex × Found) := do
  let segments ← openCatalog folder
  let found := if segments.isEmpty then Found.created else Found.existing
  let analyzer ← openAnalyzer c found
  let index : Index :=
    { analyzer := analyzer, writerMemory := c.writerMemory, stored := segments,
      published := segments }
  return ({ index := index, folder := some folder }, found)

/-- Open the index in a folder, making it if there is none. -/
def reopen (c : Config) : Job (OpenIndex × Found) := do
  Job.alter fun t =>
    let (t, answer) := t.makeFolders c.indexFolder
    (t, Job.filesFault answer)
  let folder ← Job.inspect (folderAt c.indexFolder)
  openAt c folder

/-- Remove what is in the folder of an index if the settings ask for that. -/
def removal (c : Config) : Job Unit :=
  if c.regenerate then removeIndex c.indexFolder else pure ()

theorem openFolder_eq (c : Config) : openFolder c = removal c >>= fun _ => reopen c := by
  unfold openFolder removal
  split <;> rfl

theorem openFolder_eq_reopen {c : Config} (h : c.regenerate = false) :
    openFolder c = reopen c := by
  rw [openFolder, if_neg (by rw [h]; decide)]
  rfl

/-- A place holds documents, whatever was written elsewhere. -/
structure Holding (place : Place) (t : Tree) (entries : List Index.Entry) (u : Tree) : Prop where
  around : Around place t u
  contains : Contains place u entries

theorem Holding.isVacant (h : Holding place t [] u) : IsVacant place u := by
  cases h.contains with
  | vacant h => exact h
  | stored hne => exact absurd rfl hne

/-- What is refused has nothing to do with what is held. -/
theorem Holding.limited {entries : List Index.Entry} (h : Holding place t entries u)
    (limits : Limits) : Holding place t entries { u with limits := limits } := by
  have hgrows : Grows u { u with limits := limits } := ⟨rfl, fun _ hp => hp, fun _ _ => .rfl⟩
  refine ⟨h.around.limited limits, ?_⟩
  cases h.contains with
  | vacant hvacant => exact .vacant hvacant
  | stored hne h =>
      exact .stored hne
        ⟨⟨Tree.resolve_folder_grows hgrows h.folder, h.catalog⟩, h.analyzer, h.length⟩

theorem Holding.spares {entries : List Index.Entry} (h : Holding place t entries u)
    (hs : Spares place u v) : Holding place t entries v :=
  ⟨h.around.spares hs, h.contains.spares hs⟩

theorem openAt_vacant (hleads : LeadsTo t place (absolute place)) {c : Config}
    (hpath : LeadsTo t place c.indexFolder) (hlength : c.maxTokenLength < Decimal.wordLimit)
    {w : Workspace} (hw : Holding place t [] w.files)
    (hfolder : w.files.resolve true c.indexFolder = .ok ⟨place, some .folder⟩) :
    Ensures (openAt c place) w
      (fun r v => r = (fresh place c, .created) ∧ Around place t v.files ∧
        Stores place v.files [] (Analyzer.ofConfig c))
      (fun e v => Holding place t [] v.files ∧ e.isAboutGrowth = false) := by
  have hne : c.indexFolder ≠ "" := (Tree.resolve_eq_ok_iff.mp hfolder).1.nonempty
  have hcatalog := (openCatalog_vacant hleads hw.around hw.isVacant).imp_error
    fun e v (h : v.files = w.files ∧ e.isAboutGrowth = false) =>
      (⟨by rw [h.1]; exact hw, h.2⟩ : Holding place t [] v.files ∧ e.isAboutGrowth = false)
  refine hcatalog.bind fun s v hs => ?_
  obtain ⟨rfl, hv, hgrows, hhas⟩ := hs
  -- the catalog is as it was, however far the analyzer was written
  have hkept : ∀ {u : Tree}, Alters v.files u (place ++ [analyzerName]) →
      HasCatalog place u [] := by
    intro u halters
    refine ⟨Tree.resolve_folder_grows halters.grows hhas.folder, hhas.catalog.imp fun room h => ?_⟩
    exact (halters.other _ (append_analyzerName_ne place).symm).trans h
  refine Ensures.bind ((openAnalyzer_created hv hpath hne hlength).imp_error fun e u he => ?_)
    fun a u ha => ensures_pure ?_
  · refine ⟨?_, he.1⟩
    obtain heq | ⟨content, room, halters, hnode⟩ := he.2
    · rw [heq]
      exact ⟨hv, .vacant hhas.isVacant⟩
    · exact ⟨hv.alters halters hnode, .vacant (hkept halters).isVacant⟩
  · obtain ⟨rfl, halters, room, hnode⟩ := ha
    exact ⟨rfl, hv.alters halters hnode, hkept halters, ⟨room, hnode⟩, hlength⟩

theorem openAt_stored {c : Config} {w : Workspace} (hu : Around place t w.files)
    (h : Stores place w.files segments a) (hne : segments ≠ [])
    (hfolder : w.files.resolve true c.indexFolder = .ok ⟨place, some .folder⟩) :
    Ensures (openAt c place) w
      (fun r v => r = (reused place c segments a, .existing) ∧ v.files = w.files)
      (fun _ v => v.files = w.files ∧ w.files.limits.unmapped.contains place = true) := by
  have hcatalog := openCatalog_stored hu h.toHasCatalog
  refine Ensures.bind (hcatalog.imp_error fun e v hv => ⟨by rw [hv.1], hv.2.2.2⟩) fun s v hs => ?_
  obtain ⟨rfl, rfl⟩ := hs
  have hfound : s.isEmpty = false := by simpa using hne
  simp only [hfound, Bool.false_eq_true, if_false]
  refine Ensures.bind ((openAnalyzer_existing hu h hfolder).imp_error fun _ _ hfalse => hfalse.elim)
    fun b u hb => ensures_pure ?_
  obtain ⟨rfl, hu'⟩ := hb
  exact ⟨rfl, hu'⟩

theorem folderAt_ok {path : String} {p : Place} (h : folderAt path t = .ok p) :
    t.resolve true path = .ok ⟨p, some .folder⟩ := by
  unfold folderAt at h
  split at h
  · cases h
    assumption
  · cases h

theorem not_isAboutGrowth_of_folderAt {path : String} {e : Fault} (h : folderAt path t = .error e) :
    e.isAboutGrowth = false := by
  unfold folderAt at h
  split at h <;> cases h
  rfl

/-- Where no documents are, an index without documents is made, or else there are still none. -/
theorem reopen_vacant (hleads : LeadsTo t place (absolute place)) {c : Config}
    (hpath : LeadsTo t place c.indexFolder) (hlength : c.maxTokenLength < Decimal.wordLimit)
    {w : Workspace} (hw : Holding place t [] w.files) :
    Ensures (reopen c) w
      (fun r v => r = (fresh place c, .created) ∧ Around place t v.files ∧
        Stores place v.files [] (Analyzer.ofConfig c))
      (fun e v => Holding place t [] v.files ∧ e.isAboutGrowth = false) := by
  have hmade := hw.spares ((Tree.makeFolders_adds w.files c.indexFolder).spares place)
  refine Job.ensures_alter_bind (fun u _ h => ?_) fun u e h => ?_
  · obtain ⟨rfl, -⟩ := Prod.mk.inj h
    refine Job.ensures_inspect_bind (fun p hp => ?_) fun e he =>
      ⟨hmade, not_isAboutGrowth_of_folderAt he⟩
    have hfolder := folderAt_ok hp
    obtain rfl : p = place := hpath.place_eq _ hmade.around true _ hfolder
    exact openAt_vacant hleads hpath hlength hmade hfolder
  · obtain ⟨rfl, he⟩ := Prod.mk.inj h
    exact ⟨hmade, not_isAboutGrowth_of_filesFault he⟩

/-- Where documents are, they are found, or else they are still there. -/
theorem reopen_stored {c : Config} (hpath : LeadsTo t place c.indexFolder) {w : Workspace}
    (hu : Around place t w.files) (h : Stores place w.files segments a) (hne : segments ≠ []) :
    Ensures (reopen c) w
      (fun r v => r = (reused place c segments a, .existing) ∧ Spares place w.files v.files)
      (fun _ v => Spares place w.files v.files) := by
  have hmade := (Tree.makeFolders_adds w.files c.indexFolder).spares place
  refine Job.ensures_alter_bind (fun u _ hu' => ?_) fun u e hu' => ?_
  · obtain ⟨rfl, -⟩ := Prod.mk.inj hu'
    refine Job.ensures_inspect_bind (fun p hp => ?_) fun _ _ => hmade
    have hfolder := folderAt_ok hp
    obtain rfl : p = place := hpath.place_eq _ (hu.spares hmade) true _ hfolder
    refine (openAt_stored (hu.spares hmade) (h.spares hmade) hne hfolder).mono (fun r v hr => ?_)
      fun _ v hv => ?_
    · rw [hr.2]
      exact ⟨hr.1, hmade⟩
    · rw [hv.1]
      exact hmade
  · obtain ⟨rfl, -⟩ := Prod.mk.inj hu'
    exact hmade

/-! ## what an opening keeps -/

theorem limits_writeCatalog (segments : List Index.Segment) (place : Place) (u : Tree) :
    (writeCatalog segments place u).1.limits = u.limits := by
  have hreplace := Tree.limits_replace u (join (absolute place) catalogName)
    (bytesOf (Index.Catalog.toText segments))
  unfold writeCatalog
  split
  all_goals
    next heq =>
    rw [heq] at hreplace
    exact hreplace

/-- No opening changes what is refused. -/
theorem openFolder_limits (c : Config) (limits : Limits) :
    Job.Keeps (fun u => u.limits = limits) (openFolder c) := by
  have hremoval : Job.Keeps (fun u => u.limits = limits) (removal c) := by
    unfold removal
    split
    · refine Job.keeps_get.bind fun w => ?_
      split
      · refine Job.Keeps.bind (Job.keeps_alter fun u hu => ?_) fun _ =>
          Job.keeps_modify fun _ => rfl
        exact (Tree.limits_removeFolder u _).trans hu
      · exact Job.keeps_pure _
    · exact Job.keeps_pure _
  have hcatalog : ∀ place, Job.Keeps (fun u => u.limits = limits) (openCatalog place) := by
    refine fun place => Job.keeps_get.bind fun w => ?_
    split
    · exact Job.keeps_inspect _
    · exact Job.Keeps.bind (Job.keeps_alter fun u hu => (limits_writeCatalog _ _ u).trans hu)
        fun _ => Job.keeps_pure _
  have hanalyzer : ∀ found, Job.Keeps (fun u => u.limits = limits) (openAnalyzer c found) := by
    refine fun found => Job.keeps_get.bind fun w => ?_
    dsimp only
    split
    · refine (Job.keeps_inspect _).bind fun a => ?_
      split
      · exact (Job.keeps_warn _).bind fun _ => Job.keeps_pure a
      · exact Job.keeps_pure a
    · refine Job.Keeps.bind (Job.keeps_alter fun u hu => ?_) fun _ => Job.keeps_pure _
      exact (Tree.limits_write u _ _).trans hu
  rw [openFolder_eq]
  refine hremoval.bind fun _ => Job.Keeps.bind (Job.keeps_alter fun u hu => ?_) fun _ =>
    (Job.keeps_inspect _).bind fun place => (hcatalog place).bind fun segments => ?_
  · exact (Tree.makeFolders_adds u c.indexFolder).limits.trans hu
  · exact (hanalyzer _).bind fun a => Job.keeps_pure _

/-- Opening keeps the documents, whether it fails or not. -/
theorem reopen_keeps (hleads : LeadsTo t place (absolute place)) {c : Config}
    (hpath : LeadsTo t place c.indexFolder) (hlength : c.maxTokenLength < Decimal.wordLimit)
    (entries : List Index.Entry) : Job.Keeps (Holding place t entries) (reopen c) := by
  refine Job.keeps_of_ensures fun w hw => ?_
  cases hw.contains with
  | vacant h =>
      exact (reopen_vacant hleads hpath hlength hw).mono
        (fun _ _ hv => ⟨hv.2.1, .vacant hv.2.2.isVacant⟩) fun _ _ hv => hv.1
  | stored hne h =>
      exact (reopen_stored hpath hw.around h (by simp)).mono (fun _ _ hv => hw.spares hv.2)
        fun _ _ hv => hw.spares hv

/-- Where documents are, they are found, or else they are still there. -/
theorem reopen_existing {c : Config} (hpath : LeadsTo t place c.indexFolder)
    {entries : List Index.Entry} (hne : entries ≠ []) {w : Workspace}
    (hw : Holding place t entries w.files) :
    Ensures (reopen c) w (fun r v => r.2 = .existing ∧ Holding place t entries v.files)
      (fun _ v => Holding place t entries v.files) := by
  cases hw.contains with
  | vacant => exact absurd rfl hne
  | stored _ h =>
      refine (reopen_stored hpath hw.around h (by simp)).mono (fun r v hr => ?_)
        fun _ v hv => hw.spares hv
      rw [hr.1]
      exact ⟨rfl, hw.spares hr.2⟩

/-! ## the documents that are held -/

/-- The documents that the index at a place holds: those that are found where it is opened without
regenerating and nothing is refused.  Where nothing can be opened there are none. -/
def held (place : Place) (w : Workspace) : List Index.Entry :=
  match ExceptT.run (openFolder { indexFolder := absolute place })
      { w with files := { w.files with limits := {} } } with
  | (.ok (o, _), _) => o.index.published.flatten
  | (.error _, _) => []

/-- The folders of a path that leads to a folder are there already. -/
theorem makeFolders_absolute (hplace : Straight t place) (hu : Around place t u)
    (hfolder : u.resolve true (absolute place) = .ok ⟨place, some .folder⟩) :
    u.makeFolders (absolute place) = (u, .ok ()) := by
  obtain ⟨hreaches, hnode, -⟩ := Tree.resolve_eq_ok_iff.mp hfolder
  have hnul : ¬(absolute place).toList.contains '\x00' = true := by simpa using hreaches.nul
  have habsolute : isAbsolute (absolute place) = true := Tree.isAbsolute_pathOf place
  have hnames' : names (absolute place) = place := names_pathOf hplace.isName
  obtain ⟨⟨p, node⟩, hspot⟩ := Tree.exists_resolve_false hfolder
  obtain rfl : p = place := hplace.names.place_eq u hu false _ hspot
  obtain rfl : node = some .folder := (Tree.resolve_eq_ok_iff.mp hspot).2.1.trans hnode.symm
  have hmake : u.makeFolder (absolute p) = .error .alreadyExists := by
    rw [Tree.makeFolder, hspot]
  have hthere : u.isFolder (absolute p) = true := by
    rw [Tree.isFolder, hfolder]
  rw [Tree.makeFolders, if_neg hnul, habsolute, hnames']
  cases hreverse : p.reverse with
  | nil => rfl
  | cons name above =>
      have hpath : Tree.pathOf true (name :: above).reverse = absolute p := by
        rw [← hreverse, List.reverse_reverse, absolute]
      rw [Tree.makeFoldersUp]
      simp only [hpath, hmake, hthere, if_true]

/-- Once the folders of a path are made, what is in the last one is opened. -/
theorem reopen_of_made {c : Config} {w : Workspace} {good : OpenIndex × Found → Workspace → Prop}
    {bad : Fault → Workspace → Prop} (hmade : w.files.makeFolders c.indexFolder = (u, .ok ()))
    (hfolder : u.resolve true c.indexFolder = .ok ⟨place, some .folder⟩)
    (h : Ensures (openAt c place) { w with files := u } good bad) :
    Ensures (reopen c) w good bad := by
  refine Job.ensures_alter_bind (fun v _ hv => ?_) fun v e hv => ?_
  · rw [hmade] at hv
    obtain ⟨rfl, -⟩ := Prod.mk.inj hv
    refine Job.ensures_inspect_bind (fun p hp => ?_) fun e he => ?_
    · have hp' := (folderAt_ok hp).symm.trans hfolder
      obtain rfl : p = place := congrArg Tree.Spot.place (Except.ok.inj hp')
      exact h
    · rw [folderAt, hfolder] at he
      cases he
  · rw [hmade] at hv
    cases hv

/-- By a path whose folders are there already an index with documents is found, if it is mapped. -/
theorem reopen_there {c : Config} {w : Workspace} (hu : Around place t w.files)
    (h : Stores place w.files segments a) (hne : segments ≠ [])
    (hmapped : w.files.limits.unmapped = [])
    (hfolder : w.files.resolve true c.indexFolder = .ok ⟨place, some .folder⟩)
    (hmade : w.files.makeFolders c.indexFolder = (w.files, .ok ())) :
    Ensures (reopen c) w
      (fun r v => r = (reused place c segments a, .existing) ∧ v.files = w.files)
      (fun _ _ => False) := by
  refine reopen_of_made hmade hfolder ((openAt_stored hu h hne hfolder).imp_error fun _ _ hv => ?_)
  have hunmapped := hv.2
  rw [hmapped] at hunmapped
  cases hunmapped

/-- What is stored is what is held. -/
theorem held_eq {entries : List Index.Entry} (hplace : Straight t place) {w : Workspace}
    (hw : Holding place t entries w.files) : held place w = entries := by
  have hw' := hw.limited {}
  have hrun : Ensures (openFolder { indexFolder := absolute place })
      { w with files := { w.files with limits := {} } }
      (fun r _ => r.1.index.published.flatten = entries) (fun _ _ => entries = []) := by
    rw [openFolder_eq_reopen rfl]
    have hleads := hplace.names.toLeadsTo
    cases hw'.contains with
    | vacant _ =>
        have hlength : 40 < Decimal.wordLimit := by decide
        refine (reopen_vacant hleads hleads hlength hw').mono (fun r v hr => ?_) fun _ _ _ => rfl
        rw [hr.1]
        rfl
    | stored hne h =>
        have hmade := makeFolders_absolute hplace hw'.around h.folder
        have hfound := reopen_there (c := { indexFolder := absolute place })
          (w := { w with files := { w.files with limits := {} } }) hw'.around h
          (List.cons_ne_nil _ []) rfl h.folder hmade
        refine hfound.mono (fun r v hr => ?_) fun _ _ hfalse => hfalse.elim
        rw [hr.1]
        exact List.flatten_singleton
  unfold held
  split
  · next hrun' => exact hrun.of_ok hrun'
  · next hrun' => exact (hrun.of_error hrun').symm

end Concordance.OpenIndex
