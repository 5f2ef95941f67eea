import Concordance.Proofs.Index.Removal

/-!
# Concordance.Proofs.Index.Making

An index that is made in a folder for work, where there was none and nothing is refused.

* `made` — the files of an index without documents;
* `IsDesk` — the folder for work, and what paths lead to there;
* `IsDesk.openFolder` — an opening makes these files and nothing else.
-/

namespace Concordance.OpenIndex

open Files
open Files.Tree (Around Names Straight bytesOf)

variable {place : Place} {t : Tree} {c : Config} {w : Workspace}

/-- A tree with an empty catalog in a folder. -/
def listed (place : Place) (t : Tree) : Tree :=
  t.put (place ++ [catalogName]) (.file (bytesOf (Index.Catalog.toText [])) none)

/-- A tree with the files of an index without documents. -/
def made (place : Place) (c : Config) (t : Tree) : Tree :=
  (listed place t).put (place ++ [analyzerName])
    (.file (bytesOf (Analyzer.ofConfig c).toText) none)

/-- In an empty folder where nothing is refused the files of an index are made. -/
theorem openAt_new (hplace : Straight t place) (hu : Around place t w.files)
    (hlimits : w.files.limits = {})
    (hthere : w.files.resolve true (absolute place) = .ok ⟨place, some .folder⟩)
    (hfolder : w.files.resolve true c.indexFolder = .ok ⟨place, some .folder⟩)
    (hnone : ∀ name, w.files.node? (place ++ [name]) = none) :
    Ensures (openAt c place) w
      (fun r v => r = (fresh place c, .created) ∧ v = { w with files := made place c w.files })
      (fun _ _ => False) := by
  have habsent : ¬w.files.isThere (join (absolute place) catalogName) = true := by
    rw [Tree.isThere, resolve_below hu isName_catalogName catalogName_size hthere, hnone]
    simp
  have hwritten : writeCatalog [] place w.files = (listed place w.files, .ok ()) :=
    writeCatalog_of_unlimited hlimits hu hthere (by rw [hnone]; simp) []
  obtain hrefused | ⟨u, hcatalog, halters, hhas⟩ :=
    writeCatalog_cases hplace.names.toLeadsTo hu ([] : List Index.Segment)
  · cases congrArg Prod.snd (hrefused.symm.trans hwritten)
  obtain rfl := (Prod.mk.inj (hwritten.symm.trans hcatalog)).1
  have hopen : Ensures (openCatalog place) w
      (fun s v => s = [] ∧ v = { w with files := listed place w.files })
      (fun _ _ => False) := by
    refine ensures_get_bind ?_
    rw [if_neg habsent]
    refine Job.ensures_alter_bind (fun v _ h => ?_) fun v e h => ?_
    all_goals
      rw [hwritten] at h
      cases h
    exact ensures_pure ⟨rfl, rfl⟩
  refine hopen.bind fun s v hs => ?_
  obtain ⟨rfl, rfl⟩ := hs
  obtain ⟨room, hnode⟩ := hhas.catalog
  have hspot := resolve_below (hu.alters halters hnode) isName_analyzerName analyzerName_size
    (Tree.resolve_folder_grows halters.grows hfolder)
  rw [halters.other _ (append_analyzerName_ne place), hnone] at hspot
  have hwrite := Tree.write_of_none (halters.limits.trans hlimits) hspot
    (demandsFolder_join isName_analyzerName c.indexFolder) (bytesOf (Analyzer.ofConfig c).toText)
  have hstore : Ensures (openAnalyzer c .created) { w with files := listed place w.files }
      (fun a v => a = Analyzer.ofConfig c ∧ v = { w with files := made place c w.files })
      (fun _ _ => False) := by
    refine ensures_get_bind ?_
    rw [if_neg fun h => absurd h.1 (by decide)]
    refine Job.ensures_alter_bind (fun v _ h => ?_) fun v e h => ?_
    all_goals
      simp only [writeAnalyzer, hwrite] at h
      cases h
    exact ensures_pure ⟨rfl, rfl⟩
  refine hstore.bind fun a v ha => ?_
  obtain ⟨rfl, rfl⟩ := ha
  exact ensures_pure ⟨rfl, rfl⟩

/-! ## a folder for work -/

/-- The place of the index. -/
def indexPlace : Place := ["work", "index"]

/-- A folder for work in which nothing has the name of the index yet.  There are no links, nothing
is refused and no writer is open. -/
structure IsDesk (w : Workspace) : Prop where
  home : w.files.home = ["work"]
  root : w.files.node? [] = some .folder
  folder : w.files.node? ["work"] = some .folder
  fresh : ∀ e ∈ w.files.nodes, ¬indexPlace <+: e.1
  link : ∀ e ∈ w.files.nodes, ∀ target, e.2 ≠ .link target
  limits : w.files.limits = {}
  locks : w.locks = []

theorem isName_of_indexPlace : ∀ name ∈ indexPlace, IsName name := by
  intro name hname
  simp only [indexPlace, List.mem_cons, List.not_mem_nil, or_false] at hname
  obtain rfl | rfl := hname <;> constructor <;> decide

theorem isName_index : IsName "index" := isName_of_indexPlace _ (by decide)

namespace IsDesk

variable (h : IsDesk w)
include h

theorem node?_eq_none {p : Place} (hp : indexPlace <+: p) : w.files.node? p = none := by
  cases hnode : w.files.node? p with
  | none => rfl
  | some node => exact absurd hp (h.fresh _ (Tree.mem_of_node? hnode))

theorem node?_ne_link (p : Place) (target : String) : w.files.node? p ≠ some (.link target) :=
  fun hnode => h.link _ (Tree.mem_of_node? hnode) target rfl

theorem around : Around indexPlace w.files w.files := .refl fun _ => h.node?_eq_none

theorem straight : Straight w.files indexPlace :=
  ⟨isName_of_indexPlace, fun p target _ => h.node?_ne_link p target⟩

theorem names : Names w.files indexPlace "index" := by
  have hhome : w.files.node? w.files.home = some .folder := by rw [h.home, h.folder]
  have hnames := Tree.names_name isName_index (by decide) hhome h.node?_ne_link
  rwa [h.home] at hnames

section Around

variable {u : Tree} (hu : Around indexPlace w.files u)
include hu

theorem resolve_index (f : Bool) :
    u.resolve f "index" = .ok ⟨indexPlace, u.node? indexPlace⟩ := by
  have hplace : w.files.home ++ ["index"] = indexPlace := by rw [h.home]; rfl
  have hhome : w.files.node? w.files.home = some .folder := by rw [h.home, h.folder]
  rw [← hplace] at hu ⊢
  exact hu.resolve_name isName_index (by decide) hhome h.node?_ne_link f

theorem resolve_absolute (hnode : u.node? indexPlace = some .folder) :
    u.resolve true (absolute indexPlace) = .ok ⟨indexPlace, some .folder⟩ := by
  have hroot : u.node? [] = some .folder := hu.folder [] (by decide) h.root
  have hhome : u.node? ["work"] = some .folder := hu.folder ["work"] (by decide) h.folder
  have hlink := hu.node?_ne_link_of_none h.node?_ne_link
  refine Tree.resolve_eq_ok_iff.mpr
    ⟨⟨by decide, absolute_ne_empty _, ?_⟩, hnode.symm, fun _ => .inr rfl⟩
  rw [absolute, names_pathOf isName_of_indexPlace]
  exact .enter hroot (by decide) (by decide) (hlink _)
    (.enter hhome (by decide) (by decide) (hlink _) (.here _ _))

section Folder

variable (hnode : u.node? indexPlace = some .folder)
include hnode

theorem isThere_index : u.isThere "index" = true := by
  rw [Tree.isThere, h.resolve_index hu, hnode]

theorem removeFolder_index : u.removeFolder "index" =
    (u.removeBelow indexPlace, if u.stays indexPlace then .error .denied else .ok ()) := by
  have hspot := h.resolve_index hu false
  rw [hnode] at hspot
  exact Tree.removeFolder_of_resolve hspot (by decide)

end Folder

/-- The folder of an index is removed if nothing in it stays. -/
theorem removal_index {v : Workspace} (hv : v.files = u) (hnode : u.node? indexPlace = some .folder)
    (hindex : c.indexFolder = "index") (hregenerate : c.regenerate = true) :
    Ensures (removal c) v
      (fun _ v' => v'.files = u.removeBelow indexPlace ∧ u.stays indexPlace = false)
      (fun e v' => v'.files = u.removeBelow indexPlace ∧ u.stays indexPlace = true ∧
        e = .files .denied) := by
  subst hv
  unfold removal
  rw [if_pos hregenerate, hindex]
  refine ensures_get_bind ?_
  rw [if_pos (h.isThere_index hu hnode)]
  refine Job.ensures_alter_bind (fun t _ ht => ?_) fun t e ht => ?_
  all_goals
    rw [h.removeFolder_index hu hnode] at ht
    obtain ⟨rfl, hanswer⟩ := Prod.mk.inj ht
    split at hanswer <;> cases hanswer
  · next hstays => exact ⟨rfl, Bool.eq_false_iff.mpr hstays⟩
  · next hstays => exact ⟨rfl, hstays, rfl⟩

end Around

-- a run is not to be computed where it is taken apart
attribute [local irreducible] Ensures

/-- An opening makes the folder of the index with its files, and opens no writer. -/
theorem openFolder (hindex : c.indexFolder = "index") (hregenerate : c.regenerate = false) :
    ExceptT.run (OpenIndex.openFolder c) w = (.ok (OpenIndex.fresh indexPlace c, .created),
      { w with files := made indexPlace c (w.files.put indexPlace .folder) }) := by
  have hresolve := h.resolve_index h.around false
  rw [h.node?_eq_none (List.prefix_refl _)] at hresolve
  have hclosed : w.files.isClosed indexPlace = false := by
    rw [Tree.isClosed, h.limits]
    rfl
  have hmake := Tree.makeFolders_put isName_index hclosed hresolve
  have hu := h.around.put_folder
  have hnode : (w.files.put indexPlace .folder).node? indexPlace = some .folder := by
    rw [Tree.node?_put, if_pos rfl]
  have hfolder := h.resolve_index hu true
  rw [hnode] at hfolder
  rw [← hindex] at hmake hfolder
  have hnew := openAt_new (w := { w with files := w.files.put indexPlace .folder }) h.straight hu
    h.limits (h.resolve_absolute hu hnode) hfolder fun name => by
      rw [Tree.node?_put, if_neg (by simp)]
      exact h.node?_eq_none (below_place _ name)
  obtain ⟨r, v, hrun, rfl, rfl⟩ := (reopen_of_made hmake hfolder hnew).exists_run
  rw [openFolder_eq_reopen hregenerate]
  exact hrun

/-- The files that are made are those of an index without documents. -/
theorem stores_made (hindex : c.indexFolder = "index") (hregenerate : c.regenerate = false)
    (hlength : c.maxTokenLength < Decimal.wordLimit) :
    Around indexPlace w.files (made indexPlace c (w.files.put indexPlace .folder)) ∧
      Stores indexPlace (made indexPlace c (w.files.put indexPlace .folder)) []
        (Analyzer.ofConfig c) := by
  have hrun := h.openFolder hindex hregenerate
  rw [openFolder_eq_reopen hregenerate] at hrun
  have hpath := h.names.toLeadsTo
  rw [← hindex] at hpath
  have hvacant : IsVacant indexPlace w.files :=
    isVacant_of_none (h.node?_eq_none (below_place _ _))
  exact ((reopen_vacant h.straight.names.toLeadsTo hpath hlength
    ⟨h.around, .vacant hvacant⟩).of_ok hrun).2

end IsDesk

end Concordance.OpenIndex
