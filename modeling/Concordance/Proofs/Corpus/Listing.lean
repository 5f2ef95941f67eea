import Concordance.Corpus.Listing
import Concordance.Proofs.Files.Sound
import Concordance.Proofs.Text.Bytes
import Mathlib.Data.List.Forall2
import Mathlib.Data.List.Permutation
import Mathlib.Tactic.Common

/-!
# Concordance.Proofs.Corpus.Listing

The documents of a corpus.

* `list_sorted` — the listing is in order;
* `load_eq` — they are the files of the listing, each numbered by its position;
* `load_error` — what a failure to load them is about;
* `exists_lists` — the listing has every file below the folder that is not hidden, once;
* `load_listed` — the documents are those of the files, in whatever order a folder gives them.
-/

namespace Concordance.Corpus

open Files

/-! ## the listing -/

theorem notAfter_total (a b : Place) : notAfter a b || notAfter b a := by
  induction a generalizing b with
  | nil => simp [notAfter]
  | cons x a ih =>
      cases b with
      | nil => simp [notAfter]
      | cons y b =>
          obtain hlt | rfl | hlt := Std.lt_trichotomy x y
          · simp [notAfter, hlt]
          · simpa [notAfter] using ih b
          · simp [notAfter, hlt]

theorem notAfter_trans (a b c : Place) (hab : notAfter a b) (hbc : notAfter b c) :
    notAfter a c := by
  induction a generalizing b c with
  | nil => rfl
  | cons x a ih =>
      cases b with
      | nil => simp [notAfter] at hab
      | cons y b =>
          cases c with
          | nil => simp [notAfter] at hbc
          | cons z c =>
              obtain hxy | rfl | hyx := Std.lt_trichotomy x y
              · obtain hyz | rfl | hzy := Std.lt_trichotomy y z
                · simp [notAfter, String.lt_trans hxy hyz]
                · simp [notAfter, hxy]
                · simp [notAfter, hzy, String.lt_asymm hzy] at hbc
              · obtain hxz | rfl | hzx := Std.lt_trichotomy x z
                · simp [notAfter, hxz]
                · simp only [notAfter, String.lt_irrefl, if_false] at hab hbc ⊢
                  exact ih b c hab hbc
                · simp [notAfter, hzx, String.lt_asymm hzx] at hbc
              · simp [notAfter, hyx, String.lt_asymm hyx] at hab

/-- The paths of a listing are in the order of their places. -/
theorem list_sorted {t : Tree} {root : String} {paths : List String}
    (h : list t root = .ok paths) :
    ∃ places : List Place, paths = places.map (joinAll root) ∧
      places.Pairwise fun a b => notAfter a b = true := by
  unfold list at h
  split at h
  · split at h
    · cases h
    · cases h
      exact ⟨_, rfl, List.pairwise_mergeSort notAfter_trans notAfter_total _⟩
  · cases h

/-! ## the documents -/

/-- The documents are read from the files in order, and numbered in that order. -/
theorem read_eq {t : Tree} {first : Nat} {paths : List String} {documents : List Document}
    (h : read t first paths = .ok documents) :
    ∃ texts, List.Forall₂ (fun path text => t.readText path = .ok text) paths texts ∧
      documents = texts.mapIdx fun i text => Markup.parse text (first + i) := by
  induction paths generalizing first documents with
  | nil =>
      cases h
      exact ⟨[], .nil, rfl⟩
  | cons path paths ih =>
      unfold read at h
      split at h
      · cases h
      next text htext =>
      split at h
      · cases h
      next rest hrest =>
      cases h
      obtain ⟨texts, hread, rfl⟩ := ih hrest
      refine ⟨text :: texts, .cons htext hread, ?_⟩
      simp [List.mapIdx_cons, Nat.add_assoc, Nat.add_comm 1]

/-- The documents of a corpus are the files of the listing in order, each numbered by its
position. -/
theorem load_eq {t : Tree} {root : String} {documents : List Document}
    (h : load t root = .ok documents) :
    ∃ paths texts, list t root = .ok paths ∧
      List.Forall₂ (fun path text => t.readText path = .ok text) paths texts ∧
        documents = texts.mapIdx fun i text => Markup.parse text i := by
  unfold load at h
  split at h
  · cases h
  · next paths hlist =>
    obtain ⟨texts, hread, hdocuments⟩ := read_eq h
    refine ⟨paths, texts, hlist, hread, ?_⟩
    simpa using hdocuments

/-- The documents of a corpus are numbered from zero. -/
theorem load_ordinal {t : Tree} {root : String} {documents : List Document}
    (h : load t root = .ok documents) :
    documents.map Document.ordinal = List.range documents.length := by
  obtain ⟨paths, texts, -, -, rfl⟩ := load_eq h
  refine List.ext_getElem (by simp) fun i hi hi' => ?_
  simp [Markup.parse_ordinal]

theorem read_error {t : Tree} {first : Nat} {paths : List String} {e : Fault}
    (h : read t first paths = .error e) : ∃ cause, e = .files cause := by
  induction paths generalizing first with
  | nil => cases h
  | cons path paths ih =>
      unfold read at h
      split at h
      · cases h
        exact ⟨_, rfl⟩
      split at h
      · cases h
        exact ih ‹_›
      · cases h

/-- A corpus is not loaded where there is no folder, where a folder cannot be listed, or where a
file cannot be read. -/
theorem load_error {t : Tree} {root : String} {e : Fault} (h : load t root = .error e) :
    e = .corpus (.notAFolder root) ∨ (∃ path cause, e = .walk path cause) ∨
      ∃ cause, e = .files cause := by
  unfold load at h
  split at h
  · next hlist =>
    cases h
    unfold list at hlist
    split at hlist
    · split at hlist <;> cases hlist
      exact .inr (.inl ⟨_, _, rfl⟩)
    · cases hlist
      exact .inl rfl
  · exact .inr (.inr (read_error h))

theorem not_isAboutGrowth_of_load {t : Tree} {root : String} {e : Fault}
    (h : load t root = .error e) : e.isAboutGrowth = false := by
  obtain rfl | ⟨path, cause, rfl⟩ | ⟨cause, rfl⟩ := load_error h
  · rfl
  · rfl
  · rfl

/-! ## what is listed -/

open Files.Tree (bytesOf bytesOf_lt_iff textOf?)

/-- Places in order are in the order of the bytes of their names. -/
theorem lt_of_notAfter {a b : Place} (h : notAfter a b = true) (hne : a ≠ b) :
    a.map bytesOf < b.map bytesOf := by
  induction a generalizing b with
  | nil =>
      cases b with
      | nil => exact absurd rfl hne
      | cons y b => exact List.nil_lt_cons _ _
  | cons x a ih =>
      cases b with
      | nil => cases h
      | cons y b =>
          rw [List.map_cons, List.map_cons, List.cons_lt_cons_iff]
          unfold notAfter at h
          split at h
          · next hlt => exact .inl (bytesOf_lt_iff.mpr hlt)
          split at h
          · cases h
          next hnlt hngt =>
          obtain rfl := String.le_antisymm (String.not_lt.mp hngt) (String.not_lt.mp hnlt)
          exact .inr ⟨rfl, ih h fun heq => hne (heq ▸ rfl)⟩

theorem notAfter_antisymm {a b : Place} (h : notAfter a b = true) (h' : notAfter b a = true) :
    a = b := by
  by_contra hne
  exact List.lt_asymm (lt_of_notAfter h hne) (lt_of_notAfter h' (Ne.symm hne))

/-- What the file at a place holds. -/
def contentAt (t : Tree) (place : Place) : List UInt8 :=
  match t.node? place with
  | some (.file content _) => content
  | _ => []

/-- The document files below a folder by their paths in order, each with what it holds. -/
structure Lists (t : Tree) (root : String) (folder : Place) (files : List (String × List UInt8)) :
    Prop where
  increasing : files.Pairwise fun a b => (names a.1).map bytesOf < (names b.1).map bytesOf
  mem_iff : ∀ path content, (path, content) ∈ files ↔
    ∃ above name room, t.node? (folder ++ (above ++ [name])) = some (.file content room) ∧
      name.toList.head? ≠ some '.' ∧ path = joinAll root (above ++ [name])
  readText : ∀ path content, (path, content) ∈ files →
    t.readText path = (textOf? content).elim (.error .notText) .ok

theorem Lists.nodup {t : Tree} {root : String} {folder : Place}
    {files : List (String × List UInt8)} (h : Lists t root folder files) : files.Nodup := by
  refine h.increasing.imp fun {a b} hlt => ?_
  rintro rfl
  exact List.lt_irrefl _ hlt

/-- There is one listing of what stands below a folder. -/
theorem Lists.unique {t u : Tree} {root : String} {folder : Place}
    {files files' : List (String × List UInt8)} (hnode : ∀ p, u.node? p = t.node? p)
    (h : Lists t root folder files) (h' : Lists u root folder files') : files = files' := by
  have hperm : files.Perm files' := by
    refine (List.perm_ext_iff_of_nodup h.nodup h'.nodup).mpr fun ⟨path, content⟩ => ?_
    rw [h.mem_iff, h'.mem_iff]
    simp only [hnode]
  exact hperm.eq_of_pairwise (fun _ _ _ _ hab hba => absurd hba (List.lt_asymm hab)) h.increasing
    h'.increasing

theorem unlisted?_eq_none {t : Tree} {folder : Place}
    (hlisted : ∀ place, t.isUnlisted (folder ++ place) = false) :
    unlisted? t folder = none := by
  rw [unlisted?, List.head?_eq_none_iff, ← List.length_eq_zero_iff, List.length_mergeSort,
    List.length_eq_zero_iff, List.filter_eq_nil_iff]
  exact fun place _ hunlisted => absurd ((hlisted place).symm.trans hunlisted) (by decide)

section Sound

variable {t : Tree} (h : t.IsSound) {root : String} {folder : Place}
include h

theorem mem_entries_below {place : Place} :
    place ∈ entries (t.below folder) ↔
      ∃ above name content room, place = above ++ [name] ∧ name.toList.head? ≠ some '.' ∧
        t.node? (folder ++ place) = some (.file content room) := by
  rw [mem_entries_iff]
  constructor
  · rintro ⟨node, hmem, hfile⟩
    obtain ⟨-, hnode⟩ := h.mem_below_iff.mp hmem
    unfold isDocumentFile at hfile
    split at hfile
    · next content room heq =>
      cases heq
      split at hfile
      · next name hlast =>
        obtain ⟨above, rfl⟩ := List.getLast?_eq_some_iff.mp hlast
        exact ⟨above, name, content, room, rfl, by simpa using hfile, hnode⟩
      · cases hfile
    · cases hfile
  · rintro ⟨above, name, content, room, rfl, hname, hnode⟩
    refine ⟨_, h.mem_below_iff.mpr ⟨by simp, hnode⟩, ?_⟩
    simpa [isDocumentFile] using hname

theorem pairwise_entries :
    (entries (t.below folder)).Pairwise fun a b => a.map bytesOf < b.map bytesOf := by
  have hsorted : (entries (t.below folder)).Pairwise fun a b => notAfter a b = true :=
    List.pairwise_mergeSort notAfter_trans notAfter_total _
  have hnodup : (entries (t.below folder)).Nodup := by
    rw [entries, (List.mergeSort_perm _ _).nodup_iff]
    exact h.nodup_below.sublist (List.filter_sublist.map Prod.fst)
  exact (hsorted.and hnodup).imp fun h => lt_of_notAfter h.1 h.2

/-- The places of the folders whose names are not read. -/
theorem mem_unlisted_iff {place : Place} :
    place ∈ ([] :: (t.below folder).map Prod.fst).filter (fun p => t.isUnlisted (folder ++ p)) ↔
      t.isUnlisted (folder ++ place) = true := by
  rw [List.mem_filter]
  refine ⟨And.right, fun hunlisted => ⟨?_, hunlisted⟩⟩
  by_cases hnil : place = []
  · exact List.mem_cons.mpr (.inl hnil)
  · have hnode : t.node? (folder ++ place) = some .folder := by
      rw [Tree.isUnlisted, Bool.and_eq_true, decide_eq_true_eq] at hunlisted
      exact hunlisted.1
    exact List.mem_cons_of_mem _ (List.mem_map.mpr ⟨_, h.mem_below_iff.mpr ⟨hnil, hnode⟩, rfl⟩)

/-- The first folder whose names are not read is found. -/
theorem unlisted?_eq_some {place : Place} (hunlisted : t.isUnlisted (folder ++ place) = true)
    (hfirst : ∀ p, t.isUnlisted (folder ++ p) = true → notAfter place p = true) :
    unlisted? t folder = some place := by
  have hsorted := List.pairwise_mergeSort notAfter_trans notAfter_total
    (([] :: (t.below folder).map Prod.fst).filter fun p => t.isUnlisted (folder ++ p))
  have hmem := (List.mergeSort_perm _ notAfter).mem_iff.mpr ((mem_unlisted_iff h).mpr hunlisted)
  rw [unlisted?]
  generalize hall : List.mergeSort _ notAfter = all at hsorted hmem ⊢
  cases all with
  | nil => cases hmem
  | cons first rest =>
      have hhere : t.isUnlisted (folder ++ first) = true := by
        refine (mem_unlisted_iff h).mp ((List.mergeSort_perm _ notAfter).mem_iff.mp ?_)
        rw [hall]
        exact List.mem_cons_self
      rw [List.head?_cons]
      obtain rfl | hrest := List.mem_cons.mp hmem
      · rfl
      · rw [notAfter_antisymm (List.rel_of_pairwise_cons hsorted hrest) (hfirst first hhere)]

/-- The folder of a root has a listing. -/
theorem exists_lists (hroot : t.resolve true root = .ok ⟨folder, some .folder⟩) :
    ∃ files, Lists t root folder files ∧
      ((∀ place, t.isUnlisted (folder ++ place) = false) →
        list t root = .ok (files.map Prod.fst)) := by
  refine ⟨(entries (t.below folder)).map fun place =>
    (joinAll root place, contentAt t (folder ++ place)), ⟨?_, ?_, ?_⟩, ?_⟩
  · refine List.pairwise_map.mpr ((pairwise_entries h).imp_of_mem fun {a b} ha hb hlt => ?_)
    have hnames : ∀ place ∈ entries (t.below folder),
        names (joinAll root place) = names root ++ place := by
      intro place hplace
      obtain ⟨_, _, _, _, -, -, hnode⟩ := (mem_entries_below h).mp hplace
      exact names_joinAll (h.isName hnode) root
    rw [hnames a ha, hnames b hb, List.map_append, List.map_append]
    exact List.append_left_lt hlt
  · intro path content
    rw [List.mem_map]
    constructor
    · rintro ⟨place, hplace, heq⟩
      obtain ⟨above, name, content', room, rfl, hname, hnode⟩ := (mem_entries_below h).mp hplace
      cases heq
      refine ⟨above, name, room, ?_, hname, rfl⟩
      rw [contentAt, hnode]
    · rintro ⟨above, name, room, hnode, hname, rfl⟩
      refine ⟨above ++ [name],
        (mem_entries_below h).mpr ⟨above, name, content, room, rfl, hname, hnode⟩, ?_⟩
      rw [contentAt, hnode]
  · intro path content hmem
    obtain ⟨place, hplace, heq⟩ := List.mem_map.mp hmem
    cases heq
    obtain ⟨above, name, content, room, -, -, hnode⟩ := (mem_entries_below h).mp hplace
    have hspot := h.resolve_joinAll hroot hnode fun target heq => by cases heq
    have hbytes : t.readBytes (joinAll root place) = .ok content := by rw [Tree.readBytes, hspot]
    rw [Tree.readText, hbytes, contentAt, hnode]
    dsimp only
    cases textOf? content <;> rfl
  · intro hlisted
    rw [list, hroot, List.map_map]
    simp only [unlisted?_eq_none hlisted]
    rfl

end Sound

/-! ## what is loaded -/

variable {t : Tree}

theorem read_of_texts {first : Nat} {paths texts : List String}
    (h : List.Forall₂ (fun path text => t.readText path = .ok text) paths texts) :
    read t first paths = .ok (texts.mapIdx fun i text => Markup.parse text (first + i)) := by
  induction h generalizing first with
  | nil => rfl
  | cons htext _ ih =>
      rw [read, htext]
      simp only [ih, List.mapIdx_cons, Nat.add_assoc, Nat.add_comm 1, Nat.add_zero]

/-- The first file that cannot be read ends the reading. -/
theorem read_stops {first : Nat} {front behind : List String} {path : String} {e : Refusal}
    (hfront : ∀ p ∈ front, ∃ text, t.readText p = .ok text) (h : t.readText path = .error e) :
    read t first (front ++ path :: behind) = .error (.files e) := by
  induction front generalizing first with
  | nil => simp only [List.nil_append, read, h]
  | cons p front ih =>
      obtain ⟨text, htext⟩ := hfront p List.mem_cons_self
      have hrest := fun next => @ih next fun q hq => hfront q (List.mem_cons_of_mem p hq)
      simp only [List.cons_append, read, htext, hrest]

section Lists

variable {root : String} {folder : Place} {files : List (String × List UInt8)}
  (h : Lists t root folder files) (hlist : list t root = .ok (files.map Prod.fst))
include h hlist

/-- Files that all hold text are documents, numbered by their positions. -/
theorem Lists.load_of_texts {texts : List String}
    (htexts : List.Forall₂ (fun f text => textOf? f.2 = some text) files texts) :
    load t root = .ok (texts.mapIdx fun i text => Markup.parse text i) := by
  have hread : List.Forall₂ (fun path text => t.readText path = .ok text)
      (files.map Prod.fst) texts := by
    have hmem := (List.forall₂_and_left files texts).mpr ⟨fun _ hf => hf, htexts⟩
    refine List.forall₂_map_left_iff.mpr (hmem.imp ?_)
    rintro ⟨path, content⟩ text ⟨hfile, htext⟩
    rw [h.readText path content hfile, htext, Option.elim_some]
  rw [load, hlist]
  simp only [read_of_texts hread, Nat.zero_add]

theorem Lists.load_stops {front behind : List (String × List UInt8)} {path : String}
    {content : List UInt8} {e : Refusal} (hfiles : files = front ++ (path, content) :: behind)
    (hfront : ∀ f ∈ front, (textOf? f.2).isSome) (he : t.readText path = .error e) :
    load t root = .error (.files e) := by
  subst hfiles
  rw [load, hlist, List.map_append, List.map_cons]
  refine read_stops (fun p hp => ?_) he
  obtain ⟨⟨p, content⟩, hmem, rfl⟩ := List.mem_map.mp hp
  obtain ⟨text, htext⟩ := Option.isSome_iff_exists.mp (hfront _ hmem)
  refine ⟨text, ?_⟩
  rw [h.readText p content (List.mem_append_left _ hmem), htext, Option.elim_some]

end Lists

/-- **Corpus**: a folder is listed in the order of the bytes of the names on the paths, whatever the
order in which the file system tells what is there.  The listing has the regular files whose own
name does not start with a dot, at any depth.  They are loaded as documents numbered by their
positions if all of them hold text; else the first one that cannot be read is the failure.  There is
no listing if the names in a folder cannot be read, and the first such folder is the failure.  What
is no folder is no corpus. -/
theorem load_listed (h : t.IsSound) (root : String) :
    (∀ folder, t.resolve true root = .ok ⟨folder, some .folder⟩ →
      ∃ files, ∀ u : Tree, u.home = t.home → u.nodes.Perm t.nodes → u.limits = t.limits →
        Lists u root folder files ∧
        ((∀ place, t.isUnlisted (folder ++ place) = false) →
          list u root = .ok (files.map Prod.fst) ∧
          (∀ texts, List.Forall₂ (fun f text => textOf? f.2 = some text) files texts →
            ∃ documents, load u root = .ok documents ∧
              documents = (texts.mapIdx fun i text => Markup.parse text i) ∧
              documents.map Document.ordinal = List.range files.length) ∧
          ∀ front path content behind e, files = front ++ (path, content) :: behind →
            (∀ f ∈ front, (textOf? f.2).isSome) → u.readText path = .error e →
              load u root = .error (.files e)) ∧
        ∀ place, t.isUnlisted (folder ++ place) = true →
          (∀ p, t.isUnlisted (folder ++ p) = true → notAfter place p = true) →
            list u root = .error (.walk (joinAll root place) .denied) ∧
              load u root = .error (.walk (joinAll root place) .denied)) ∧
      (t.isFolder root = false →
        list t root = .error (.corpus (.notAFolder root)) ∧
          load t root = .error (.corpus (.notAFolder root))) := by
  constructor
  · intro folder hroot
    obtain ⟨files, hfiles, -⟩ := exists_lists h hroot
    refine ⟨files, fun u hhome hnodes hlimits => ?_⟩
    have hroot' := Tree.resolve_folder_grows (h.grows_of_perm hnodes hhome) hroot
    have hunlisted : ∀ place, u.isUnlisted place = t.isUnlisted place := fun place => by
      rw [Tree.isUnlisted, Tree.isUnlisted, h.node?_of_perm hnodes, hlimits]
    obtain ⟨files', hlists, hlist⟩ := exists_lists (h.of_perm hnodes) hroot'
    obtain rfl := hfiles.unique (h.node?_of_perm hnodes) hlists
    simp only [hunlisted] at hlist
    refine ⟨hlists, fun hlisted => ?_, fun place hplace hfirst => ?_⟩
    · have hlist := hlist hlisted
      refine ⟨hlist, fun texts htexts => ?_, fun front path content behind e => ?_⟩
      · have hload := hlists.load_of_texts hlist htexts
        refine ⟨_, hload, rfl, ?_⟩
        rw [load_ordinal hload, List.length_mapIdx, htexts.length_eq]
      · exact hlists.load_stops hlist
    · have hlist : list u root = .error (.walk (joinAll root place) .denied) := by
        have hfound : unlisted? u folder = some place := unlisted?_eq_some (h.of_perm hnodes)
          (by rwa [hunlisted]) (by simpa only [hunlisted] using hfirst)
        rw [list, hroot']
        simp only [hfound]
      exact ⟨hlist, by rw [load, hlist]⟩
  · intro hfolder
    have hlist : list t root = .error (.corpus (.notAFolder root)) := by
      unfold list
      split
      · next place hroot => simp [Tree.isFolder, hroot] at hfolder
      · rfl
    exact ⟨hlist, by rw [load, hlist]⟩

/-- A tree with a hidden folder, a hidden file, a link, and names that others begin with. -/
def nested : Tree where
  home := ["work"]
  nodes :=
    [(["work", "c", "a b"], .file [104, 105] none), ([], .folder), (["work"], .folder),
      (["work", "c"], .folder), (["work", "c", ".d"], .folder),
      (["work", "c", ".d", "t"], .file [255] none), (["work", "c", ".h"], .file [] none),
      (["work", "c", "a"], .folder), (["work", "c", "a", "b"], .file [104] none),
      (["work", "c", "link"], .link "a b")]

theorem load_listed_nested :
    nested.IsSound ∧ nested.resolve true "c" = .ok ⟨["work", "c"], some .folder⟩ ∧
      list { nested with nodes := nested.nodes.reverse } "c" = .ok ["c/.d/t", "c/a/b", "c/a b"] ∧
      load nested "c" = .error (.files .notText) ∧
      load nested "c/a b" = .error (.corpus (.notAFolder "c/a b")) := by
  have hsound : nested.IsSound := ⟨by decide, by decide⟩
  have hname : IsName "c" := by decide
  have hroot : nested.resolve true "c" = .ok ⟨["work", "c"], some .folder⟩ :=
    Tree.resolve_name hname rfl (by decide) fun target heq => by cases heq
  have hlisted : ∀ place, nested.isUnlisted (["work", "c"] ++ place) = false := fun place => by
    simp [Tree.isUnlisted, nested]
  have hpaths : list nested "c" = .ok ["c/.d/t", "c/a/b", "c/a b"] := by
    have hentries : entries (nested.below ["work", "c"]) = [[".d", "t"], ["a", "b"], ["a b"]] := by
      cbv
    rw [list, hroot]
    simp only [unlisted?_eq_none hlisted, hentries]
    decide
  obtain ⟨files, hfiles⟩ := (load_listed hsound "c").1 _ hroot
  obtain ⟨hlists, hloads, -⟩ := hfiles nested rfl (.refl _) rfl
  obtain ⟨hlist, -, hstops⟩ := hloads hlisted
  have hreverse := ((hfiles { nested with nodes := nested.nodes.reverse } rfl
    (List.reverse_perm _) rfl).2.1 hlisted).1
  rw [← hlist, hpaths] at hreverse
  refine ⟨hsound, hroot, hreverse, ?_, ((load_listed hsound "c/a b").2 ?_).2⟩
  · -- the first file of the listing is the one that holds no text
    have hmem : ("c/.d/t", [255]) ∈ files :=
      (hlists.mem_iff _ _).mpr ⟨[".d"], "t", none, rfl, by decide, by decide⟩
    obtain ⟨⟨path, content⟩, behind, rfl, rfl, hbehind⟩ :=
      List.map_eq_cons_iff.mp (Except.ok.inj (hlist.symm.trans hpaths))
    obtain heq | hmem := List.mem_cons.mp hmem
    · cases heq
      refine hstops [] _ _ _ _ rfl (by simp) ?_
      have hnone : textOf? [255] = none := by cbv
      rw [hlists.readText _ _ List.mem_cons_self, hnone, Option.elim_none]
    · have hnot := List.mem_map_of_mem (f := Prod.fst) hmem
      rw [hbehind] at hnot
      exact absurd hnot (by decide)
  · have hnode : nested.node? (["work", "c"] ++ ["a b"]) = some (.file [104, 105] none) := rfl
    have hfile := hsound.resolve_joinAll hroot hnode fun target heq => by cases heq
    have hpath : joinAll "c" ["a b"] = "c/a b" := by decide
    rw [hpath] at hfile
    rw [Tree.isFolder, hfile]

end Concordance.Corpus
