import Concordance.Proofs.Files.Changes

/-!
# Concordance.Proofs.Files.Folder

One folder of a tree, as the tree changes.  Outside the folder everything may be written to, so that
a path is said to name the folder, or to lead elsewhere, by where it leads whatever was written.

* `Around` — the trees that writing makes of one in which nothing stands at a place;
* `LeadsTo`, `Names`, `IsElsewhere` — paths to the place, and paths to other ones;
* `Spares` — changes that leave alone what is in the folder;
* `Straight.names`, `names_name` — paths that name a place.
-/

namespace Concordance.Files.Tree

variable {t u v : Tree} {place : Place}

/-! ## ways without links -/

/-- A way that follows a link at its end has one beside it that does not. -/
theorem Leads.exists_stopping {links : Nat} {here p : Place} {path : List String}
    (h : Leads t true links here path p) : ∃ q, Leads t false links here path q := by
  induction h with
  | here links here => exact ⟨here, .here links here⟩
  | up hhere _ ih =>
      obtain ⟨q, hq⟩ := ih
      exact ⟨q, .up hhere hq⟩
  | stop _ _ _ _ hlast => exact absurd hlast (by decide)
  | @follow links here _ name rest target hhere hup hname hlink _ _ ih =>
      cases rest with
      | nil => exact ⟨here ++ [name], .stop hhere hup hname hlink rfl⟩
      | cons next rest =>
          obtain ⟨q, hq⟩ := ih
          exact ⟨q, .follow hhere hup hname hlink (.inl (List.cons_ne_nil next rest)) hq⟩
  | enter hhere hup hname hlink _ ih =>
      obtain ⟨q, hq⟩ := ih
      exact ⟨q, .enter hhere hup hname hlink hq⟩

theorem exists_resolve_false {path : String} {spot : Spot} (h : t.resolve true path = .ok spot) :
    ∃ spot', t.resolve false path = .ok spot' := by
  obtain ⟨⟨hnul, hempty, hleads⟩, hnode, hslash⟩ := resolve_eq_ok_iff.mp h
  by_cases hfolder : demandsFolder path = true
  -- a path that ends in a slash follows a link at its end in any case
  · refine ⟨spot, resolve_eq_ok_iff.mpr ⟨⟨hnul, hempty, ?_⟩, hnode, hslash⟩⟩
    rwa [hfolder] at hleads ⊢
  · rw [Bool.true_or] at hleads
    obtain ⟨q, hq⟩ := hleads.exists_stopping
    refine ⟨⟨q, t.node? q⟩, resolve_eq_ok_iff.mpr ⟨⟨hnul, hempty, ?_⟩, rfl, fun hf => ?_⟩⟩
    · rwa [Bool.eq_false_iff.mpr hfolder]
    · exact absurd hf hfolder

/-- Where no link is on the way, the names of a path are those of the place. -/
theorem Leads.eq_append {f : Bool} {links : Nat} {here p : Place} {path : List String}
    (h : Leads t f links here path p) (hup : ".." ∉ path)
    (hlink : ∀ q target, q <+: here ++ path → t.node? q ≠ some (.link target)) :
    p = here ++ path := by
  have hnext : ∀ (here : Place) (name : String) (rest : List String),
      here ++ [name] <+: here ++ name :: rest := fun here name rest => by simp
  induction h with
  | here => simp
  | up => exact absurd List.mem_cons_self hup
  | @stop _ here name target _ _ _ hnode _ => exact absurd hnode (hlink _ _ (hnext here name []))
  | @follow _ here _ name rest target _ _ _ hnode _ _ _ =>
      exact absurd hnode (hlink _ _ (hnext here name rest))
  | @enter _ here _ name rest _ _ _ _ _ ih =>
      have hrest := ih (fun hmem => hup (List.mem_cons_of_mem name hmem)) fun q target hq => by
        rw [List.append_assoc] at hq
        exact hlink q target hq
      rw [hrest, List.append_assoc]
      rfl

/-- A way without links is still one where its folders are still there. -/
theorem Leads.of_folders {f : Bool} {links : Nat} {here p : Place} {path : List String}
    (h : Leads t f links here path p) (hup : ".." ∉ path)
    (hlink : ∀ q target, q <+: here ++ path → t.node? q ≠ some (.link target))
    (hlink' : ∀ q target, q <+: here ++ path → u.node? q ≠ some (.link target))
    (hfolder : ∀ q, q <+: here ++ path → t.node? q = some .folder → u.node? q = some .folder) :
    Leads u f links here path p := by
  have hnext : ∀ (here : Place) (name : String) (rest : List String),
      here ++ [name] <+: here ++ name :: rest := fun here name rest => by simp
  induction h with
  | here links here => exact .here links here
  | up => exact absurd List.mem_cons_self hup
  | @stop _ here name target _ _ _ hnode _ => exact absurd hnode (hlink _ _ (hnext here name []))
  | @follow _ here _ name rest target _ _ _ hnode _ _ _ =>
      exact absurd hnode (hlink _ _ (hnext here name rest))
  | @enter _ here _ name rest hhere hup' hname _ _ ih =>
      have hsame : here ++ [name] ++ rest = here ++ name :: rest := by simp
      refine .enter (hfolder here (List.prefix_append _ _) hhere) hup' hname
        (fun target => hlink' _ target (hnext here name rest)) (ih ?_ ?_ ?_ ?_)
      · exact fun hmem => hup (List.mem_cons_of_mem name hmem)
      all_goals rwa [hsame]

theorem mem_of_node? {p : Place} {node : Node} (h : t.node? p = some node) :
    (p, node) ∈ t.nodes := by
  obtain ⟨before, behind, heq, -⟩ := List.lookup_eq_some_iff.mp h
  rw [heq]
  simp

/-- A file stays exactly where it cannot be removed itself. -/
theorem stays_of_file {p : Place} {content : List UInt8} {room : Option Nat}
    (hfile : t.node? p = some (.file content room)) : t.stays p = t.isStuck p := by
  simp [stays, hfile]

/-- A folder stays with what cannot be removed in it. -/
theorem stays_of_stuck {p q : Place} {node : Node} (hfolder : t.node? p = some .folder)
    (hq : p <+: q) (hnode : t.node? q = some node) (hstuck : t.isStuck q = true) :
    t.stays p = true := by
  rw [stays, Bool.or_eq_true, Bool.and_eq_true, decide_eq_true_eq, List.any_eq_true]
  refine .inr ⟨hfolder, _, mem_of_node? hnode, ?_⟩
  rw [Bool.and_eq_true, List.isPrefixOf_iff_prefix]
  exact ⟨hq, hstuck⟩

/-- In a tree without links a relative path leads where its names say. -/
theorem place_eq_of_relative (hlink : ∀ p target, t.node? p ≠ some (.link target)) {f : Bool}
    {path : String} {spot : Spot} (hpath : isAbsolute path = false) (hup : ".." ∉ names path)
    (h : t.resolve f path = .ok spot) : spot.place = t.home ++ names path := by
  have hleads := (resolve_eq_ok_iff.mp h).1.leads
  rw [hpath] at hleads
  exact hleads.eq_append hup fun q target _ => hlink q target

/-! ## a folder and what is around it -/

/-- What writing has made of a tree in which nothing stands at a place.  Elsewhere folders stay, and
links stay and come from nowhere; at the place there are folders and files only. -/
structure Around (place : Place) (t u : Tree) : Prop where
  home : u.home = t.home
  folder : ∀ p, ¬place <+: p → t.node? p = some .folder → u.node? p = some .folder
  link : ∀ p target, ¬place <+: p →
    (u.node? p = some (.link target) ↔ t.node? p = some (.link target))
  inside : ∀ p node, place <+: p → u.node? p = some node →
    node = .folder ∨ ∃ content room, node = .file content room

/-- A path leads to a place wherever it leads. -/
structure LeadsTo (t : Tree) (place : Place) (path : String) : Prop where
  place_eq : ∀ u, Around place t u → ∀ followLast spot, u.resolve followLast path = .ok spot →
    spot.place = place

/-- A path leads to a place wherever it leads, and to the folder at the place if there is one. -/
structure Names (t : Tree) (place : Place) (path : String) : Prop extends LeadsTo t place path where
  found : ∀ u, Around place t u →
    u.resolve true (pathOf true place) = .ok ⟨place, some .folder⟩ →
      u.resolve true path = .ok ⟨place, some .folder⟩

/-- A path leads neither to a place nor below it. -/
def IsElsewhere (t : Tree) (place : Place) (path : String) : Prop :=
  ∀ u, Around place t u → ∀ spot, u.resolve true path = .ok spot → ¬place <+: spot.place

/-- A tree has grown, and at a place and below it nothing is changed but for folders that were
missing. -/
structure Spares (place : Place) (t u : Tree) : Prop where
  grows : Grows t u
  inside : ∀ p, place <+: p →
    u.node? p = t.node? p ∨ (t.node? p = none ∧ u.node? p = some .folder)

theorem Spares.refl (place : Place) (t : Tree) : Spares place t t := ⟨.refl t, fun _ _ => .inl rfl⟩

theorem Spares.node?_of_some (h : Spares place t u) {p : Place} {node : Node} (hp : place <+: p)
    (hnode : t.node? p = some node) : u.node? p = some node := by
  obtain heq | ⟨hnone, -⟩ := h.inside p hp
  · exact heq.trans hnode
  · exact absurd (hnone.symm.trans hnode) (by simp)

theorem Spares.trans (h : Spares place t u) (h' : Spares place u v) : Spares place t v where
  grows := h.grows.trans h'.grows
  inside p hp := by
    obtain hu | ⟨ht, hu⟩ := h.inside p hp
    · rw [← hu]
      exact h'.inside p hp
    · exact .inr ⟨ht, h'.node?_of_some hp hu⟩

theorem AddsFolders.spares (h : AddsFolders t u) (place : Place) : Spares place t u :=
  ⟨h.grows, fun p _ => h.node p⟩

theorem Alters.spares {q : Place} (h : Alters t u q) (hq : ¬place <+: q) : Spares place t u := by
  refine ⟨h.grows, fun p hp => .inl (h.other p ?_)⟩
  rintro rfl
  exact hq hp

namespace Around

theorem refl (hfresh : ∀ p, place <+: p → t.node? p = none) : Around place t t where
  home := rfl
  folder _ _ h := h
  link _ _ _ := .rfl
  inside p node hp hnode := absurd ((hfresh p hp).symm.trans hnode) (by simp)

theorem node?_ne_link (h : Around place t u) {p : Place} (hp : place <+: p) (target : String) :
    u.node? p ≠ some (.link target) := by
  intro hnode
  obtain hfolder | ⟨content, room, hfile⟩ := h.inside p _ hp hnode
  · cases hfolder
  · cases hfile

/-- Where no links are, none come from writing. -/
theorem node?_ne_link_of_none (h : Around place t u)
    (hlink : ∀ p target, t.node? p ≠ some (.link target)) (p : Place) (target : String) :
    u.node? p ≠ some (.link target) := by
  by_cases hp : place <+: p
  · exact h.node?_ne_link hp target
  · exact fun hnode => hlink p target ((h.link p target hp).mp hnode)

theorem spares (h : Around place t u) (hs : Spares place u v) : Around place t v where
  home := hs.grows.home.trans h.home
  folder p hp hfolder := hs.grows.folder p (h.folder p hp hfolder)
  link p target hp := (hs.grows.link p target).trans (h.link p target hp)
  inside p node hp hnode := by
    obtain hu | ⟨-, hv⟩ := hs.inside p hp
    · exact h.inside p node hp (hu.symm.trans hnode)
    · exact .inl (Option.some.inj (hnode.symm.trans hv))

/-- A file is written below the place. -/
theorem alters (h : Around place t u) {q : Place} (ha : Alters u v q) {content : List UInt8}
    {room : Option Nat} (hv : v.node? q = some (.file content room)) : Around place t v where
  home := ha.home.trans h.home
  folder p hp hfolder := ha.grows.folder p (h.folder p hp hfolder)
  link p target hp := (ha.grows.link p target).trans (h.link p target hp)
  inside p node hp hnode := by
    by_cases heq : p = q
    · subst heq
      exact .inr ⟨content, room, Option.some.inj (hnode.symm.trans hv)⟩
    · exact h.inside p node hp ((ha.other p heq).symm.trans hnode)

theorem removeBelow (h : Around place t u) : Around place t (u.removeBelow place) where
  home := h.home
  folder p hp hfolder := by
    rw [node?_removeBelow, if_neg fun hgone => hp hgone.1]
    exact h.folder p hp hfolder
  link p target hp := by
    rw [node?_removeBelow, if_neg fun hgone => hp hgone.1]
    exact h.link p target hp
  inside p node hp hnode := by
    rw [node?_removeBelow] at hnode
    split at hnode
    · cases hnode
    · exact h.inside p node hp hnode

/-- What is refused may change at any time. -/
theorem limited (h : Around place t u) (limits : Limits) :
    Around place t { u with limits := limits } :=
  ⟨h.home, h.folder, h.link, h.inside⟩

/-- A folder is put at the place where nothing is. -/
theorem put_folder (h : Around place t u) : Around place t (u.put place .folder) where
  home := h.home
  folder p hp hfolder := by
    have hne : p ≠ place := fun heq => hp (heq ▸ List.prefix_refl p)
    rw [node?_put, if_neg hne]
    exact h.folder p hp hfolder
  link p target hp := by
    have hne : p ≠ place := fun heq => hp (heq ▸ List.prefix_refl p)
    rw [node?_put, if_neg hne]
    exact h.link p target hp
  inside p node hp hnode := by
    rw [node?_put] at hnode
    by_cases heq : p = place
    · rw [if_pos heq] at hnode
      exact .inl (Option.some.inj hnode).symm
    · rw [if_neg heq] at hnode
      exact h.inside p node hp hnode

/-- What a path that leads elsewhere is written to. -/
theorem write_spares (h : Around place t u) {path : String} (hpath : IsElsewhere t place path)
    (bytes : List UInt8) : Spares place u (u.write path bytes).1 := by
  obtain heq | ⟨spot, -, -, hspot, halters, -⟩ := write_cases u path bytes
  · rw [heq]
    exact .refl place u
  · exact halters.spares (hpath u h spot hspot)

end Around

/-! ## a place without links on the way -/

/-- A place can be named, and no links are on the way there. -/
structure Straight (t : Tree) (place : Place) : Prop where
  isName : ∀ name ∈ place, IsName name
  link : ∀ p target, p <+: place → t.node? p ≠ some (.link target)

theorem isAbsolute_pathOf (place : Place) : isAbsolute (pathOf true place) = true := by
  simp [isAbsolute, pathOf]

namespace Straight

theorem node?_ne_link (h : Straight t place) (hu : Around place t u) {p : Place}
    (hp : p <+: [] ++ place) (target : String) : u.node? p ≠ some (.link target) := by
  intro hnode
  by_cases hp' : place <+: p
  · exact hu.node?_ne_link hp' target hnode
  · exact h.link p target hp ((hu.link p target hp').mp hnode)

/-- The path of a place names it, where no link is on the way there. -/
theorem names (h : Straight t place) : Names t place (pathOf true place) := by
  refine ⟨⟨fun u hu f spot hspot => ?_⟩, fun u _ hfound => hfound⟩
  have hleads := (resolve_eq_ok_iff.mp hspot).1.leads
  rw [names_pathOf h.isName, isAbsolute_pathOf, if_pos rfl] at hleads
  exact hleads.eq_append (fun hmem => (h.isName ".." hmem).up rfl)
    fun q target hq => h.node?_ne_link hu hq target

/-- The path of a place still leads to the folder there while the folders on the way are left. -/
theorem resolve_of_folders (h : Straight t place) (hu : Around place t u) (hv : Around place t v)
    (hfolders : ∀ p, p <+: place → u.node? p = some .folder → v.node? p = some .folder)
    (hfound : u.resolve true (pathOf true place) = .ok ⟨place, some .folder⟩) :
    v.resolve true (pathOf true place) = .ok ⟨place, some .folder⟩ := by
  obtain ⟨⟨hnul, hempty, hleads⟩, hnode, -⟩ := resolve_eq_ok_iff.mp hfound
  refine resolve_eq_ok_iff.mpr ⟨⟨hnul, hempty, ?_⟩,
    (hfolders place (List.prefix_refl place) hnode.symm).symm, fun _ => .inr rfl⟩
  rw [names_pathOf h.isName, isAbsolute_pathOf, if_pos rfl] at hleads ⊢
  exact hleads.of_folders (fun hmem => (h.isName ".." hmem).up rfl)
    (fun q target hq => h.node?_ne_link hu hq target)
    (fun q target hq => h.node?_ne_link hv hq target) hfolders

end Straight

section Name

variable {name : String} (hname : IsName name) (hsize : name.utf8ByteSize ≤ nameLimit)
  (hhome : t.node? t.home = some .folder) (hlink : ∀ p target, t.node? p ≠ some (.link target))
include hname hsize hhome hlink

/-- In a tree without links a name stands for the place of that name at home. -/
theorem Around.resolve_name (h : Around (t.home ++ [name]) t u) (f : Bool) :
    u.resolve f name = .ok ⟨t.home ++ [name], u.node? (t.home ++ [name])⟩ := by
  have hout : ¬(t.home ++ [name] <+: t.home) := fun hprefix => by
    have hlength := hprefix.length_le
    rw [List.length_append, List.length_singleton] at hlength
    omega
  have hhome' : u.node? u.home = some .folder := by
    rw [h.home]
    exact h.folder t.home hout hhome
  rw [Tree.resolve_name hname hhome' hsize (h.node?_ne_link_of_none hlink _), h.home]

theorem names_name : Names t (t.home ++ [name]) name := by
  refine ⟨⟨fun u hu f spot h => ?_⟩, fun u hu h => ?_⟩
  · rw [hu.resolve_name hname hsize hhome hlink] at h
    cases h
    rfl
  · rw [hu.resolve_name hname hsize hhome hlink]
    rw [← (resolve_eq_ok_iff.mp h).2.1]

end Name

end Concordance.Files.Tree
