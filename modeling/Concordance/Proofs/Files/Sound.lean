import Concordance.Proofs.Files.Folder
import Mathlib.Data.List.Induction

/-!
# Concordance.Proofs.Files.Sound

Trees as a file system has them: one thing at a place, in a folder, under a name.

* `mem_below_iff` — what is below a folder;
* `resolve_joinAll` — the path of something below a folder leads to it.
-/

namespace Concordance.Files

instance (name : String) : Decidable (IsName name) :=
  decidable_of_iff (name ≠ "" ∧ name ≠ "." ∧ name ≠ ".." ∧ '/' ∉ name.toList ∧ '\x00' ∉ name.toList)
    ⟨fun ⟨hnonempty, hdot, hup, hslash, hnul⟩ => ⟨hnonempty, hdot, hup, hslash, hnul⟩,
      fun h => ⟨h.nonempty, h.dot, h.up, h.slash, h.nul⟩⟩

theorem names_joinAll {place : Place} (h : ∀ name ∈ place, IsName name) (base : String) :
    names (joinAll base place) = names base ++ place := by
  induction place generalizing base with
  | nil => rw [joinAll, List.foldl_nil, List.append_nil]
  | cons name place ih =>
      have hrest := ih (fun n hn => h n (List.mem_cons_of_mem name hn)) (join base name)
      rw [names_join (h name List.mem_cons_self), List.append_assoc, List.singleton_append] at hrest
      exact hrest

namespace Tree

/-- One thing stands at a place.  Unless it is the root it is in a folder, under a name that is not
too long. -/
structure IsSound (t : Tree) : Prop where
  places : (t.nodes.map Prod.fst).Nodup
  names : ∀ e ∈ t.nodes, ∀ name ∈ e.1.getLast?,
    t.node? e.1.dropLast = some .folder ∧ IsName name ∧ name.utf8ByteSize ≤ nameLimit

variable {t : Tree} {folder place : Place} {node : Node}

theorem node?_eq_some_iff (hplaces : (t.nodes.map Prod.fst).Nodup) :
    t.node? place = some node ↔ (place, node) ∈ t.nodes := by
  refine ⟨mem_of_node?, fun hmem => ?_⟩
  obtain ⟨before, behind, hnodes⟩ := List.append_of_mem hmem
  refine List.lookup_eq_some_iff.mpr ⟨before, behind, hnodes, fun e he => ?_⟩
  rw [hnodes, List.map_append, List.map_cons, List.nodup_append] at hplaces
  have hne := hplaces.2.2 e.1 (List.mem_map_of_mem he) place List.mem_cons_self
  simpa using hne.symm

/-- What stands somewhere is below a folder if the place goes on from there. -/
theorem relative_eq_some_iff {p : Place} {n : Node} :
    (if folder.isPrefixOf p && p != folder then some (p.drop folder.length, n) else none) =
        some (place, node) ↔
      p = folder ++ place ∧ place ≠ [] ∧ n = node := by
  constructor
  · intro hsome
    split at hsome
    · next hcond =>
      rw [Bool.and_eq_true, List.isPrefixOf_iff_prefix, bne_iff_ne] at hcond
      obtain ⟨⟨rest, rfl⟩, hne⟩ := hcond
      rw [List.drop_left] at hsome
      cases hsome
      exact ⟨rfl, fun hnil => hne (by rw [hnil, List.append_nil]), rfl⟩
    · cases hsome
  · rintro ⟨rfl, hne, rfl⟩
    have hcond : (folder.isPrefixOf (folder ++ place) && folder ++ place != folder) = true := by
      rw [Bool.and_eq_true, List.isPrefixOf_iff_prefix, bne_iff_ne]
      exact ⟨List.prefix_append folder place, fun heq => hne (by simpa using heq)⟩
    rw [if_pos hcond, List.drop_left]

namespace IsSound

variable (h : t.IsSound)
include h

theorem of_snoc {name : String} (hnode : t.node? (place ++ [name]) = some node) :
    t.node? place = some .folder ∧ IsName name ∧ name.utf8ByteSize ≤ nameLimit := by
  have hname := h.names _ (mem_of_node? hnode) name (by simp)
  rwa [List.dropLast_concat] at hname

/-- Whatever has something below it is a folder. -/
theorem node?_of_append {name : String} {rest : Place}
    (hnode : t.node? (place ++ name :: rest) = some node) : t.node? place = some .folder := by
  induction rest using List.reverseRecOn generalizing node with
  | nil => exact (h.of_snoc hnode).1
  | append_singleton rest last ih =>
      rw [← List.cons_append, ← List.append_assoc] at hnode
      exact ih (h.of_snoc hnode).1

theorem isName (hnode : t.node? (folder ++ place) = some node) : ∀ name ∈ place, IsName name := by
  induction place using List.reverseRecOn generalizing node with
  | nil => exact fun name hname => absurd hname List.not_mem_nil
  | append_singleton place last ih =>
      rw [← List.append_assoc] at hnode
      obtain ⟨habove, hlast, -⟩ := h.of_snoc hnode
      intro name hname
      obtain hname | hname := List.mem_append.mp hname
      · exact ih habove name hname
      · rwa [List.mem_singleton.mp hname]

/-- The path of something below a folder leads to it. -/
theorem resolve_joinAll {root : String} (hroot : t.resolve true root = .ok ⟨folder, some .folder⟩)
    (hnode : t.node? (folder ++ place) = some node) (hlink : ∀ target, node ≠ .link target) :
    t.resolve true (joinAll root place) = .ok ⟨folder ++ place, some node⟩ := by
  induction place generalizing root folder with
  | nil =>
      have hfolder : some Node.folder = t.node? folder := (resolve_eq_ok_iff.mp hroot).2.1
      rw [List.append_nil] at hnode ⊢
      rwa [← hnode, ← hfolder]
  | cons name rest ih =>
      have hname := h.isName hnode name List.mem_cons_self
      rw [List.append_cons] at hnode ⊢
      cases rest with
      | nil =>
          rw [List.append_nil] at hnode ⊢
          have hjoin := resolve_join hname (f := true) hroot (h.of_snoc hnode).2.2
            (fun target heq => hlink target (Option.some.inj (hnode.symm.trans heq)))
          rwa [hnode] at hjoin
      | cons next rest =>
          have hhere := h.node?_of_append hnode
          have hjoin := resolve_join hname (f := true) hroot (h.of_snoc hhere).2.2
            (fun target heq => by simp [hhere] at heq)
          rw [hhere] at hjoin
          exact ih hjoin hnode

/-- What is below a folder. -/
theorem mem_below_iff :
    (place, node) ∈ t.below folder ↔ place ≠ [] ∧ t.node? (folder ++ place) = some node := by
  rw [node?_eq_some_iff h.places, below, List.mem_filterMap]
  constructor
  · rintro ⟨⟨p, n⟩, hmem, hsome⟩
    obtain ⟨rfl, hne, rfl⟩ := relative_eq_some_iff.mp hsome
    exact ⟨hne, hmem⟩
  · exact fun ⟨hne, hmem⟩ => ⟨_, hmem, relative_eq_some_iff.mpr ⟨rfl, hne, rfl⟩⟩

theorem nodup_below : ((t.below folder).map Prod.fst).Nodup := by
  refine List.pairwise_map.mpr (List.pairwise_filterMap.mpr ?_)
  refine (List.pairwise_map.mp h.places).imp ?_
  rintro ⟨p, n⟩ ⟨p', n'⟩ hne ⟨q, m⟩ hq ⟨q', m'⟩ hq' heq
  obtain ⟨rfl, -, -⟩ := relative_eq_some_iff.mp hq
  obtain ⟨rfl, -, -⟩ := relative_eq_some_iff.mp hq'
  exact hne (congrArg (folder ++ ·) heq)

/-! ## the same tree in another order -/

variable {u : Tree} (hnodes : u.nodes.Perm t.nodes)
include hnodes

theorem node?_of_perm (p : Place) : u.node? p = t.node? p := by
  have hplaces : (u.nodes.map Prod.fst).Nodup := (hnodes.map Prod.fst).nodup_iff.mpr h.places
  refine Option.ext fun n => ?_
  rw [node?_eq_some_iff hplaces, node?_eq_some_iff h.places, hnodes.mem_iff]

theorem of_perm : u.IsSound where
  places := (hnodes.map Prod.fst).nodup_iff.mpr h.places
  names e he name hname := by
    rw [h.node?_of_perm hnodes]
    exact h.names e (hnodes.mem_iff.mp he) name hname

theorem grows_of_perm (hhome : u.home = t.home) : Grows t u where
  home := hhome
  folder p hp := (h.node?_of_perm hnodes p).trans hp
  link p target := by rw [h.node?_of_perm hnodes]

end IsSound

end Tree

end Concordance.Files
