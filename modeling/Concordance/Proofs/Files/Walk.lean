import Concordance.Proofs.Files.Path

/-!
# Concordance.Proofs.Files.Walk

Where paths lead.  `Leads` tells the ways through a tree without those that break off, so that facts
about them go by induction on the way.

A tree that grows keeps its folders and links and gets no new links.  Paths lead to the same places
then as before.

* `resolve_eq_ok_iff` — resolving a path succeeds where there is a way;
* `resolve_join`, `folder_of_resolve_join` — ways to something in a folder;
* `resolve_grows`, `resolve_folder_grows` — ways in a tree that has grown.
-/

namespace Concordance.Files.Tree

variable {t u v : Tree}

/-! ## what stands at places -/

theorem lookup_entry (p q : Place) (n : Node) (rest : List (Place × Node)) :
    ((p, n) :: rest).lookup q = if q = p then some n else rest.lookup q := by
  by_cases h : q = p
  · simp [h]
  · simp [List.lookup_cons, h, beq_eq_false_iff_ne.mpr h]

theorem node?_put (t : Tree) (place q : Place) (node : Node) :
    (t.put place node).node? q = if q = place then some node else t.node? q := by
  suffices h : ∀ nodes : List (Place × Node), (putIn place node nodes).lookup q =
      if q = place then some node else nodes.lookup q from h t.nodes
  intro nodes
  induction nodes with
  | nil => rw [putIn, lookup_entry]
  | cons entry rest ih =>
      obtain ⟨p, n⟩ := entry
      by_cases hp : p = place
      · rw [putIn, if_pos hp, lookup_entry, lookup_entry, hp]
        by_cases hq : q = place <;> simp [hq]
      · rw [putIn, if_neg hp, lookup_entry, ih, lookup_entry]
        by_cases hq : q = place
        · have hqp : q ≠ p := fun h => hp (h.symm.trans hq)
          rw [if_neg hqp, if_pos hq, if_pos hq]
        · rw [if_neg hq, if_neg hq]

theorem lookup_filter (keep : Place → Bool) (nodes : List (Place × Node)) (q : Place) :
    (nodes.filter fun e => keep e.1).lookup q = if keep q then nodes.lookup q else none := by
  induction nodes with
  | nil => simp
  | cons entry rest ih =>
      obtain ⟨p, n⟩ := entry
      rw [List.filter_cons, lookup_entry]
      by_cases hqp : q = p
      · subst hqp
        by_cases h : keep q = true
        · rw [if_pos h, lookup_entry, if_pos rfl, if_pos h, if_pos rfl]
        · rw [if_neg h, ih, if_neg h, if_neg h]
      · rw [if_neg hqp, ← ih]
        split
        · rw [lookup_entry, if_neg hqp]
        · rfl

theorem node?_removeBelow (t : Tree) (place q : Place) :
    (t.removeBelow place).node? q =
      if place <+: q ∧ t.stays q = false then none else t.node? q := by
  rw [node?, removeBelow, lookup_filter fun p => !place.isPrefixOf p || t.stays p]
  by_cases hplace : place <+: q
  · have hprefix : place.isPrefixOf q = true := List.isPrefixOf_iff_prefix.mpr hplace
    cases t.stays q <;> simp [hplace, hprefix, node?]
  · have hprefix : place.isPrefixOf q = false := by
      rwa [← Bool.not_eq_true, List.isPrefixOf_iff_prefix]
    simp [hplace, hprefix, node?]

/-! ## ways -/

/-- A path leads from a folder to a place, through no more than a number of links.  A link at the
end is followed only if asked. -/
inductive Leads (t : Tree) (followLast : Bool) : Nat → Place → List String → Place → Prop
  | here (links : Nat) (here : Place) : Leads t followLast links here [] here
  | up {links : Nat} {here place : Place} {rest : List String}
      (hhere : t.node? here = some .folder)
      (hrest : Leads t followLast links here.dropLast rest place) :
      Leads t followLast links here (".." :: rest) place
  | stop {links : Nat} {here : Place} {name : String} {target : String}
      (hhere : t.node? here = some .folder) (hup : name ≠ "..")
      (hname : name.utf8ByteSize ≤ nameLimit)
      (hlink : t.node? (here ++ [name]) = some (.link target)) (hlast : followLast = false) :
      Leads t followLast links here [name] (here ++ [name])
  | follow {links : Nat} {here place : Place} {name : String} {rest : List String} {target : String}
      (hhere : t.node? here = some .folder) (hup : name ≠ "..")
      (hname : name.utf8ByteSize ≤ nameLimit)
      (hlink : t.node? (here ++ [name]) = some (.link target))
      (hgo : rest ≠ [] ∨ followLast = true)
      (hrest : Leads t followLast links (if isAbsolute target then [] else here)
        (names target ++ rest) place) :
      Leads t followLast (links + 1) here (name :: rest) place
  | enter {links : Nat} {here place : Place} {name : String} {rest : List String}
      (hhere : t.node? here = some .folder) (hup : name ≠ "..")
      (hname : name.utf8ByteSize ≤ nameLimit)
      (hlink : ∀ target, t.node? (here ++ [name]) ≠ some (.link target))
      (hrest : Leads t followLast links (here ++ [name]) rest place) :
      Leads t followLast links here (name :: rest) place

theorem leads_of_walk {f : Bool} {links : Nat} {here : Place} {path : List String} {spot : Spot}
    (h : t.walk f links here path = .ok spot) :
    Leads t f links here path spot.place ∧ spot.node = t.node? spot.place := by
  fun_induction walk t f links here path with
  | case1 links here =>
      obtain rfl := Except.ok.inj h
      exact ⟨.here links here, rfl⟩
  | case2 => cases h
  | case3 links here rest hhere ih =>
      obtain ⟨hleads, hnode⟩ := ih h
      exact ⟨.up hhere hleads, hnode⟩
  | case4 => cases h
  | case5 links here name rest hhere hup hname target hlink hlast =>
      obtain rfl := Except.ok.inj h
      simp only [Bool.and_eq_true, List.isEmpty_iff, Bool.not_eq_eq_eq_not, Bool.not_true] at hlast
      obtain ⟨rfl, hlast⟩ := hlast
      exact ⟨.stop hhere hup (Nat.not_lt.mp hname) hlink hlast, hlink.symm⟩
  | case6 => cases h
  | case7 here name rest hhere hup hname target hlink hlast left ih =>
      obtain ⟨hleads, hnode⟩ := ih h
      refine ⟨.follow hhere hup (Nat.not_lt.mp hname) hlink ?_ hleads, hnode⟩
      cases f <;> simp_all
  | case8 links here name rest hhere hup hname hlink ih =>
      obtain ⟨hleads, hnode⟩ := ih h
      exact ⟨.enter hhere hup (Nat.not_lt.mp hname) hlink hleads, hnode⟩
  | case9 => cases h

theorem walk_of_leads {f : Bool} {links : Nat} {here : Place} {path : List String} {place : Place}
    (h : Leads t f links here path place) :
    t.walk f links here path = .ok ⟨place, t.node? place⟩ := by
  induction h with
  | here => rw [walk]
  | up hhere _ ih => rw [walk, hhere]; simpa using ih
  | stop hhere hup hname hlink hlast =>
      rw [walk, hhere]
      simp [hup, Nat.not_lt.mpr hname, hlink, hlast]
  | follow hhere hup hname hlink hgo _ ih =>
      rw [walk, hhere]
      have hlast : ∀ rest : List String, ∀ f : Bool, rest ≠ [] ∨ f = true →
          (rest.isEmpty && !f) = false := by
        intro rest f hgo
        cases rest <;> simp_all
      simp only [if_neg hup, if_neg (Nat.not_lt.mpr hname), hlink, hlast _ _ hgo]
      exact ih
  | enter hhere hup hname hlink _ ih =>
      rw [walk, hhere]
      simp only [if_neg hup, if_neg (Nat.not_lt.mpr hname)]
      exact ih

theorem Leads.eq_of_nil {f : Bool} {links : Nat} {here place : Place}
    (h : Leads t f links here [] place) : place = here := by
  cases h
  rfl

theorem Leads.of_up {f : Bool} {links : Nat} {here place : Place} {rest : List String}
    (h : Leads t f links here (".." :: rest) place) :
    t.node? here = some .folder ∧ Leads t f links here.dropLast rest place := by
  cases h with
  | up hhere hrest => exact ⟨hhere, hrest⟩
  | stop _ hup => exact absurd rfl hup
  | follow _ hup => exact absurd rfl hup
  | enter _ hup => exact absurd rfl hup

theorem Leads.of_name {f : Bool} {links : Nat} {here place : Place} {name : String}
    {rest : List String} (h : Leads t f links here (name :: rest) place) (hup : name ≠ "..")
    (hlink : ∀ target, t.node? (here ++ [name]) ≠ some (.link target)) :
    Leads t f links (here ++ [name]) rest place := by
  cases h with
  | up => exact absurd rfl hup
  | stop _ _ _ hnode => exact absurd hnode (hlink _)
  | follow _ _ _ hnode => exact absurd hnode (hlink _)
  | enter _ _ _ _ hrest => exact hrest

/-! ## ways to something in a folder -/

theorem Leads.snoc {f : Bool} {links : Nat} {here p : Place} {path : List String} {name : String}
    (h : Leads t true links here path p) (hfolder : t.node? p = some .folder) (hup : name ≠ "..")
    (hname : name.utf8ByteSize ≤ nameLimit)
    (hlink : ∀ target, t.node? (p ++ [name]) ≠ some (.link target)) :
    Leads t f links here (path ++ [name]) (p ++ [name]) := by
  induction h with
  | here links here => exact .enter hfolder hup hname hlink (.here _ _)
  | up hhere _ ih => exact .up hhere (ih hfolder hlink)
  | stop _ _ _ _ hlast => exact absurd hlast (by decide)
  | @follow links here place _ rest target hhere hup' hname' hlink' _ _ ih =>
      have hrest := ih hfolder hlink
      rw [List.append_assoc] at hrest
      exact .follow hhere hup' hname' hlink' (.inl (by simp)) hrest
  | enter hhere hup' hname' hlink' _ ih =>
      exact .enter hhere hup' hname' hlink' (ih hfolder hlink)

/-- A way to something in a folder leads to the folder first. -/
theorem Leads.of_snoc {f : Bool} {links : Nat} {here place : Place} {path : List String}
    {name : String} (h : Leads t f links here (path ++ [name]) place) (hup : name ≠ "..") :
    ∃ p, Leads t true links here path p ∧ t.node? p = some .folder ∧
      name.utf8ByteSize ≤ nameLimit ∧
      ((∀ target, t.node? (p ++ [name]) ≠ some (.link target)) → place = p ++ [name]) := by
  generalize hpath : path ++ [name] = whole at h
  induction h generalizing path with
  | here => exact absurd hpath (by simp)
  | @up links here _ rest hhere _ ih =>
      cases path with
      | nil => exact absurd (List.cons.inj hpath).1 hup
      | cons first path =>
          obtain ⟨rfl, hrest⟩ := List.cons.inj hpath
          obtain ⟨p, hp, hfound⟩ := ih hrest
          exact ⟨p, .up hhere hp, hfound⟩
  | @stop links here _ target hhere _ hname hlink _ =>
      obtain ⟨rfl, heq⟩ : path = [] ∧ [name] = [_] := List.append_inj' hpath rfl
      obtain rfl := List.singleton_inj.mp heq
      exact ⟨here, .here _ _, hhere, hname, fun hnot => absurd hlink (hnot target)⟩
  | @follow links here _ _ rest target hhere hup' hname hlink _ _ ih =>
      cases path with
      | nil =>
          obtain ⟨rfl, rfl⟩ := List.cons.inj hpath
          exact ⟨here, .here _ _, hhere, hname, fun hnot => absurd hlink (hnot target)⟩
      | cons first path =>
          obtain ⟨rfl, hrest⟩ := List.cons.inj hpath
          have hpath' : names target ++ path ++ [name] = names target ++ rest := by
            rw [List.append_assoc, ← hrest]
            rfl
          obtain ⟨p, hp, hfound⟩ := ih hpath'
          exact ⟨p, .follow hhere hup' hname hlink (.inr rfl) hp, hfound⟩
  | @enter links here _ _ rest hhere hup' hname hlink hrest' ih =>
      cases path with
      | nil =>
          obtain ⟨rfl, rfl⟩ := List.cons.inj hpath
          cases hrest'
          exact ⟨here, .here _ _, hhere, hname, fun _ => rfl⟩
      | cons first path =>
          obtain ⟨rfl, hrest⟩ := List.cons.inj hpath
          obtain ⟨p, hp, hfound⟩ := ih hrest
          exact ⟨p, .enter hhere hup' hname hlink hp, hfound⟩

/-! ## resolving -/

/-- A path leads to a place. -/
structure Reaches (t : Tree) (followLast : Bool) (path : String) (place : Place) : Prop where
  nul : '\x00' ∉ path.toList
  nonempty : path ≠ ""
  leads : Leads t (followLast || demandsFolder path) linkLimit
    (if isAbsolute path then [] else t.home) (names path) place

theorem resolve_eq_ok_iff {f : Bool} {path : String} {spot : Spot} :
    t.resolve f path = .ok spot ↔
      t.Reaches f path spot.place ∧ spot.node = t.node? spot.place ∧
        (demandsFolder path = true → spot.node = none ∨ spot.node = some .folder) := by
  constructor
  · intro h
    unfold resolve at h
    split at h
    · cases h
    split at h
    · cases h
    next hnul hempty =>
      have hnul' : '\x00' ∉ path.toList := by simpa using hnul
      have hempty' : path ≠ "" := by simpa using hempty
      split at h
      · cases h
      next spot' hwalk =>
        obtain ⟨hleads, hnode⟩ := leads_of_walk hwalk
        split at h
        · obtain rfl := Except.ok.inj h
          exact ⟨⟨hnul', hempty', hleads⟩, hnode, fun _ => .inl ‹_›⟩
        · obtain rfl := Except.ok.inj h
          exact ⟨⟨hnul', hempty', hleads⟩, hnode, fun _ => .inr ‹_›⟩
        · split at h
          · cases h
          · obtain rfl := Except.ok.inj h
            exact ⟨⟨hnul', hempty', hleads⟩, hnode, fun hslash => absurd hslash ‹_›⟩
  · rintro ⟨⟨hnul, hempty, hleads⟩, hnode, hslash⟩
    obtain ⟨place, node⟩ := spot
    obtain rfl : node = t.node? place := hnode
    have hnul' : ¬path.toList.contains '\x00' = true := by simpa using hnul
    have hempty' : ¬path.isEmpty = true := by simpa using hempty
    unfold resolve
    rw [if_neg hnul', if_neg hempty', walk_of_leads hleads]
    dsimp only at hslash ⊢
    cases hplace : t.node? place with
    | none => rfl
    | some node =>
        cases node with
        | folder => rfl
        | _ =>
            rw [hplace] at hslash
            exact if_neg fun h => by simpa using hslash h

/-! ## something in a folder -/

section Join

variable {base name : String} (hname : IsName name)
include hname

theorem resolve_join {f : Bool} {folder : Place}
    (hbase : t.resolve true base = .ok ⟨folder, some .folder⟩)
    (hsize : name.utf8ByteSize ≤ nameLimit)
    (hlink : ∀ target, t.node? (folder ++ [name]) ≠ some (.link target)) :
    t.resolve f (join base name) = .ok ⟨folder ++ [name], t.node? (folder ++ [name])⟩ := by
  obtain ⟨hreaches, hfolder, -⟩ := resolve_eq_ok_iff.mp hbase
  have hslash := demandsFolder_join hname base
  refine resolve_eq_ok_iff.mpr ⟨⟨?_, join_ne_empty hname base, ?_⟩, rfl, fun h => ?_⟩
  · rw [nul_mem_join_iff hname]
    exact hreaches.nul
  · rw [names_join hname, isAbsolute_join hname]
    exact hreaches.leads.snoc hfolder.symm hname.up hsize hlink
  · exact absurd (hslash.symm.trans h) (by decide)

theorem resolve_name {f : Bool} (hhome : t.node? t.home = some .folder)
    (hsize : name.utf8ByteSize ≤ nameLimit)
    (hlink : ∀ target, t.node? (t.home ++ [name]) ≠ some (.link target)) :
    t.resolve f name = .ok ⟨t.home ++ [name], t.node? (t.home ++ [name])⟩ := by
  have hjoin : join "" name = name := by simp [join]
  have hslash := demandsFolder_join hname ""
  rw [hjoin] at hslash
  refine resolve_eq_ok_iff.mpr ⟨⟨hname.nul, hname.nonempty, ?_⟩, rfl, fun h => ?_⟩
  · rw [hname.names, hname.isAbsolute]
    exact .enter hhome hname.up hsize hlink (.here _ _)
  · exact absurd (hslash.symm.trans h) (by decide)

theorem readBytes_name {content : List UInt8} {room : Option Nat}
    (hhome : t.node? t.home = some .folder) (hsize : name.utf8ByteSize ≤ nameLimit)
    (hfile : t.node? (t.home ++ [name]) = some (.file content room)) :
    t.readBytes name = .ok content := by
  have hspot := resolve_name hname (f := true) hhome hsize fun target heq => by
    rw [hfile] at heq
    cases heq
  rw [readBytes, hspot, hfile]

/-- A path to something in a folder leads to the folder first. -/
theorem folder_of_resolve_join {f : Bool} {spot : Spot} (hbase : base ≠ "")
    (h : t.resolve f (join base name) = .ok spot) :
    ∃ folder, t.resolve true base = .ok ⟨folder, some .folder⟩ ∧
      name.utf8ByteSize ≤ nameLimit ∧
      ((∀ target, t.node? (folder ++ [name]) ≠ some (.link target)) →
        spot.place = folder ++ [name]) := by
  obtain ⟨⟨hnul, -, hleads⟩, -, -⟩ := resolve_eq_ok_iff.mp h
  rw [nul_mem_join_iff hname] at hnul
  rw [names_join hname, isAbsolute_join hname] at hleads
  obtain ⟨folder, hfolder, hnode, hsize, hplace⟩ := hleads.of_snoc hname.up
  exact ⟨folder, resolve_eq_ok_iff.mpr ⟨⟨hnul, hbase, hfolder⟩, hnode.symm, fun _ => .inr rfl⟩,
    hsize, hplace⟩

end Join

/-! ## trees that grow -/

/-- A tree has the folders and the links of another one, and no other links. -/
structure Grows (t u : Tree) : Prop where
  home : u.home = t.home
  folder : ∀ p, t.node? p = some .folder → u.node? p = some .folder
  link : ∀ p target, u.node? p = some (.link target) ↔ t.node? p = some (.link target)

theorem Grows.refl (t : Tree) : Grows t t := ⟨rfl, fun _ h => h, fun _ _ => .rfl⟩

theorem Grows.trans (h : Grows t u) (h' : Grows u v) : Grows t v where
  home := h'.home.trans h.home
  folder p hp := h'.folder p (h.folder p hp)
  link p target := (h'.link p target).trans (h.link p target)

theorem Leads.grows (hg : Grows t u) {f : Bool} {links : Nat} {here place : Place}
    {path : List String} (h : Leads t f links here path place) :
    Leads u f links here path place := by
  induction h with
  | here links here => exact .here links here
  | up hhere _ ih => exact .up (hg.folder _ hhere) ih
  | stop hhere hup hname hlink hlast =>
      exact .stop (hg.folder _ hhere) hup hname ((hg.link _ _).mpr hlink) hlast
  | follow hhere hup hname hlink hgo _ ih =>
      exact .follow (hg.folder _ hhere) hup hname ((hg.link _ _).mpr hlink) hgo ih
  | enter hhere hup hname hlink _ ih =>
      exact .enter (hg.folder _ hhere) hup hname
        (fun target h => hlink target ((hg.link _ _).mp h)) ih

theorem Reaches.grows (hg : Grows t u) {f : Bool} {path : String} {place : Place}
    (h : Reaches t f path place) : Reaches u f path place := by
  refine ⟨h.nul, h.nonempty, ?_⟩
  rw [hg.home]
  exact h.leads.grows hg

/-- A path leads to the same place in a tree that has grown. -/
theorem resolve_grows (hg : Grows t u) {f : Bool} {path : String} {spot : Spot}
    (h : t.resolve f path = .ok spot) (hslash : demandsFolder path = false) :
    u.resolve f path = .ok ⟨spot.place, u.node? spot.place⟩ := by
  refine resolve_eq_ok_iff.mpr ⟨(resolve_eq_ok_iff.mp h).1.grows hg, rfl, fun h => ?_⟩
  exact absurd (hslash.symm.trans h) (by decide)

theorem resolve_folder_grows (hg : Grows t u) {f : Bool} {path : String} {place : Place}
    (h : t.resolve f path = .ok ⟨place, some .folder⟩) :
    u.resolve f path = .ok ⟨place, some .folder⟩ := by
  obtain ⟨hreaches, hnode, -⟩ := resolve_eq_ok_iff.mp h
  exact resolve_eq_ok_iff.mpr
    ⟨hreaches.grows hg, (hg.folder _ hnode.symm).symm, fun _ => .inr rfl⟩

end Concordance.Files.Tree
