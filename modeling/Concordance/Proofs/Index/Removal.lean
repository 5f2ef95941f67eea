import Concordance.Proofs.Index.Store

/-!
# Concordance.Proofs.Index.Removal

Removing an index before it is made anew.  The catalog and the analyzer are in one folder, so that
they are removed together or not at all: what a refusal leaves is the whole index, or none.

* `Stores.removeBelow`, `Contains.removeBelow` — what is left after what can be removed;
* `removeFolder_cases`, `removeFolder_leaves` — how removing the folder can end;
* `removal_of_absent`, `removal_leaves` — removing as an opening does it.
-/

namespace Concordance.OpenIndex

open Files
open Files.Tree (Around LeadsTo Straight)

variable {place : Place} {t u : Tree} {segments : List Index.Segment} {a : Analyzer}

/-! ## what stays in the folder -/

/-- Two files in one folder are removed together or not at all. -/
theorem isStuck_sibling {name : String} {content : List UInt8} {room : Option Nat}
    (hfile : u.node? (place ++ [name]) = some (.file content room))
    (h : u.isStuck (place ++ [name]) = true) (other : String) :
    u.isStuck (place ++ [other]) = true := by
  simp only [Tree.isStuck, Tree.isClosed, Bool.or_eq_true, List.dropLast_concat, List.any_eq_true,
    Bool.and_eq_true, List.isPrefixOf_iff_prefix] at h ⊢
  refine h.imp_right ?_
  rintro ⟨folder, hmem, hprefix, hunlisted⟩
  refine ⟨folder, hmem, ?_, hunlisted⟩
  obtain heq | hprefix := List.prefix_concat_iff.mp hprefix
  · simp [heq, Tree.isUnlisted, hfile] at hunlisted
  · exact hprefix.trans (below_place place other)

/-- Where the catalog cannot be removed the folder holds what it held. -/
theorem Stores.removeBelow_of_stuck (h : Stores place u segments a) (hplace : Straight t place)
    (hu : Around place t u) (hstuck : u.isStuck (place ++ [catalogName]) = true) :
    u.stays place = true ∧ Stores place (u.removeBelow place) segments a := by
  obtain ⟨room, hcatalog⟩ := h.catalog
  obtain ⟨room', hanalyzer⟩ := h.analyzer
  have hfolder : u.node? place = some .folder := (Tree.resolve_eq_ok_iff.mp h.folder).2.1.symm
  have hkept : ∀ p, u.stays p = true → (u.removeBelow place).node? p = u.node? p := fun p hp => by
    rw [Tree.node?_removeBelow, if_neg fun hgone => absurd (hgone.2.symm.trans hp) (by decide)]
  have hstays : u.stays place = true :=
    Tree.stays_of_stuck hfolder (below_place place catalogName) hcatalog hstuck
  refine ⟨hstays, ⟨?_, room, ?_⟩, ⟨room', ?_⟩, h.length⟩
  · refine hplace.resolve_of_folders hu hu.removeBelow (fun p hp hnode => ?_) h.folder
    by_cases heq : p = place
    · rw [heq, hkept place hstays, hfolder]
    · rw [Tree.node?_removeBelow, if_neg fun hgone => heq ?_, hnode]
      exact hp.eq_of_length_le hgone.1.length_le
  · rw [hkept _ ((Tree.stays_of_file hcatalog).trans hstuck), hcatalog]
  · have hstuck' := isStuck_sibling hcatalog hstuck analyzerName
    rw [hkept _ ((Tree.stays_of_file hanalyzer).trans hstuck'), hanalyzer]

/-- After removing what can be removed the folder holds what it held, or it has no catalog. -/
theorem Stores.removeBelow (h : Stores place u segments a) (hplace : Straight t place)
    (hu : Around place t u) :
    Stores place (u.removeBelow place) segments a ∨ IsCleared place (u.removeBelow place) := by
  by_cases hstuck : u.isStuck (place ++ [catalogName]) = true
  · exact .inl (h.removeBelow_of_stuck hplace hu hstuck).2
  · obtain ⟨room, hcatalog⟩ := h.catalog
    have hgone : u.stays (place ++ [catalogName]) = false := by
      rw [Tree.stays_of_file hcatalog]
      exact Bool.eq_false_iff.mpr hstuck
    refine .inr (isCleared_of_none ?_)
    rw [Tree.node?_removeBelow, if_pos ⟨below_place place _, hgone⟩]

theorem IsVacant.removeBelow (h : IsVacant place u) : IsVacant place (u.removeBelow place) := by
  intro content room hnode
  rw [Tree.node?_removeBelow] at hnode
  split at hnode
  · cases hnode
  · exact h content room hnode

theorem Contains.removeBelow {entries : List Index.Entry} (h : Contains place u entries)
    (hplace : Straight t place) (hu : Around place t u) :
    Contains place (u.removeBelow place) entries ∨ IsCleared place (u.removeBelow place) := by
  cases h with
  | vacant h => exact .inl (.vacant h.removeBelow)
  | stored hne h => exact (h.removeBelow hplace hu).imp_left (.stored hne)

/-- Where nothing stays there is no catalog left. -/
theorem isCleared_removeBelow (h : u.stays place = false)
    (hfolder : u.node? place = some .folder) : IsCleared place (u.removeBelow place) := by
  intro content room hnode
  rw [Tree.node?_removeBelow] at hnode
  split at hnode
  · cases hnode
  next hstays =>
    have hstuck : u.isStuck (place ++ [catalogName]) = true := by
      rw [← Tree.stays_of_file hnode]
      exact Bool.not_eq_false _ |>.mp fun hgone => hstays ⟨below_place place _, hgone⟩
    have hstay := Tree.stays_of_stuck hfolder (below_place place catalogName) hnode hstuck
    cases h.symm.trans hstay

/-! ## removing it -/

/-- Removing the folder removes what can be removed, or changes nothing where no folder is.  It
succeeds only where nothing stays. -/
theorem removeFolder_cases {path : String} (hu : Around place t u) (hpath : LeadsTo t place path) :
    (∃ e, u.removeFolder path = (u, .error e) ∧
        u.resolve true path ≠ .ok ⟨place, some .folder⟩) ∨
      (u.removeFolder path).1 = u.removeBelow place ∧
        ((u.removeFolder path).2 = .ok () → IsCleared place (u.removeBelow place)) ∨
      ∃ e, u.removeFolder path = ((u.removeBelow place).put place .folder, .error e) ∧
        IsCleared place (u.removeBelow place) := by
  -- a link at the end is not followed here, but none can stand at the place
  have hspot : ∀ spot, u.resolve false path = .ok spot → spot = ⟨place, u.node? place⟩ := by
    intro spot h
    obtain ⟨p, node⟩ := spot
    obtain rfl : p = place := hpath.place_eq u hu false _ h
    obtain rfl : node = u.node? p := (Tree.resolve_eq_ok_iff.mp h).2.1
    rfl
  have hfolder : ∀ spot, u.resolve false path = .ok spot → spot.node ≠ some .folder →
      u.resolve true path ≠ .ok ⟨place, some .folder⟩ := by
    intro spot h hnot hresolve
    obtain rfl := hspot spot h
    exact hnot (Tree.resolve_eq_ok_iff.mp hresolve).2.1.symm
  unfold Tree.removeFolder
  split
  · next e h =>
    refine .inl ⟨e, rfl, fun hresolve => ?_⟩
    obtain ⟨spot, hspot⟩ := Tree.exists_resolve_false hresolve
    cases h.symm.trans hspot
  · next h => exact .inl ⟨_, rfl, hfolder _ h (by simp)⟩
  · next p h =>
    obtain ⟨rfl, hnode⟩ := Tree.Spot.mk.inj (hspot _ h)
    split
    · exact .inr (.inl ⟨rfl, fun hok => by cases hok⟩)
    next hstays =>
    have hcleared := isCleared_removeBelow (Bool.eq_false_iff.mpr hstays) hnode.symm
    split
    · exact .inr (.inr ⟨_, rfl, hcleared⟩)
    · exact .inr (.inl ⟨rfl, fun _ => hcleared⟩)
  · next p target h =>
    obtain ⟨rfl, hnode⟩ := Tree.Spot.mk.inj (hspot _ h)
    exact absurd hnode.symm (hu.node?_ne_link (List.prefix_refl p) target)
  · next hnot _ h =>
    exact .inl ⟨_, rfl, hfolder _ h fun heq => hnot (Option.some.inj heq)⟩

/-- What removing the folder leaves: it may stay as it was, it may lose what can be removed, or it
has no catalog any more.  Where it succeeds it has none. -/
theorem removeFolder_leaves {path : String} (hu : Around place t u) (hpath : LeadsTo t place path) :
    Around place t (u.removeFolder path).1 ∧
      ((u.removeFolder path).1 = u ∨ (u.removeFolder path).1 = u.removeBelow place ∨
        IsCleared place (u.removeFolder path).1) ∧
      ((u.removeFolder path).2 = .ok () → IsCleared place (u.removeFolder path).1) := by
  obtain ⟨e, heq, -⟩ | ⟨heq, hok⟩ | ⟨e, heq, hcleared⟩ := removeFolder_cases hu hpath
  · rw [heq]
    exact ⟨hu, .inl rfl, fun hok => by cases hok⟩
  · rw [heq]
    exact ⟨hu.removeBelow, .inr (.inl rfl), hok⟩
  · have hput : IsCleared place ((u.removeBelow place).put place .folder) := by
      intro content room hnode
      rw [Tree.node?_put, if_neg (by simp)] at hnode
      exact hcleared content room hnode
    rw [heq]
    exact ⟨hu.removeBelow.put_folder, .inr (.inr hput), fun hok => by cases hok⟩

/-- What removing an index leaves of a property that the folder keeps unless
its catalog is removed. -/
theorem removeIndex_leaves {path : String} {w : Workspace} (hu : Around place t w.files)
    (hpath : LeadsTo t place path) {K : Tree → Prop} (hw : K w.files)
    (hbelow : K (w.files.removeBelow place) ∨ IsCleared place (w.files.removeBelow place)) :
    Ensures (removeIndex path) w
      (fun _ v => (w.files.isThere path = false ∧ v = w) ∨
        (w.files.isThere path = true ∧ Around place t v.files ∧ IsCleared place v.files))
      (fun e v => e.isAboutGrowth = false ∧ Around place t v.files ∧
        (K v.files ∨ IsCleared place v.files)) := by
  obtain ⟨hv, hcases, hok⟩ := removeFolder_leaves hu hpath
  refine ensures_get_bind ?_
  split
  · next hthere =>
    generalize hremoved : w.files.removeFolder path = removed at hv hcases hok
    obtain ⟨u, answer⟩ := removed
    refine Job.ensures_alter_bind (fun u' _ h => ?_) fun u' e h => ?_
    all_goals
      rw [hremoved] at h
      obtain ⟨rfl, hanswer⟩ := Prod.mk.inj h
    · refine .inr ⟨hthere, hv, hok ?_⟩
      cases answer with
      | error => cases hanswer
      | ok => rfl
    · refine ⟨not_isAboutGrowth_of_filesFault hanswer, hv, ?_⟩
      obtain rfl | rfl | hcleared := hcases
      · exact .inl hw
      · exact hbelow
      · exact .inr hcleared
  · next hthere => exact .inl ⟨Bool.eq_false_iff.mpr hthere, rfl⟩

/-- Nothing is removed where that is not asked for, or where the path leads to nothing. -/
theorem removal_of_absent {c : Config} {w : Workspace}
    (h : c.regenerate = false ∨ w.files.isThere c.indexFolder = false) :
    ExceptT.run (removal c) w = (.ok (), w) := by
  have hskip : (removeIndex c.indexFolder).run w =
      if w.files.isThere c.indexFolder then (removeIndex c.indexFolder).run w else (.ok (), w) := by
    unfold removeIndex
    rw [Job.run_get_bind]
    split <;> rfl
  unfold removal
  obtain hregenerate | hthere := h
  · rw [hregenerate]
    rfl
  · split
    · rw [hskip, hthere]
      rfl
    · rfl

/-- What the removing before an opening leaves: all documents or none.  Where it was to be done and
could be done there are none. -/
theorem removal_leaves (hplace : Straight t place) {c : Config}
    (hpath : LeadsTo t place c.indexFolder) {entries : List Index.Entry} {w : Workspace}
    (hw : Holding place t entries w.files) :
    Ensures (removal c) w
      (fun _ v =>
        ((c.regenerate = false ∨ w.files.isThere c.indexFolder = false) ∧ v = w) ∨
        (c.regenerate = true ∧ w.files.isThere c.indexFolder = true ∧ Holding place t [] v.files))
      (fun e v => e.isAboutGrowth = false ∧
        (Holding place t entries v.files ∨ Holding place t [] v.files)) := by
  unfold removal
  split
  · next hregenerate =>
    have hremoved := removeIndex_leaves hw.around hpath (K := (Contains place · entries))
      hw.contains (hw.contains.removeBelow hplace hw.around)
    refine hremoved.mono (fun _ v hv => ?_) fun e v hv => ?_
    · refine hv.imp (fun h => ⟨.inr h.1, h.2⟩) fun h =>
        ⟨hregenerate, h.1, h.2.1, .vacant h.2.2.isVacant⟩
    · exact ⟨hv.1, hv.2.2.imp (⟨hv.2.1, ·⟩) fun h => ⟨hv.2.1, .vacant h.isVacant⟩⟩
  · next hregenerate => exact ensures_pure (.inl ⟨.inl (Bool.eq_false_iff.mpr hregenerate), rfl⟩)

end Concordance.OpenIndex
