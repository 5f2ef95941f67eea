import Concordance.Proofs.Files.Walk

/-!
# Concordance.Proofs.Files.Changes

What the operations on a tree change: writing a file changes one place where no way goes through,
and making folders only adds them where nothing was.  Neither changes where paths lead.

* `write_cases`, `write_ok`, `write_ok_iff` — what a write leaves, and when it succeeds;
* `replace_cases` — a file is replaced as a whole or not at all;
* `makeFolders_adds` — folders are only added.
-/

namespace Concordance.Files.Tree

variable {t u v : Tree}

/-! ## files -/

/-- Whether a way can go through what stands at a place. -/
def isWay : Option Node → Bool
  | some .folder => true
  | some (.link _) => true
  | _ => false

/-- A tree is another one but for a place, where both have the same or neither has a way. -/
structure Alters (t u : Tree) (place : Place) : Prop where
  home : u.home = t.home
  limits : u.limits = t.limits
  other : ∀ q, q ≠ place → u.node? q = t.node? q
  way : u.node? place = t.node? place ∨
    (isWay (t.node? place) = false ∧ isWay (u.node? place) = false)

namespace Alters

variable {place : Place}

theorem refl (t : Tree) (place : Place) : Alters t t place :=
  ⟨rfl, rfl, fun _ _ => rfl, .inl rfl⟩

theorem trans (h : Alters t u place) (h' : Alters u v place) : Alters t v place where
  home := h'.home.trans h.home
  limits := h'.limits.trans h.limits
  other q hq := (h'.other q hq).trans (h.other q hq)
  way := by
    obtain heq | ⟨ht, hu⟩ := h.way
    · rw [← heq]
      exact h'.way
    · obtain heq | ⟨-, hv⟩ := h'.way
      · exact .inr ⟨ht, heq ▸ hu⟩
      · exact .inr ⟨ht, hv⟩

theorem symm (h : Alters t u place) : Alters u t place where
  home := h.home.symm
  limits := h.limits.symm
  other q hq := (h.other q hq).symm
  way := h.way.imp Eq.symm And.symm

theorem node?_of_isWay (h : Alters t u place) {q : Place} (hq : isWay (t.node? q) = true) :
    u.node? q = t.node? q := by
  by_cases heq : q = place
  · subst heq
    obtain heq | ⟨ht, -⟩ := h.way
    · exact heq
    · exact absurd (ht.symm.trans hq) (by decide)
  · exact h.other q heq

theorem grows (h : Alters t u place) : Grows t u where
  home := h.home
  folder p hp := (h.node?_of_isWay (by rw [hp]; rfl)).trans hp
  link p target := by
    constructor
    · exact fun hp => (h.symm.node?_of_isWay (by rw [hp]; rfl)).trans hp
    · exact fun hp => (h.node?_of_isWay (by rw [hp]; rfl)).trans hp

end Alters

theorem put_alters {place : Place} {node : Node} (ht : isWay (t.node? place) = false)
    (hnode : isWay (some node) = false) : Alters t (t.put place node) place where
  home := rfl
  limits := rfl
  other q hq := (node?_put t place q node).trans (if_neg hq)
  way := .inr ⟨ht, by rw [node?_put, if_pos rfl, hnode]⟩

/-- A file is empty when it is opened for writing; what is no file is left as it is. -/
theorem create_ok {path : String} {place : Place} (h : t.create path = .ok (place, u)) :
    ∃ node, t.resolve true path = .ok ⟨place, node⟩ ∧ Alters t u place ∧
      ((∃ room, u.node? place = some (.file [] room)) ∨
        u = t ∧ ∀ content room, t.node? place ≠ some (.file content room)) := by
  have hput : ∀ room, ∃ room', (t.put place (.file [] room)).node? place =
      some (.file [] room') := fun room => ⟨room, by rw [node?_put, if_pos rfl]⟩
  unfold create at h
  split at h
  · cases h
  · next place' hspot =>
    have hnode : none = t.node? place' := (resolve_eq_ok_iff.mp hspot).2.1
    split at h
    · cases h
    split at h
    · cases h
    · cases h
      exact ⟨_, hspot, put_alters (by rw [← hnode]; rfl) rfl, .inl (hput _)⟩
  · cases h
  · next place' content room hspot =>
    have hnode : some _ = t.node? place' := (resolve_eq_ok_iff.mp hspot).2.1
    cases h
    exact ⟨_, hspot, put_alters (by rw [← hnode]; rfl) rfl, .inl (hput room)⟩
  · next place' node _ hfile hspot =>
    have hnode : some node = t.node? place' := (resolve_eq_ok_iff.mp hspot).2.1
    cases h
    refine ⟨_, hspot, .refl t place, .inr ⟨rfl, fun content room heq => ?_⟩⟩
    exact (hfile content room (Option.some.inj (hnode.trans heq))).elim

theorem append_alters (t : Tree) (place : Place) (bytes : List UInt8) :
    Alters t (t.append place bytes).1 place := by
  unfold append
  split
  · next content hplace => exact put_alters (by rw [hplace]; rfl) rfl
  · next content room hplace => exact put_alters (by rw [hplace]; rfl) rfl
  · exact .refl t place
  · exact .refl t place

/-- Only a file takes bytes. -/
theorem append_ok {place : Place} {bytes : List UInt8} (hbytes : bytes ≠ [])
    (h : t.append place bytes = (u, .ok ())) :
    ∃ content room, t.node? place = some (.file content room) ∧
      u.node? place = some (.file (content ++ bytes) room) := by
  unfold append at h
  split at h
  · next content hplace =>
    cases h
    exact ⟨content, none, hplace, by rw [node?_put, if_pos rfl]⟩
  · next content room hplace =>
    dsimp only at h
    split at h
    · next hfits =>
      cases h
      refine ⟨content, some room, hplace, ?_⟩
      rw [node?_put, if_pos rfl, List.take_of_length_le hfits]
    · cases h
  · have hempty : bytes.isEmpty = false := by simpa using hbytes
    simp [hempty] at h
  · cases h

theorem put_put (t : Tree) (place : Place) (node node' : Node) :
    (t.put place node).put place node' = t.put place node' := by
  suffices h : ∀ nodes : List (Place × Node),
      putIn place node' (putIn place node nodes) = putIn place node' nodes from
    congrArg (fun nodes => { t with nodes := nodes }) (h t.nodes)
  intro nodes
  induction nodes with
  | nil => simp [putIn]
  | cons entry rest ih =>
      obtain ⟨p, n⟩ := entry
      by_cases hp : p = place
      · rw [putIn, if_pos hp, putIn, if_pos rfl, putIn, if_pos hp]
      · rw [putIn, if_neg hp, putIn, if_neg hp, ih, putIn, if_neg hp]

/-- Bytes written one after the other are written like all of them at once. -/
theorem append_append (t : Tree) (place : Place) (bytes more : List UInt8) :
    (match t.append place bytes with
      | (t, .error e) => (t, .error e)
      | (t, .ok ()) => t.append place more) = t.append place (bytes ++ more) := by
  cases hnode : t.node? place with
  | none => simp only [append, hnode]
  | some node =>
      cases node with
      | folder => simp only [append, hnode]
      | link target => simp only [append, hnode]
      | fullDevice =>
          cases bytes with
          | nil => simp [append, hnode]
          | cons b bytes => simp [append, hnode]
      | file content room =>
          cases room with
          | none => simp [append, hnode, node?_put, put_put]
          | some room =>
              by_cases hfits : (content ++ bytes).length ≤ room
              · have htake : (content ++ bytes).take room = content ++ bytes :=
                  List.take_of_length_le hfits
                simp only [append, hnode, if_pos hfits, node?_put, if_true, htake, put_put,
                  List.append_assoc]
              · have htake :
                    (content ++ (bytes ++ more)).take room = (content ++ bytes).take room := by
                  rw [← List.append_assoc, List.take_append_of_le_length (by omega)]
                have hmore : ¬(content ++ (bytes ++ more)).length ≤ room := by
                  simp only [List.length_append] at hfits ⊢
                  omega
                simp only [append, hnode, if_neg hfits, if_neg hmore, htake]

/-- A file is still a file when bytes are written to it, and nothing else takes any. -/
theorem append_file (t : Tree) (place : Place) (bytes : List UInt8) :
    (∃ content room, (t.append place bytes).1.node? place = some (.file content room)) ∨
      (t.append place bytes).1 = t ∧ ∀ content room, t.node? place ≠ some (.file content room) := by
  unfold append
  split
  · exact .inl ⟨_, _, by rw [node?_put, if_pos rfl]⟩
  · exact .inl ⟨_, _, by rw [node?_put, if_pos rfl]⟩
  · next hplace => exact .inr ⟨rfl, by simp [hplace]⟩
  · next hnone hsome _ =>
    refine .inr ⟨rfl, fun content room heq => ?_⟩
    cases room with
    | none => exact hnone content heq
    | some room => exact hsome content room heq

/-- A write changes at most the place that its path leads to, where it leaves a file. -/
theorem write_cases (t : Tree) (path : String) (bytes : List UInt8) :
    (t.write path bytes).1 = t ∨
      ∃ spot content room, t.resolve true path = .ok spot ∧
        Alters t (t.write path bytes).1 spot.place ∧
        (t.write path bytes).1.node? spot.place = some (.file content room) := by
  unfold write
  split
  · exact .inl rfl
  · next place v hcreate =>
    obtain ⟨node, hspot, halters, hv⟩ := create_ok hcreate
    obtain ⟨content, room, hfile⟩ | ⟨heq, hnot⟩ := append_file v place bytes
    · exact .inr ⟨_, content, room, hspot, halters.trans (append_alters v place bytes), hfile⟩
    · obtain ⟨room, hempty⟩ | ⟨rfl, -⟩ := hv
      · exact absurd hempty (hnot [] room)
      · exact .inl heq

theorem limits_replace (t : Tree) (path : String) (bytes : List UInt8) :
    (t.replace path bytes).1.limits = t.limits := by
  unfold replace
  split
  · rfl
  · split
    · rfl
    · split
      · rfl
      · split <;> rfl

theorem limits_removeFolder (t : Tree) (path : String) :
    (t.removeFolder path).1.limits = t.limits := by
  unfold removeFolder
  split
  · rfl
  · rfl
  · split
    · rfl
    · split <;> rfl
  · rfl
  · rfl

/-- A folder is removed as far as it can be, and it is said whether all of it could. -/
theorem removeFolder_of_resolve {path : String} {place : Place}
    (h : t.resolve false path = .ok ⟨place, some .folder⟩)
    (hdot : (path.toList.splitOn '/').getLast? ≠ some ['.']) :
    t.removeFolder path =
      (t.removeBelow place, if t.stays place then .error .denied else .ok ()) := by
  unfold removeFolder
  rw [h]
  dsimp only
  rw [if_neg hdot]
  split <;> rfl

/-- Where nothing is refused nothing stays that is removed. -/
theorem stays_of_unlimited (hlimits : t.limits = {}) (place : Place) : t.stays place = false := by
  have hstuck : ∀ p, t.isStuck p = false := fun p => by
    simp [isStuck, isClosed, hlimits]
  simp [stays, hstuck]

theorem limits_write (t : Tree) (path : String) (bytes : List UInt8) :
    (t.write path bytes).1.limits = t.limits := by
  obtain heq | ⟨spot, content, room, -, halters, -⟩ := write_cases t path bytes
  · rw [heq]
  · exact halters.limits

/-- What a write that succeeds has written. -/
theorem write_ok {path : String} {bytes : List UInt8} (hbytes : bytes ≠ [])
    (h : t.write path bytes = (u, .ok ())) :
    ∃ spot room, t.resolve true path = .ok spot ∧ Alters t u spot.place ∧
      u.node? spot.place = some (.file bytes room) := by
  unfold write at h
  split at h
  · cases h
  next place v hcreate =>
  obtain ⟨node, hspot, halters, hv⟩ := create_ok hcreate
  obtain ⟨content, room, hplace, hwritten⟩ := append_ok hbytes h
  have happend := append_alters v place bytes
  rw [h] at happend
  obtain ⟨room', hempty⟩ | ⟨rfl, hnot⟩ := hv
  · cases hplace.symm.trans hempty
    exact ⟨_, room, hspot, halters.trans happend, hwritten⟩
  · exact absurd hplace (hnot content room)

/-- A number of bytes can be written at a place: to a file with room, or where nothing is and such a
file can be made. -/
def HasRoom (t : Tree) (n : Nat) (place : Place) : Prop :=
  match t.node? place with
  | none => t.isClosed place = false ∧ ∀ room ∈ t.roomFor place, n ≤ room
  | some (.file _ none) => True
  | some (.file _ (some room)) => n ≤ room
  | _ => False

theorem HasRoom.mono {m n : Nat} (hle : m ≤ n) {place : Place} (h : t.HasRoom n place) :
    t.HasRoom m place := by
  unfold HasRoom at *
  split at h
  · exact ⟨h.1, fun room hroom => Nat.le_trans hle (h.2 room hroom)⟩
  · trivial
  · exact Nat.le_trans hle h
  · exact h.elim

/-- The room at a place is that in another tree which is the same there. -/
theorem HasRoom.of_same {n : Nat} {place : Place} (h : t.HasRoom n place)
    (hlimits : u.limits = t.limits) (hnode : u.node? place = t.node? place) :
    u.HasRoom n place := by
  unfold HasRoom isClosed roomFor at *
  rwa [hnode, hlimits]

theorem hasRoom_of_file {content : List UInt8} {place : Place}
    (h : t.node? place = some (.file content none)) (n : Nat) : t.HasRoom n place := by
  unfold HasRoom
  rw [h]
  trivial

/-- Where nothing is limited there is room where nothing is. -/
theorem hasRoom_of_none {place : Place} (hlimits : t.limits = {}) (h : t.node? place = none)
    (n : Nat) : t.HasRoom n place := by
  unfold HasRoom isClosed roomFor
  rw [h, hlimits]
  exact ⟨rfl, fun room hroom => by cases hroom⟩

/-- A write succeeds exactly where its path leads to room for it. -/
theorem write_ok_iff {path : String} (hslash : demandsFolder path = false) {bytes : List UInt8}
    (hbytes : bytes ≠ []) :
    (t.write path bytes).2 = .ok () ↔
      ∃ spot, t.resolve true path = .ok spot ∧ t.HasRoom bytes.length spot.place := by
  have hempty : bytes.isEmpty = false := by simpa using hbytes
  rcases hspot : t.resolve true path with e | ⟨place, node⟩
  · simp [write, create, hspot]
  · have hnode : node = t.node? place := (resolve_eq_ok_iff.mp hspot).2.1
    have hiff : (∃ spot, (.ok ⟨place, node⟩ : Except Refusal Spot) = .ok spot ∧
        t.HasRoom bytes.length spot.place) ↔ t.HasRoom bytes.length place := by simp
    rw [hiff]
    rcases node with _ | _ | ⟨content, _ | room⟩ | target | _
    · cases hclosed : t.isClosed place <;> rcases hroom : t.roomFor place with _ | room
      all_goals
        simp [write, create, hspot, hslash, append, node?_put, ← hnode, HasRoom, hclosed, hroom]
    all_goals
      simp [write, create, hspot, append, node?_put, ← hnode, HasRoom, hempty]

/-- Where nothing can be written a write changes nothing. -/
theorem write_eq_self {path : String} {spot : Spot} (h : t.resolve true path = .ok spot)
    (hroom : ¬t.HasRoom 0 spot.place) (bytes : List UInt8) : (t.write path bytes).1 = t := by
  obtain ⟨place, node⟩ := spot
  have hnode : node = t.node? place := (resolve_eq_ok_iff.mp h).2.1
  unfold HasRoom at hroom
  dsimp only at hroom
  rw [← hnode] at hroom
  rcases node with _ | _ | ⟨content, _ | room⟩ | target | _
  · have hclosed : t.isClosed place = true := by
      rw [← Bool.not_eq_false]
      exact fun hopen => hroom ⟨hopen, fun room _ => Nat.zero_le room⟩
    have hcreate : ∃ e, t.create path = .error e := by
      rw [create, h]
      simp only [hclosed, if_true]
      split <;> exact ⟨_, rfl⟩
    obtain ⟨e, hcreate⟩ := hcreate
    rw [write, hcreate]
  · simp only [write, create, h]
  · exact absurd trivial hroom
  · exact absurd (Nat.zero_le room) hroom
  · simp only [write, create, h, append, ← hnode]
  · simp only [write, create, h, append, ← hnode]

/-- A write where there is room for it succeeds. -/
theorem write_of_resolve {path : String} {place : Place} {node : Option Node}
    (h : t.resolve true path = .ok ⟨place, node⟩) (hslash : demandsFolder path = false)
    {bytes : List UInt8} (hbytes : bytes ≠ []) (hroom : t.HasRoom bytes.length place) :
    ∃ u room, t.write path bytes = (u, .ok ()) ∧ Alters t u place ∧
      u.node? place = some (.file bytes room) := by
  have hok := (write_ok_iff hslash hbytes).mpr ⟨_, h, hroom⟩
  have hwrite : t.write path bytes = ((t.write path bytes).1, .ok ()) := Prod.ext rfl hok
  obtain ⟨spot, room, hspot, halters, hnode⟩ := write_ok hbytes hwrite
  obtain rfl := Except.ok.inj (h.symm.trans hspot)
  exact ⟨_, room, hwrite, halters, hnode⟩

/-- Where nothing is refused a file is made with what is written. -/
theorem write_of_none {path : String} {place : Place} (hlimits : t.limits = {})
    (h : t.resolve true path = .ok ⟨place, none⟩) (hslash : demandsFolder path = false)
    (bytes : List UInt8) : t.write path bytes = (t.put place (.file bytes none), .ok ()) := by
  have hclosed : t.isClosed place = false := by
    rw [isClosed, hlimits]
    rfl
  have hroom : t.roomFor place = none := by
    rw [roomFor, hlimits]
    rfl
  have hcreate : t.create path = .ok (place, t.put place (.file [] none)) := by
    unfold create
    rw [h]
    simp [hslash, hclosed, hroom]
  rw [write, hcreate]
  simp only [append, node?_put, if_true, List.nil_append, put_put]

/-- Where there is room for any number of bytes there still is after a write. -/
theorem HasRoom.after_write {path : String} {place : Place} {node : Option Node}
    (h : t.resolve true path = .ok ⟨place, node⟩) (hroom : ∀ n, t.HasRoom n place)
    (bytes : List UInt8) (n : Nat) : (t.write path bytes).1.HasRoom n place := by
  have hnode : node = t.node? place := (resolve_eq_ok_iff.mp h).2.1
  have hn := hroom n
  unfold HasRoom at hroom hn
  rw [← hnode] at hroom hn
  rcases node with _ | _ | ⟨content, _ | room⟩ | target | _
  · -- a file that is made here has no limit, or else it would have no room for one byte more
    have hlimit : t.roomFor place = none := by
      cases hlimit : t.roomFor place with
      | none => rfl
      | some room => exact absurd ((hroom (room + 1)).2 room hlimit) (Nat.not_succ_le_self room)
    by_cases hslash : demandsFolder path = true
    · have hsame : t.write path bytes = (t, .error .isAFolder) := by simp [write, create, h, hslash]
      rw [hsame, HasRoom, ← hnode]
      exact hn
    · simp [write, create, h, hslash, hn.1, hlimit, append, node?_put, HasRoom]
  · exact hn.elim
  · simp [write, create, h, append, node?_put, HasRoom]
  · exact absurd (hroom (room + 1)) (Nat.not_succ_le_self room)
  · exact hn.elim
  · exact hn.elim

/-- A file is put in full where a path leads, or nothing is changed. -/
theorem replace_cases (t : Tree) (path : String) (bytes : List UInt8) :
    (∃ e, t.replace path bytes = (t, .error e)) ∨
      ∃ place node, t.resolve false path = .ok ⟨place, node⟩ ∧ node ≠ some .folder ∧
        t.replace path bytes = (t.put place (.file bytes (t.roomFor place)), .ok ()) := by
  unfold replace
  split
  · exact .inl ⟨_, rfl⟩
  next place node hspot =>
  split
  · exact .inl ⟨_, rfl⟩
  next hfolder =>
  split
  · exact .inl ⟨_, rfl⟩
  split
  · exact .inl ⟨_, rfl⟩
  · exact .inr ⟨place, node, hspot, fun heq => hfolder (by simp [heq]), rfl⟩

/-- Where nothing is limited a file is put wherever no folder is. -/
theorem replace_of_resolve {path : String} {place : Place} {node : Option Node}
    (hlimits : t.limits = {}) (h : t.resolve false path = .ok ⟨place, node⟩)
    (hslash : demandsFolder path = false) (hnode : node ≠ some .folder) (bytes : List UInt8) :
    t.replace path bytes = (t.put place (.file bytes none), .ok ()) := by
  have hclosed : t.isClosed place = false := by
    rw [isClosed, hlimits]
    rfl
  have hroom : t.roomFor place = none := by
    rw [roomFor, hlimits]
    rfl
  unfold replace
  rw [h]
  simp [hslash, hnode, hclosed, hroom]

/-! ## folders -/

/-- A tree is another one with folders where nothing was. -/
structure AddsFolders (t u : Tree) : Prop where
  home : u.home = t.home
  limits : u.limits = t.limits
  node : ∀ q, u.node? q = t.node? q ∨ (t.node? q = none ∧ u.node? q = some .folder)

namespace AddsFolders

theorem refl (t : Tree) : AddsFolders t t := ⟨rfl, rfl, fun _ => .inl rfl⟩

theorem trans (h : AddsFolders t u) (h' : AddsFolders u v) : AddsFolders t v where
  home := h'.home.trans h.home
  limits := h'.limits.trans h.limits
  node q := by
    obtain hu | ⟨ht, hu⟩ := h.node q
    · rw [← hu]
      exact h'.node q
    · obtain hv | ⟨hu', -⟩ := h'.node q
      · exact .inr ⟨ht, hv.trans hu⟩
      · exact absurd (hu'.symm.trans hu) (by simp)

theorem node?_of_some (h : AddsFolders t u) {q : Place} {node : Node} (hq : t.node? q = some node) :
    u.node? q = some node := by
  obtain hu | ⟨ht, -⟩ := h.node q
  · exact hu.trans hq
  · exact absurd (ht.symm.trans hq) (by simp)

theorem grows (h : AddsFolders t u) : Grows t u where
  home := h.home
  folder p hp := h.node?_of_some hp
  link p target := by
    refine ⟨fun hp => ?_, fun hp => h.node?_of_some hp⟩
    obtain hu | ⟨-, hu⟩ := h.node p
    · exact hu.symm.trans hp
    · exact absurd (hu.symm.trans hp) (by simp)

end AddsFolders

theorem makeFolder_adds {path : String} (h : t.makeFolder path = .ok u) : AddsFolders t u := by
  unfold makeFolder at h
  split at h
  · cases h
  · next place hspot =>
    have hnode : none = t.node? place := (resolve_eq_ok_iff.mp hspot).2.1
    split at h
    · cases h
    cases h
    refine ⟨rfl, rfl, fun q => ?_⟩
    rw [node?_put]
    by_cases hq : q = place
    · exact .inr ⟨hq ▸ hnode.symm, if_pos hq⟩
    · exact .inl (if_neg hq)
  · cases h

theorem ensureFolder_adds (t : Tree) (path : String) : AddsFolders t (t.ensureFolder path).1 := by
  unfold ensureFolder
  split
  · next hmake => exact makeFolder_adds hmake
  · exact .refl t

theorem makeFoldersUp_adds (t : Tree) (absolute : Bool) (path : List String) :
    AddsFolders t (t.makeFoldersUp absolute path).1 := by
  induction path generalizing t with
  | nil => exact .refl t
  | cons name above ih =>
      unfold makeFoldersUp
      dsimp only
      split
      · next hmake => exact makeFolder_adds hmake
      · have habove := ih t
        split
        · next heq => exact heq ▸ habove
        · next u heq =>
          rw [heq] at habove
          exact habove.trans (ensureFolder_adds u _)
      · exact .refl t

theorem makeFolders_adds (t : Tree) (path : String) : AddsFolders t (t.makeFolders path).1 := by
  unfold makeFolders
  split
  · exact .refl t
  · exact makeFoldersUp_adds t _ _

section Name

variable {name : String} (hname : IsName name)
include hname

theorem makeFolders_eq_up : t.makeFolders name = t.makeFoldersUp false [name] := by
  have hnul : ¬name.toList.contains '\x00' = true := by simpa using hname.nul
  rw [makeFolders, if_neg hnul, hname.names, hname.isAbsolute, List.reverse_singleton]

/-- A folder that is there is not made again. -/
theorem makeFolders_name {place : Place} (h : ∀ f, t.resolve f name = .ok ⟨place, some .folder⟩) :
    t.makeFolders name = (t, .ok ()) := by
  have hmake : t.makeFolder name = .error .alreadyExists := by rw [makeFolder, h]
  have hfolder : t.isFolder name = true := by rw [isFolder, h]
  have hpath : pathOf false [name] = name := by simp [pathOf]
  rw [makeFolders_eq_up hname, makeFoldersUp]
  simp only [List.reverse_singleton, hpath, hmake, hfolder, if_true]

/-- Where nothing is a folder is made, unless that is refused. -/
theorem makeFolders_put {place : Place} (hclosed : t.isClosed place = false)
    (h : t.resolve false name = .ok ⟨place, none⟩) :
    t.makeFolders name = (t.put place .folder, .ok ()) := by
  have hmake : t.makeFolder name = .ok (t.put place .folder) := by
    rw [makeFolder, h]
    exact if_neg (by rw [hclosed]; decide)
  have hpath : pathOf false [name] = name := by simp [pathOf]
  rw [makeFolders_eq_up hname, makeFoldersUp]
  simp only [List.reverse_singleton, hpath, hmake]

end Name

end Concordance.Files.Tree
