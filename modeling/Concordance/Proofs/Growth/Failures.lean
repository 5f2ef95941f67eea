import Concordance.Proofs.Growth.Files

/-!
# Concordance.Proofs.Growth.Failures

Saving where some of the growth files cannot be written.  The files are written in order, so the
first one that is refused parts those that are complete from those that are as they were.

* `writeFiles_error` — the file at which the writing stops;
* `Stopped`, `stopped_of_writeFiles` — what it leaves;
* `save_course` — how saving ends, and that it can be done again.
-/

namespace Concordance.Growth

open Files
open Files.Tree (bytesOf Grows Alters AddsFolders)

variable {tracker : Tracker} {t u v : Tree} {folder : String} {first : Nat}
  {curves : List (List Point)}

-- a write is not to be computed where the writes of a list are taken apart
attribute [local irreducible] Tree.resolve

/-! ## one write -/

theorem write_grows (t : Tree) (path : String) (bytes : List UInt8) :
    Grows t (t.write path bytes).1 := by
  obtain heq | ⟨spot, -, -, -, halters, -⟩ := Tree.write_cases t path bytes
  · rw [heq]
    exact .refl t
  · exact halters.grows

/-- A write changes at most the place where its path leads, and that only if something can be
written there. -/
theorem write_node? (t : Tree) (path : String) (bytes : List UInt8) (q : Place) :
    (t.write path bytes).1.node? q = t.node? q ∨
      ∃ node, t.resolve true path = .ok ⟨q, node⟩ ∧ t.HasRoom 0 q := by
  obtain heq | ⟨⟨place, node⟩, -, -, hspot, halters, -⟩ := Tree.write_cases t path bytes
  · exact .inl (by rw [heq])
  by_cases hq : q = place
  · subst hq
    by_cases hroom : t.HasRoom 0 q
    · exact .inr ⟨node, hspot, hroom⟩
    · exact .inl (by rw [Tree.write_eq_self hspot hroom])
  · exact .inl (halters.other q hq)

/-- A file is read alike where its place is as it was. -/
theorem StandsAt.readBytes_eq {document : Nat} {place : Place} (h : StandsAt t folder document place)
    (hg : Grows t u) (hsame : u.node? place = t.node? place) :
    u.readBytes (filePath folder document) = t.readBytes (filePath folder document) := by
  obtain ⟨node, hspot⟩ := h
  have hspot' := Tree.resolve_grows hg hspot (demandsFolder_join (isName_fileName document) folder)
  have hnode : node = t.node? place := (Tree.resolve_eq_ok_iff.mp hspot).2.1
  rw [hsame, ← hnode] at hspot'
  rw [Tree.readBytes, Tree.readBytes, hspot, hspot']

/-! ## where the writing stops -/

/-- Where the writing fails, the files before one are written and that one is refused. -/
theorem writeFiles_error {e : Fault} (h : writeFiles t folder first curves = (u, .error e)) :
    ∃ k points v paths cause, curves[k]? = some points ∧
      writeFiles t folder first (curves.take k) = (v, .ok paths) ∧
      v.write (filePath folder (first + k)) (bytesOf (render points)) = (u, .error cause) ∧
      e = .growth (filePath folder (first + k)) (.refused cause) := by
  induction curves generalizing t first with
  | nil => cases h
  | cons points curves ih =>
      rw [writeFiles_cons] at h
      split at h
      · next v cause hwrite =>
        cases h
        exact ⟨0, points, t, [], cause, rfl, rfl, hwrite, rfl⟩
      next v hwrite =>
      split at h
      · next hrest =>
        cases h
        obtain ⟨k, points', v', paths, cause, hk, hbefore, hrefused, he⟩ := ih hrest
        have hsum : first + (k + 1) = first + 1 + k := by omega
        refine ⟨k + 1, points', v', filePath folder first :: paths, cause, by simpa using hk, ?_,
          hsum ▸ hrefused, hsum ▸ he⟩
        rw [List.take_succ_cons, writeFiles_cons, hwrite]
        simp only [hbefore]
      · cases h

/-- What is left where the writing of files has stopped at one of them. -/
structure Stopped (t u : Tree) (folder : String) (first : Nat) (curves : List (List Point))
    (k : Nat) : Prop where
  grows : Grows t u
  limits : u.limits = t.limits
  /-- It is the first one that cannot be written. -/
  fails : ∃ points, curves[k]? = some points ∧ ¬Accepts t folder (first + k) points
  accepts : ∀ j < k, ∀ points, curves[j]? = some points → Accepts t folder (first + j) points
  /-- Those before it are complete. -/
  bytes : ∀ j < k, ∀ points, curves[j]? = some points →
    u.readBytes (filePath folder (first + j)) = .ok (bytesOf (render points))
  /-- Those after it are as they were, and so is everything that is no growth file. -/
  later : ∀ j, k < j → j < curves.length → ∀ q, StandsAt t folder (first + j) q →
    u.node? q = t.node? q
  other : ∀ q, (∀ j ≤ k, ¬StandsAt t folder (first + j) q) → u.node? q = t.node? q

/-- No file stands where another one before it can be written. -/
theorem Apart.clear (hapart : Apart t folder (first + curves.length)) {k : Nat}
    (haccepts : ∀ i < k, ∀ points, curves[i]? = some points → Accepts t folder (first + i) points)
    {i j : Nat} (hi : i < k) (hkj : k ≤ j) (hj : j < curves.length) {q : Place}
    (hq : StandsAt t folder (first + i) q) : ¬StandsAt t folder (first + j) q := by
  obtain ⟨points, hpoints⟩ : ∃ points, curves[i]? = some points :=
    ⟨_, List.getElem?_eq_getElem (by omega)⟩
  exact hapart.ne (by omega) (by omega) (by omega) (haccepts i hi points hpoints) hq

/-- A file that is refused after others were written could not have been written before them. -/
theorem not_accepts_of_refused {k : Nat} {points : List Point} {cause : Refusal}
    (hgrows : Grows t v) (hlimits : v.limits = t.limits)
    (hsame : ∀ q, StandsAt t folder k q → v.node? q = t.node? q)
    (hrefused : v.write (filePath folder k) (bytesOf (render points)) = (u, .error cause)) :
    ¬Accepts t folder k points := by
  intro haccepts
  have hv := haccepts.of_same hgrows hlimits hsame
  rw [Accepts, writeSheet_eq, hrefused] at hv
  cases hv

/-- Writing that fails has stopped at a file, and says which. -/
theorem stopped_of_writeFiles {e : Fault} (h : writeFiles t folder first curves = (u, .error e))
    (hapart : Apart t folder (first + curves.length)) :
    ∃ k < curves.length, ∃ cause, e = .growth (filePath folder (first + k)) (.refused cause) ∧
      Stopped t u folder first curves k := by
  obtain ⟨k, points, v, paths, cause, hk, hbefore, hrefused, he⟩ := writeFiles_error h
  have hlt : k < curves.length := (List.getElem?_eq_some_iff.mp hk).1
  have htake : (curves.take k).length ≤ k := List.length_take_le k curves
  obtain ⟨hwrote, haccepts⟩ := wrote_of_apart hbefore (hapart.mono (by omega))
  have htaken : ∀ j < k, ∀ points, curves[j]? = some points → (curves.take k)[j]? = some points :=
    fun j hj points hpoints => by rwa [List.getElem?_take_of_lt hj]
  have haccepts : ∀ j < k, ∀ points, curves[j]? = some points →
      Accepts t folder (first + j) points :=
    fun j hj points hpoints => haccepts j points (htaken j hj points hpoints)
  have hsame : ∀ j, k ≤ j → j < curves.length → ∀ q, StandsAt t folder (first + j) q →
      v.node? q = t.node? q := fun j hkj hj q hjq =>
    hwrote.other q fun i hi hiq => hapart.clear haccepts (by omega) hkj hj hiq hjq
  -- the refused write itself changes no place but the one of its file
  have hu : u = (v.write (filePath folder (first + k)) (bytesOf (render points))).1 := by
    rw [hrefused]
  have hgrows : Grows v u := hu ▸ write_grows v _ _
  have hchanged : ∀ q, u.node? q = v.node? q ∨
      StandsAt t folder (first + k) q ∧ v.HasRoom 0 q := fun q => by
    rw [hu]
    refine (write_node? v _ _ q).imp id ?_
    rintro ⟨node, hspot, hroom⟩
    exact ⟨StandsAt.grows ⟨node, hspot⟩ hwrote.shrinks, hroom⟩
  have hlimits : u.limits = v.limits := hu ▸ Tree.limits_write v _ _
  refine ⟨k, hlt, cause, he, hwrote.grows.trans hgrows, hlimits.trans hwrote.limits,
    ⟨points, hk, not_accepts_of_refused hwrote.grows hwrote.limits (hsame k (Nat.le_refl k) hlt)
      hrefused⟩,
    haccepts, fun j hj points' hpoints' => ?_, fun j hkj hj q hjq => ?_, fun q hq => ?_⟩
  · obtain ⟨place, hstands, -⟩ := accepts_iff.mp (haccepts j hj points' hpoints')
    rw [← hwrote.bytes j points' (htaken j hj points' hpoints')]
    refine (hstands.grows hwrote.grows).readBytes_eq hgrows ?_
    exact (hchanged place).resolve_right fun ⟨hkq, _⟩ =>
      hapart.clear haccepts hj (Nat.le_refl k) hlt hstands hkq
  · have hq := hsame j (Nat.le_of_lt hkj) hj q hjq
    refine ((hchanged q).resolve_right fun ⟨hkq, hroom⟩ => ?_).trans hq
    have heq := hapart _ (by omega) _ (by omega) q hkq hjq
      (hroom.of_same hwrote.limits.symm hq.symm)
    omega
  · refine ((hchanged q).resolve_right fun ⟨hkq, _⟩ => hq k (Nat.le_refl k) hkq).trans ?_
    exact hwrote.other q fun i hi => hq i (by omega)

/-! ## saving -/

theorem limits_writeFiles (t : Tree) (folder : String) (first : Nat) (curves : List (List Point)) :
    (writeFiles t folder first curves).1.limits = t.limits := by
  induction curves generalizing t first with
  | nil => rfl
  | cons points curves ih =>
      have hwrite := Tree.limits_write t (filePath folder first) (bytesOf (render points))
      rw [writeFiles_cons]
      rcases heq : t.write (filePath folder first) (bytesOf (render points)) with ⟨v, e | _⟩
      all_goals rw [heq] at hwrite
      · exact hwrite
      · have hrest := (ih v (first + 1)).trans hwrite
        dsimp only
        split
        all_goals
          next heq =>
          rw [heq] at hrest
          exact hrest

/-- Saving changes nothing of what is refused. -/
theorem limits_save (tracker : Tracker) (t : Tree) (folder : String) :
    (tracker.save t folder).1.limits = t.limits := by
  have hmake := (Tree.makeFolders_adds t folder).limits
  unfold Tracker.save
  rcases heq : t.makeFolders folder with ⟨x, e | _⟩
  all_goals rw [heq] at hmake
  · exact hmake
  · exact (limits_writeFiles x folder 0 tracker.curves).trans hmake

/-- The growth file of a document holds all of its points. -/
def Complete (tracker : Tracker) (t : Tree) (folder : String) (document : Nat) : Prop :=
  ∃ points, tracker.points document = .ok points ∧
    t.readBytes (filePath folder document) = .ok (bytesOf (render points))

/-- The growth file of a document cannot be created or has no room for its points. -/
def Fails (tracker : Tracker) (t : Tree) (folder : String) (document : Nat) : Prop :=
  ∃ points, tracker.points document = .ok points ∧ ¬Accepts t folder document points

/-- A folder can be made and takes all growth files of a tracker. -/
structure Welcomes (tracker : Tracker) (t : Tree) (folder : String) : Prop where
  made : (t.makeFolders folder).2 = .ok ()
  apart : Apart (t.makeFolders folder).1 folder tracker.count
  files : ∀ d < tracker.count, ¬Fails tracker (t.makeFolders folder).1 folder d

theorem length_curves (tracker : Tracker) : tracker.curves.length = tracker.count := by
  simp [Tracker.curves, Tracker.count]

theorem points_eq_ok_iff {document : Nat} {points : List Point} :
    tracker.points document = .ok points ↔ tracker.curves[document]? = some points := by
  rw [Tracker.points, Tracker.curve, Tracker.curves, List.getElem?_map, Array.getElem?_toList]
  cases tracker.documents[document]? <;> simp [Except.map]

theorem exists_points {document : Nat} (h : document < tracker.count) :
    ∃ points, tracker.points document = .ok points := by
  rw [← length_curves] at h
  exact ⟨_, points_eq_ok_iff.mpr (List.getElem?_eq_getElem h)⟩

section Save

variable {x : Tree}

theorem save_of_made (hmake : t.makeFolders folder = (x, .ok ())) :
    tracker.save t folder = writeFiles x folder 0 tracker.curves := by
  unfold Tracker.save
  rw [hmake]

/-- Saving that succeeds has written every file. -/
theorem complete_of_save (hmake : t.makeFolders folder = (x, .ok ()))
    (hapart : Apart x folder tracker.count) {paths : List String}
    (h : tracker.save t folder = (u, .ok paths)) :
    paths = (List.range tracker.count).map (filePath folder) ∧
      ∀ d < tracker.count, Complete tracker u folder d ∧ ¬Fails tracker x folder d := by
  rw [save_of_made hmake] at h
  rw [← length_curves, ← Nat.zero_add tracker.curves.length] at hapart
  obtain ⟨hwrote, haccepts⟩ := wrote_of_apart h hapart
  refine ⟨?_, fun d hd => ?_⟩
  · rw [(writeFiles_ok h).1, length_curves, List.range_eq_range']
  · obtain ⟨points, hpoints⟩ := exists_points hd
    have hcurve := points_eq_ok_iff.mp hpoints
    refine ⟨⟨points, hpoints, ?_⟩, ?_⟩
    · rw [← hwrote.bytes d points hcurve, Nat.zero_add]
    · rintro ⟨points', hpoints', hrefuses⟩
      have haccepts := haccepts d points' (points_eq_ok_iff.mp hpoints')
      rw [Nat.zero_add] at haccepts
      exact hrefuses haccepts

/-- Saving that fails once the folder is made has stopped at the first file
that cannot be written. -/
theorem stopped_of_save (hmake : t.makeFolders folder = (x, .ok ()))
    (hapart : Apart x folder tracker.count) {e : Fault}
    (h : tracker.save t folder = (u, .error e)) :
    ∃ k < tracker.count, ∃ cause, e = .growth (filePath folder k) (.refused cause) ∧
      Fails tracker x folder k ∧
      (∀ d < k, ¬Fails tracker x folder d ∧ Complete tracker u folder d) ∧
      Grows x u ∧
      ∀ q, ((∀ d ≤ k, ¬StandsAt x folder d q) ∨
        ∃ d < tracker.count, k < d ∧ StandsAt x folder d q) → u.node? q = x.node? q := by
  rw [save_of_made hmake] at h
  rw [← length_curves, ← Nat.zero_add tracker.curves.length] at hapart
  obtain ⟨k, hk, cause, he, hstopped⟩ := stopped_of_writeFiles h hapart
  obtain ⟨points, hpoints, hrefuses⟩ := hstopped.fails
  rw [length_curves] at hk
  rw [Nat.zero_add] at he hrefuses
  refine ⟨k, hk, cause, he, ⟨points, points_eq_ok_iff.mpr hpoints, hrefuses⟩, fun d hd => ?_,
    hstopped.grows, ?_⟩
  · obtain ⟨points, hpoints⟩ := exists_points (Nat.lt_trans hd hk)
    have hcurve := points_eq_ok_iff.mp hpoints
    refine ⟨?_, points, hpoints, ?_⟩
    · rintro ⟨points', hpoints', hrefuses⟩
      have haccepts := hstopped.accepts d hd points' (points_eq_ok_iff.mp hpoints')
      rw [Nat.zero_add] at haccepts
      exact hrefuses haccepts
    · rw [← hstopped.bytes d hd points hcurve, Nat.zero_add]
  · rintro q (hq | ⟨d, hd, hkd, hq⟩)
    · exact hstopped.other q fun j hj => by
        rw [Nat.zero_add]
        exact hq j hj
    · refine hstopped.later d hkd (by rwa [length_curves]) q ?_
      rwa [Nat.zero_add]

/-- Saving succeeds where the folder takes all files. -/
theorem exists_save (h : Welcomes tracker t folder) :
    ∃ u, tracker.save t folder = (u, .ok ((List.range tracker.count).map (filePath folder))) ∧
      ∀ d < tracker.count, Complete tracker u folder d := by
  have hmake : t.makeFolders folder = ((t.makeFolders folder).1, .ok ()) := Prod.ext rfl h.made
  rcases hsave : tracker.save t folder with ⟨u, e | paths⟩
  · obtain ⟨k, hk, -, -, hfails, -⟩ := stopped_of_save hmake h.apart hsave
    exact absurd hfails (h.files k hk)
  · obtain ⟨rfl, hcomplete⟩ := complete_of_save hmake h.apart hsave
    exact ⟨u, rfl, fun d hd => (hcomplete d hd).1⟩

end Save

/-- **Saving where files cannot be written**: it succeeds only if every file holds all of its
points, and otherwise names the folder that could not be made or the first file that could not be
written.  The files before that one are complete, those after it and everything else are as they
were when the folder had been made, which adds folders only.  A tracker stays as it is, so that it
can be saved again: a folder that takes all files has the same ones
afterwards whatever came before. -/
theorem save_course (tracker : Tracker) :
    (∀ (t x : Tree) (made : Except Refusal Unit) (folder : String),
      t.makeFolders folder = (x, made) → Apart x folder tracker.count →
        AddsFolders t x ∧
        (∀ u paths, tracker.save t folder = (u, .ok paths) →
          paths = (List.range tracker.count).map (filePath folder) ∧
            ∀ d < tracker.count, Complete tracker u folder d ∧ ¬Fails tracker x folder d) ∧
        ∀ u e, tracker.save t folder = (u, .error e) →
          (u = x ∧ ∃ cause, made = .error cause ∧ e = .growth folder (.refused cause)) ∨
          (made = .ok () ∧ ∃ k < tracker.count, ∃ cause,
            e = .growth (filePath folder k) (.refused cause) ∧
            Fails tracker x folder k ∧
            (∀ d < k, ¬Fails tracker x folder d ∧ Complete tracker u folder d) ∧
            Grows x u ∧
            ∀ q, ((∀ d ≤ k, ¬StandsAt x folder d q) ∨
              ∃ d < tracker.count, k < d ∧ StandsAt x folder d q) → u.node? q = x.node? q)) ∧
    ∀ (t t' : Tree) (folder : String), Welcomes tracker t folder → Welcomes tracker t' folder →
      ∃ u u' paths, tracker.save t folder = (u, .ok paths) ∧
        tracker.save t' folder = (u', .ok paths) ∧
        ∀ d < tracker.count, Complete tracker u folder d ∧
          u.readBytes (filePath folder d) = u'.readBytes (filePath folder d) := by
  constructor
  · intro t x made folder hmake hapart
    have hadds := Tree.makeFolders_adds t folder
    rw [hmake] at hadds
    rcases made with cause | _
    · have hsave : tracker.save t folder = (x, .error (.growth folder (.refused cause))) := by
        unfold Tracker.save
        rw [hmake]
      refine ⟨hadds, fun u paths h => ?_, fun u e h => ?_⟩
      · rw [hsave] at h
        cases h
      · rw [hsave] at h
        cases h
        exact .inl ⟨rfl, cause, rfl, rfl⟩
    · exact ⟨hadds, fun u paths => complete_of_save hmake hapart,
        fun u e h => .inr ⟨rfl, stopped_of_save hmake hapart h⟩⟩
  · intro t t' folder h h'
    obtain ⟨u, hsave, hcomplete⟩ := exists_save h
    obtain ⟨u', hsave', hcomplete'⟩ := exists_save h'
    refine ⟨u, u', _, hsave, hsave', fun d hd => ⟨hcomplete d hd, ?_⟩⟩
    obtain ⟨points, hpoints, hbytes⟩ := hcomplete d hd
    obtain ⟨points', hpoints', hbytes'⟩ := hcomplete' d hd
    obtain rfl := Except.ok.inj (hpoints.symm.trans hpoints')
    rw [hbytes, hbytes']

/-! ## files in a folder -/

theorem accepts_iff_of_folder {place : Place} {count : Nat}
    (hfolder : t.resolve true folder = .ok ⟨place, some .folder⟩)
    (hnames : ∀ d < count, (fileName d).utf8ByteSize ≤ Tree.nameLimit ∧
      ∀ target, t.node? (place ++ [fileName d]) ≠ some (.link target))
    {d : Nat} (hd : d < count) {points : List Point} : Accepts t folder d points ↔
      t.HasRoom (bytesOf (render points)).length (place ++ [fileName d]) := by
  rw [accepts_iff]
  constructor
  · rintro ⟨q, hq, hroom⟩
    rwa [(standsAt_iff_of_folder hfolder hnames hd).mp hq] at hroom
  · exact fun hroom => ⟨_, (standsAt_iff_of_folder hfolder hnames hd).mpr rfl, hroom⟩

/-- A new folder takes all files where nothing is limited. -/
theorem welcomes_of_new {name : String} (hlimits : t.limits = {}) (hname : IsName name)
    (hhome : t.node? t.home = some .folder) (hsize : name.utf8ByteSize ≤ Tree.nameLimit)
    (hnew : t.node? (t.home ++ [name]) = none)
    (hfiles : ∀ d < tracker.count, (fileName d).utf8ByteSize ≤ Tree.nameLimit ∧
      t.node? (t.home ++ [name] ++ [fileName d]) = none) : Welcomes tracker t name := by
  have hspot := Tree.resolve_name (f := false) hname hhome hsize fun target heq => by
    rw [hnew] at heq
    cases heq
  rw [hnew] at hspot
  have hclosed : t.isClosed (t.home ++ [name]) = false := by
    rw [Tree.isClosed, hlimits]
    rfl
  have hlimits' : (t.put (t.home ++ [name]) .folder).limits = {} := hlimits
  have hmake := Tree.makeFolders_put hname hclosed hspot
  have hnode : (t.put (t.home ++ [name]) .folder).node? (t.home ++ [name]) = some .folder := by
    rw [Tree.node?_put, if_pos rfl]
  have hhome' : (t.put (t.home ++ [name]) .folder).node? t.home = some .folder := by
    rw [Tree.node?_put, if_neg fun heq => by simpa using congrArg List.length heq, hhome]
  have hfolder : (t.put (t.home ++ [name]) .folder).resolve true name =
      .ok ⟨t.home ++ [name], (t.put (t.home ++ [name]) .folder).node? (t.home ++ [name])⟩ :=
    Tree.resolve_name hname hhome' hsize fun target heq => by cases hnode.symm.trans heq
  rw [hnode] at hfolder
  have hnone : ∀ d < tracker.count,
      (t.put (t.home ++ [name]) .folder).node? (t.home ++ [name] ++ [fileName d]) = none :=
    fun d hd => by
      rw [Tree.node?_put, if_neg (by simp)]
      exact (hfiles d hd).2
  have hnames : ∀ d < tracker.count, (fileName d).utf8ByteSize ≤ Tree.nameLimit ∧
      ∀ target, (t.put (t.home ++ [name]) .folder).node? (t.home ++ [name] ++ [fileName d]) ≠
        some (.link target) := fun d hd => ⟨(hfiles d hd).1, fun target heq => by
    rw [hnone d hd] at heq
    cases heq⟩
  refine ⟨by rw [hmake], ?_, ?_⟩
  · rw [hmake]
    exact (unlinked_of_folder hfolder hnames).apart
  · rw [hmake]
    rintro d hd ⟨points, -, hrefuses⟩
    exact hrefuses ((accepts_iff_of_folder hfolder hnames hd).mpr
      (Tree.hasRoom_of_none hlimits' (hnone d hd) _))

/-! ## a folder that is full -/

/-- A folder with the files of an earlier run, one of which holds no more than three bytes. -/
def crowded : Tree where
  home := ["work"]
  nodes := [([], .folder), (["work"], .folder), (["work", "growth"], .folder),
    (["work", "growth", "heap-0.csv"], .file [116] none),
    (["work", "growth", "heap-1.csv"], .file [] (some 3)),
    (["work", "growth", "heap-2.csv"], .file [57] none)]

/-- The growth of three documents, the last one without tokens. -/
def threeCurves : Tracker := ⟨#[{ points := #[⟨1, 1⟩] }, { points := #[⟨1, 1⟩, ⟨2, 1⟩] }, {}]⟩

theorem resolve_crowded (f : Bool) :
    crowded.resolve f "growth" = .ok ⟨["work", "growth"], some .folder⟩ :=
  Tree.resolve_name (by constructor <;> decide) (by decide) (by decide) fun target heq => by
    cases heq

theorem fileName_lt_three {d : Nat} (hd : d < 3) :
    (fileName d).utf8ByteSize ≤ Tree.nameLimit ∧
      ∀ target, crowded.node? (["work", "growth"] ++ [fileName d]) ≠ some (.link target) := by
  obtain rfl | rfl | rfl : d = 0 ∨ d = 1 ∨ d = 2 := by omega
  all_goals
    refine ⟨by decide, fun target heq => ?_⟩
    cases heq

theorem fails_crowded : Fails threeCurves crowded "growth" 1 := by
  refine ⟨[⟨1, 1⟩, ⟨2, 1⟩], rfl, fun haccepts => ?_⟩
  have hroom : (bytesOf (render [⟨1, 1⟩, ⟨2, 1⟩])).length ≤ 3 :=
    (accepts_iff_of_folder (resolve_crowded true) (fun d => fileName_lt_three)
      (by decide : 1 < 3)).mp haccepts
  exact absurd hroom (by decide)

theorem accepts_crowded (points : List Point) : Accepts crowded "growth" 0 points :=
  (accepts_iff_of_folder (resolve_crowded true) (fun _ => fileName_lt_three)
    (by decide : 0 < 3)).mpr (Tree.hasRoom_of_file rfl _)

/-- A folder beside the one that is full takes all files, if nothing has come there meanwhile. -/
theorem welcomes_spare (hlimits : u.limits = {}) (hhome : u.home = ["work"])
    (hfolder : u.node? ["work"] = some .folder)
    (hnone : ∀ q, ["work", "spare"] <+: q → u.node? q = none) :
    Welcomes threeCurves u "spare" := by
  refine welcomes_of_new hlimits (by constructor <;> decide) (by rw [hhome, hfolder]) (by decide)
    ?_ ?_
  · rw [hhome]
    exact hnone _ ⟨[], rfl⟩
  · intro d hd
    rw [hhome]
    exact ⟨(fileName_lt_three hd).1, hnone _ ⟨[fileName d], rfl⟩⟩

/-- The second file is refused.  The first one is written, the third one is as it was, and another
folder gets the same files as if nothing had been saved before. -/
theorem save_course_crowded :
    ∃ u cause, threeCurves.save crowded "growth" =
        (u, .error (.growth "growth/heap-1.csv" (.refused cause))) ∧
      Complete threeCurves u "growth" 0 ∧
      u.node? ["work", "growth", "heap-2.csv"] = some (.file [57] none) ∧
      ∃ v v' paths, threeCurves.save u "spare" = (v, .ok paths) ∧
        threeCurves.save crowded "spare" = (v', .ok paths) ∧
        ∀ d < 3, v.readBytes (filePath "spare" d) = v'.readBytes (filePath "spare" d) := by
  obtain ⟨hsaving, hagain⟩ := save_course threeCurves
  have hmake : crowded.makeFolders "growth" = (crowded, .ok ()) :=
    Tree.makeFolders_name (by constructor <;> decide) resolve_crowded
  have hstands : ∀ {d : Nat}, d < 3 → ∀ {q : Place},
      StandsAt crowded "growth" d q ↔ q = ["work", "growth"] ++ [fileName d] := fun hd =>
    standsAt_iff_of_folder (resolve_crowded true) (fun _ => fileName_lt_three) hd
  have hapart : Apart crowded "growth" 3 :=
    (unlinked_of_folder (resolve_crowded true) fun _ => fileName_lt_three).apart
  obtain ⟨-, hok, herror⟩ := hsaving crowded crowded (.ok ()) "growth" hmake hapart
  rcases hsave : threeCurves.save crowded "growth" with ⟨u, e | paths⟩
  · obtain ⟨-, cause, hmade, -⟩ | ⟨-, k, hk, cause, rfl, hfails, hbefore, hgrows, hother⟩ :=
      herror u e hsave
    · cases hmade
    obtain rfl : k = 1 := by
      have hle : ¬1 < k := fun hlt => (hbefore 1 hlt).1 fails_crowded
      have hne : k ≠ 0 := by
        rintro rfl
        obtain ⟨points, -, hrefuses⟩ := hfails
        exact hrefuses (accepts_crowded points)
      omega
    have hsame : ∀ q, (∀ d ≤ 1, q ≠ ["work", "growth"] ++ [fileName d]) →
        u.node? q = crowded.node? q := fun q hq =>
      hother q (.inl fun d hd hstand => hq d hd ((hstands (by omega)).mp hstand))
    have hspare : ∀ q, ["work", "spare"] <+: q → u.node? q = none := by
      rintro _ ⟨rest, rfl⟩
      rw [hsame _ fun d _ heq => by simp at heq]
      rfl
    have hlimits : u.limits = {} := by
      have hkept := limits_save threeCurves crowded "growth"
      rwa [hsave] at hkept
    refine ⟨u, cause, rfl, (hbefore 0 (by decide)).2, ?_, ?_⟩
    · exact hother ["work", "growth", "heap-2.csv"]
        (.inr ⟨2, by decide, by decide, (hstands (by decide)).mpr rfl⟩)
    · obtain ⟨v, v', paths, hv, hv', hfiles⟩ := hagain u crowded "spare"
        (welcomes_spare hlimits hgrows.home (hgrows.folder _ rfl) hspare)
        (welcomes_spare rfl rfl rfl (by rintro _ ⟨rest, rfl⟩; rfl))
      exact ⟨v, v', paths, hv, hv', fun d hd => (hfiles d hd).2⟩
  · exact absurd fails_crowded ((hok u paths hsave).2 1 (by decide)).2

end Concordance.Growth
