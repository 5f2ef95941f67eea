import Concordance.Growth.Files
import Concordance.Proofs.Files.Changes
import Concordance.Proofs.Files.Text
import Concordance.Proofs.Growth.Sheet
import Mathlib.Data.List.Nodup

/-!
# Concordance.Proofs.Growth.Files

The growth files of a run in their folder.  Where no two of them are linked to one another, every
document's file holds that document's points, and nothing else is changed.

* `writeSheet_eq` — a file is written piece by piece like all at once;
* `Wrote.cons`, `wrote_of_writeFiles` — what writing one file, and then all of them, leaves;
* `exists_writeFiles` — files are written where there is nothing in the way;
* `load_of_save` — what was saved is loaded again.
-/

namespace Concordance.Growth

open Files
open Files.Tree (bytesOf Grows Alters AddsFolders)

/-! ## pieces -/

theorem flatten_pieces (bytes : List UInt8) : (pieces bytes).flatten = bytes := by
  fun_induction pieces bytes with
  | case1 bytes hfits => simp
  | case2 bytes hmore ih => rw [List.flatten_cons, ih, List.take_append_drop]

/-- Pieces written one after the other, and then some bytes, are written like all
of them at once. -/
theorem appendPieces_append (t : Tree) (place : Place) (chunks : List (List UInt8))
    (bytes : List UInt8) :
    (match appendPieces t place chunks with
      | (t, .error e) => (t, .error e)
      | (t, .ok ()) => t.append place bytes) = t.append place (chunks.flatten ++ bytes) := by
  induction chunks generalizing t with
  | nil => rfl
  | cons piece rest ih =>
      rw [List.flatten_cons, List.append_assoc, ← Tree.append_append, appendPieces]
      rcases t.append place piece with ⟨t, e | _⟩
      · rfl
      · exact ih t

theorem render_eq_rows (points : List Point) :
    render points = String.ofList (rows points) ++ "\n" := by
  have hline : String.ofList ['\n'] = "\n" := by decide
  rw [← hline, ← String.ofList_append]
  rfl

theorem writeSheet_eq (t : Tree) (path : String) (points : List Point) :
    writeSheet t path points = t.write path (bytesOf (render points)) := by
  rw [render_eq_rows, Tree.bytesOf_append,
    ← flatten_pieces (bytesOf (String.ofList (rows points)))]
  unfold writeSheet Tree.write
  rcases t.create path with e | ⟨place, t⟩
  · rfl
  · exact appendPieces_append t place _ _

/-! ## paths -/

theorem isName_fileName (document : Nat) : IsName (fileName document) := by
  have hlist : (fileName document).toList =
      ['h', 'e', 'a', 'p', '-'] ++ Decimal.digits document ++ ['.', 'c', 's', 'v'] := by
    simp [fileName, Decimal.numeral]
  have hbefore : ∀ c ∈ ['h', 'e', 'a', 'p', '-'], c ≠ '/' ∧ c ≠ '\x00' := by simp
  have hbehind : ∀ c ∈ ['.', 'c', 's', 'v'], c ≠ '/' ∧ c ≠ '\x00' := by simp
  have hmem : ∀ c ∈ (fileName document).toList, c ≠ '/' ∧ c ≠ '\x00' := by
    intro c hc
    rw [hlist, List.mem_append, List.mem_append] at hc
    obtain (hc | hc) | hc := hc
    · exact hbefore c hc
    · have hdigit := ascii_of_isDigit (Decimal.isDigit_of_mem_digits hc)
      constructor <;> rintro rfl <;> revert hdigit <;> decide
    · exact hbehind c hc
  have hhead : (fileName document).toList.head? = some 'h' := by simp [hlist]
  refine ⟨?_, ?_, ?_, fun hc => (hmem _ hc).1 rfl, fun hc => (hmem _ hc).2 rfl⟩
  all_goals
    intro heq
    simp [heq] at hhead

/-- The path of the growth file of a document. -/
def filePath (folder : String) (document : Nat) : String := join folder (fileName document)

theorem filePath_inj {folder : String} {i j : Nat} (h : filePath folder i = filePath folder j) :
    i = j :=
  fileName_inj (join_inj (isName_fileName i).isAbsolute (isName_fileName j).isAbsolute h)

/-- The growth file of a document stands at a place. -/
def StandsAt (t : Tree) (folder : String) (document : Nat) (place : Place) : Prop :=
  ∃ node, t.resolve true (filePath folder document) = .ok ⟨place, node⟩

theorem StandsAt.grows {t u : Tree} {folder : String} {document : Nat} {place : Place}
    (h : StandsAt t folder document place) (hg : Grows t u) : StandsAt u folder document place := by
  obtain ⟨node, hspot⟩ := h
  exact ⟨_, Tree.resolve_grows hg hspot (demandsFolder_join (isName_fileName document) folder)⟩

/-- No two growth files are linked to one another. -/
def Unlinked (t : Tree) (folder : String) (count : Nat) : Prop :=
  ∀ i < count, ∀ j < count, ∀ place,
    StandsAt t folder i place → StandsAt t folder j place → i = j

theorem Unlinked.of_grows {t u : Tree} {folder : String} {count : Nat}
    (h : Unlinked u folder count) (hg : Grows t u) : Unlinked t folder count :=
  fun i hi j hj place hiq hjq => h i hi j hj place (hiq.grows hg) (hjq.grows hg)

/-- No two growth files are one file.  They may still lead to one folder or to one device, where
nothing can be written. -/
def Apart (t : Tree) (folder : String) (count : Nat) : Prop :=
  ∀ i < count, ∀ j < count, ∀ place,
    StandsAt t folder i place → StandsAt t folder j place → t.HasRoom 0 place → i = j

theorem Unlinked.apart {t : Tree} {folder : String} {count : Nat} (h : Unlinked t folder count) :
    Apart t folder count := fun i hi j hj place hiq hjq _ => h i hi j hj place hiq hjq

theorem Apart.mono {t : Tree} {folder : String} {m n : Nat} (h : Apart t folder n) (hle : m ≤ n) :
    Apart t folder m :=
  fun i hi j hj => h i (Nat.lt_of_lt_of_le hi hle) j (Nat.lt_of_lt_of_le hj hle)

theorem StandsAt.unique {t : Tree} {folder : String} {document : Nat} {p q : Place}
    (hp : StandsAt t folder document p) (hq : StandsAt t folder document q) : p = q := by
  obtain ⟨node, hp⟩ := hp
  obtain ⟨node', hq⟩ := hq
  exact congrArg Tree.Spot.place (Except.ok.inj (hp.symm.trans hq))

section Folder

variable {t : Tree} {folder : String} {place : Place} {count : Nat}
  (hfolder : t.resolve true folder = .ok ⟨place, some .folder⟩)
  (hnames : ∀ d < count, (fileName d).utf8ByteSize ≤ Tree.nameLimit ∧
    ∀ target, t.node? (place ++ [fileName d]) ≠ some (.link target))
include hfolder hnames

theorem standsAt_iff_of_folder {d : Nat} (hd : d < count) {q : Place} :
    StandsAt t folder d q ↔ q = place ++ [fileName d] := by
  obtain ⟨hsize, hlink⟩ := hnames d hd
  have hspot := Tree.resolve_join (f := true) (isName_fileName d) hfolder hsize hlink
  have hstands : StandsAt t folder d (place ++ [fileName d]) := ⟨_, hspot⟩
  exact ⟨fun hq => hq.unique hstands, fun hq => hq ▸ hstands⟩

/-- In a folder growth files are linked to one another only by links that stand there. -/
theorem unlinked_of_folder : Unlinked t folder count := by
  intro i hi j hj q hiq hjq
  rw [standsAt_iff_of_folder hfolder hnames hi] at hiq
  rw [standsAt_iff_of_folder hfolder hnames hj] at hjq
  exact fileName_inj (List.singleton_inj.mp (List.append_cancel_left (hiq.symm.trans hjq)))

end Folder

/-- A link in a folder at home may be the growth file of a document, which then stands where the
link leads. -/
theorem standsAt_of_link {t : Tree} {folder target : String} {d : Nat} (hfolder : IsName folder)
    (htarget : IsName target) (hhome : t.node? t.home = some .folder)
    (hnode : t.node? (t.home ++ [folder]) = some .folder)
    (hlink : t.node? (t.home ++ [folder] ++ [fileName d]) = some (.link target))
    (hend : ∀ other, t.node? (t.home ++ [folder] ++ [target]) ≠ some (.link other))
    (hsize : folder.utf8ByteSize ≤ Tree.nameLimit ∧ (fileName d).utf8ByteSize ≤ Tree.nameLimit ∧
      target.utf8ByteSize ≤ Tree.nameLimit) :
    StandsAt t folder d (t.home ++ [folder] ++ [target]) := by
  have hname := isName_fileName d
  have hslash : ¬demandsFolder (filePath folder d) = true := by
    rw [filePath, demandsFolder_join hname]
    decide
  refine ⟨t.node? (t.home ++ [folder] ++ [target]), Tree.resolve_eq_ok_iff.mpr
    ⟨⟨?_, join_ne_empty hname folder, ?_⟩, rfl, fun h => absurd h hslash⟩⟩
  · rw [filePath, nul_mem_join_iff hname]
    exact hfolder.nul
  · rw [filePath, names_join hname, isAbsolute_join hname, hfolder.names, hfolder.isAbsolute]
    refine .enter hhome hfolder.up hsize.1 (fun other heq => by cases hnode.symm.trans heq) ?_
    refine .follow hnode hname.up hsize.2.1 hlink (.inr rfl) ?_
    rw [htarget.names, htarget.isAbsolute]
    exact .enter hnode htarget.up hsize.2.2 hend (.here _ _)

/-! ## loading -/

theorem load_of_readBytes {t : Tree} {path : String} {points : List Point}
    (h : t.readBytes path = .ok (bytesOf (render points))) : load t path = .ok points := by
  rw [load, h]
  simp only [read_bytesOf_render]

/-- Growth files that are linked to one another are loaded alike. -/
theorem StandsAt.load_eq {t : Tree} {folder : String} {i j : Nat} {place : Place}
    (hi : StandsAt t folder i place) (hj : StandsAt t folder j place) {points : List Point}
    (h : load t (filePath folder i) = .ok points) : load t (filePath folder j) = .ok points := by
  obtain ⟨node, hspot⟩ := hi
  obtain ⟨node', hspot'⟩ := hj
  obtain rfl : node = node' :=
    (Tree.resolve_eq_ok_iff.mp hspot).2.1.trans (Tree.resolve_eq_ok_iff.mp hspot').2.1.symm
  have hbytes : t.readBytes (filePath folder i) = t.readBytes (filePath folder j) := by
    rw [Tree.readBytes, Tree.readBytes, hspot, hspot']
  unfold load at h ⊢
  rw [← hbytes]
  split at h
  · exact h
  · cases h
  · split at h
    · cases h
    · exact h

/-! ## saving -/

-- a write is not to be computed where the writes of a list are taken apart
attribute [local irreducible] Tree.resolve

/-- What writing the growth files of documents from one on has left of a tree. -/
structure Wrote (t u : Tree) (folder : String) (first : Nat) (curves : List (List Point)) :
    Prop where
  grows : Grows t u
  shrinks : Grows u t
  limits : u.limits = t.limits
  other : ∀ q, (∀ k < curves.length, ¬StandsAt t folder (first + k) q) → u.node? q = t.node? q
  bytes : ∀ k points, curves[k]? = some points →
    u.readBytes (filePath folder (first + k)) = .ok (bytesOf (render points))

theorem Wrote.file {t u : Tree} {folder : String} {first : Nat} {curves : List (List Point)}
    (h : Wrote t u folder first curves) (k : Nat) (points : List Point)
    (hk : curves[k]? = some points) : load u (filePath folder (first + k)) = .ok points :=
  load_of_readBytes (h.bytes k points hk)

theorem render_ne_nil (points : List Point) : bytesOf (render points) ≠ [] := by
  rw [bytesOf_render]
  simp

/-- The file of a document can be written with its points. -/
def Accepts (t : Tree) (folder : String) (document : Nat) (points : List Point) : Prop :=
  (writeSheet t (filePath folder document) points).2 = .ok ()

/-- A file can be written where there is room for it. -/
theorem accepts_iff {t : Tree} {folder : String} {document : Nat} {points : List Point} :
    Accepts t folder document points ↔ ∃ place, StandsAt t folder document place ∧
      t.HasRoom (bytesOf (render points)).length place := by
  have hslash : demandsFolder (filePath folder document) = false :=
    demandsFolder_join (isName_fileName document) folder
  rw [Accepts, writeSheet_eq, Tree.write_ok_iff hslash (render_ne_nil points)]
  constructor
  · rintro ⟨⟨place, node⟩, hspot, hroom⟩
    exact ⟨place, ⟨node, hspot⟩, hroom⟩
  · rintro ⟨place, ⟨node, hspot⟩, hroom⟩
    exact ⟨_, hspot, hroom⟩

/-- Whether a file can be written is decided where it stands. -/
theorem Accepts.of_same {t v : Tree} {folder : String} {document : Nat} {points : List Point}
    (h : Accepts t folder document points) (hg : Grows t v) (hlimits : v.limits = t.limits)
    (hsame : ∀ place, StandsAt t folder document place → v.node? place = t.node? place) :
    Accepts v folder document points := by
  obtain ⟨place, hstands, hroom⟩ := accepts_iff.mp h
  exact accepts_iff.mpr ⟨place, hstands.grows hg, hroom.of_same hlimits (hsame place hstands)⟩

/-- No other growth file stands where one can be written. -/
theorem Apart.ne {t : Tree} {folder : String} {count i j : Nat} (h : Apart t folder count)
    (hi : i < count) (hj : j < count) (hne : i ≠ j) {points : List Point}
    (haccepts : Accepts t folder i points) {place : Place} (hstands : StandsAt t folder i place) :
    ¬StandsAt t folder j place := by
  intro hj'
  obtain ⟨place', hstands', hroom⟩ := accepts_iff.mp haccepts
  obtain rfl := hstands.unique hstands'
  exact hne (h i hi j hj place hstands hj' (hroom.mono (Nat.zero_le _)))

/-- The file of one document, and then those of the documents after it. -/
theorem Wrote.cons {t v u : Tree} {folder : String} {first : Nat} {points : List Point}
    {curves : List (List Point)} {place : Place} {room : Option Nat}
    (hplace : StandsAt t folder first place) (halters : Alters t v place)
    (hfile : v.node? place = some (.file (bytesOf (render points)) room))
    (hrest : Wrote v u folder (first + 1) curves)
    (hunlinked : ∀ k < curves.length, ¬StandsAt t folder (first + 1 + k) place) :
    Wrote t u folder first (points :: curves) where
  grows := halters.grows.trans hrest.grows
  shrinks := hrest.shrinks.trans halters.symm.grows
  limits := hrest.limits.trans halters.limits
  other q hq := by
    have hother : u.node? q = v.node? q := hrest.other q fun k hk hstands => by
      refine hq (k + 1) (by simpa using hk) ?_
      rw [Nat.add_comm k 1, ← Nat.add_assoc]
      exact hstands.grows halters.symm.grows
    have hne : q ≠ place := by
      rintro rfl
      exact hq 0 (by simp) hplace
    exact hother.trans (halters.other q hne)
  bytes k points' hk := by
    cases k with
    | zero =>
        obtain rfl := Option.some.inj hk
        obtain ⟨node, hspot⟩ := hplace
        have hkept : u.node? place = v.node? place := hrest.other place fun k hk hstands =>
          hunlinked k hk (hstands.grows halters.symm.grows)
        have hspot' := Tree.resolve_grows (halters.grows.trans hrest.grows) hspot
          (demandsFolder_join (isName_fileName first) folder)
        rw [hkept, hfile] at hspot'
        rw [Nat.add_zero, Tree.readBytes, hspot']
    | succ k =>
        have hbytes := hrest.bytes k points' (by simpa using hk)
        rwa [Nat.add_assoc, Nat.add_comm 1 k] at hbytes

theorem writeFiles_cons (t : Tree) (folder : String) (first : Nat) (points : List Point)
    (curves : List (List Point)) :
    writeFiles t folder first (points :: curves) =
      match t.write (filePath folder first) (bytesOf (render points)) with
      | (v, .error e) => (v, .error (.growth (filePath folder first) (.refused e)))
      | (v, .ok ()) =>
        match writeFiles v folder (first + 1) curves with
        | (u, .error e) => (u, .error e)
        | (u, .ok paths) => (u, .ok (filePath folder first :: paths)) := by
  rw [← writeSheet_eq]
  rfl

/-- Files that are written lead to where they led before. -/
theorem writeFiles_ok {t u : Tree} {folder : String} {first : Nat} {curves : List (List Point)}
    {paths : List String} (h : writeFiles t folder first curves = (u, .ok paths)) :
    paths = (List.range' first curves.length).map (filePath folder) ∧ Grows t u ∧ Grows u t := by
  induction curves generalizing t first paths with
  | nil =>
      cases h
      exact ⟨rfl, .refl u, .refl u⟩
  | cons points curves ih =>
      rw [writeFiles_cons] at h
      split at h
      · cases h
      next v hwrite =>
      split at h
      · cases h
      next hrest =>
      cases h
      obtain ⟨spot, room, -, halters, -⟩ := Tree.write_ok (render_ne_nil points) hwrite
      obtain ⟨hpaths, hgrows, hshrinks⟩ := ih hrest
      refine ⟨?_, halters.grows.trans hgrows, hshrinks.trans halters.symm.grows⟩
      rw [hpaths, List.length_cons, List.range'_succ, List.map_cons]

/-- A write that succeeds leaves the growth files apart from each other. -/
theorem Apart.of_alters {t v : Tree} {folder : String} {count : Nat} (h : Apart t folder count)
    {place : Place} (halters : Alters t v place) (hroom : t.HasRoom 0 place) :
    Apart v folder count := by
  intro i hi j hj q hiq hjq hq
  refine h i hi j hj q (hiq.grows halters.symm.grows) (hjq.grows halters.symm.grows) ?_
  by_cases heq : q = place
  · rwa [heq]
  · exact hq.of_same halters.symm.limits (halters.symm.other q heq)

/-- Files that are written hold what they were written with, and each of them could be. -/
theorem wrote_of_apart {t u : Tree} {folder : String} {first : Nat} {curves : List (List Point)}
    {paths : List String} (h : writeFiles t folder first curves = (u, .ok paths))
    (hapart : Apart t folder (first + curves.length)) :
    Wrote t u folder first curves ∧
      ∀ k points, curves[k]? = some points → Accepts t folder (first + k) points := by
  induction curves generalizing t first paths with
  | nil =>
      cases h
      exact ⟨⟨.refl u, .refl u, rfl, fun _ _ => rfl, fun k points hk => by simp at hk⟩,
        fun k points hk => by simp at hk⟩
  | cons points curves ih =>
      rw [writeFiles_cons] at h
      split at h
      · cases h
      next v hwrite =>
      split at h
      · cases h
      next hrest =>
      cases h
      have haccepts : Accepts t folder first points := by
        rw [Accepts, writeSheet_eq, hwrite]
      obtain ⟨⟨place, node⟩, room, hspot, halters, hfile⟩ :=
        Tree.write_ok (render_ne_nil points) hwrite
      have hstands : StandsAt t folder first place := ⟨node, hspot⟩
      obtain ⟨place', hstands', hroom⟩ := accepts_iff.mp haccepts
      obtain rfl := hstands.unique hstands'
      have hlength : first + (points :: curves).length = first + 1 + curves.length := by
        simp only [List.length_cons]
        omega
      rw [hlength] at hapart
      have hothers : ∀ k < curves.length, ¬StandsAt t folder (first + 1 + k) place := fun k hk =>
        hapart.ne (by omega) (by omega) (by omega) haccepts hstands
      obtain ⟨hwrote, hlater⟩ := ih hrest
        (hapart.of_alters halters (hroom.mono (Nat.zero_le _)))
      refine ⟨hwrote.cons hstands halters hfile hothers, fun k points' hk => ?_⟩
      cases k with
      | zero =>
          obtain rfl := Option.some.inj hk
          exact haccepts
      | succ k =>
          have hk : curves[k]? = some points' := by simpa using hk
          have hlt : k < curves.length := (List.getElem?_eq_some_iff.mp hk).1
          have hsum : first + (k + 1) = first + 1 + k := by omega
          rw [hsum]
          refine (hlater k points' hk).of_same halters.symm.grows halters.symm.limits fun q hq =>
            (halters.other q ?_).symm
          rintro rfl
          exact hothers k hlt (hq.grows halters.symm.grows)

theorem wrote_of_writeFiles {t u : Tree} {folder : String} {first : Nat}
    {curves : List (List Point)} {paths : List String}
    (h : writeFiles t folder first curves = (u, .ok paths))
    (hunlinked : Unlinked t folder (first + curves.length)) :
    paths = (List.range' first curves.length).map (filePath folder) ∧
      Wrote t u folder first curves :=
  ⟨(writeFiles_ok h).1, (wrote_of_apart h hunlinked.apart).1⟩

/-- What is saved is loaded again, where no two of the files have come to be linked. -/
theorem save_ok {tracker : Tracker} {t u : Tree} {folder : String} {paths : List String}
    (h : tracker.save t folder = (u, .ok paths)) :
    paths = (List.range tracker.curves.length).map (filePath folder) ∧
      (Unlinked u folder tracker.curves.length → ∀ d points, tracker.curves[d]? = some points →
        load u (filePath folder d) = .ok points) := by
  unfold Tracker.save at h
  split at h
  · cases h
  obtain ⟨hpaths, hgrows, -⟩ := writeFiles_ok h
  refine ⟨by rw [hpaths, List.range_eq_range'], fun hunlinked d points hd => ?_⟩
  have hunlinked' := hunlinked.of_grows hgrows
  rw [← Nat.zero_add tracker.curves.length] at hunlinked'
  have hload := (wrote_of_writeFiles h hunlinked').2.file d points hd
  rwa [Nat.zero_add] at hload

/-- Files are written where there is room for any number of bytes. -/
theorem exists_writeFiles_of_resolve {t : Tree} {folder : String} {first : Nat}
    {curves : List (List Point)}
    (h : ∀ k < curves.length, ∃ place,
      StandsAt t folder (first + k) place ∧ ∀ n, t.HasRoom n place) :
    ∃ u paths, writeFiles t folder first curves = (u, .ok paths) := by
  induction curves generalizing t first with
  | nil => exact ⟨t, [], rfl⟩
  | cons points curves ih =>
      obtain ⟨place, ⟨node, hspot⟩, hroom⟩ := h 0 (by simp)
      rw [Nat.add_zero] at hspot
      obtain ⟨v, room, hwrite, halters, hfile⟩ := Tree.write_of_resolve hspot
        (demandsFolder_join (isName_fileName first) folder) (render_ne_nil points) (hroom _)
      -- the files after it stand where they stood, perhaps at the one just written
      have hrest : ∀ k < curves.length, ∃ place,
          StandsAt v folder (first + 1 + k) place ∧ ∀ n, v.HasRoom n place := by
        intro k hk
        obtain ⟨place', hstands, hroom'⟩ := h (k + 1) (by simpa using hk)
        rw [Nat.add_comm k 1, ← Nat.add_assoc] at hstands
        refine ⟨place', hstands.grows halters.grows, fun n => ?_⟩
        by_cases hplace : place' = place
        · have hkept := Tree.HasRoom.after_write hspot hroom (bytesOf (render points)) n
          rwa [hwrite, ← hplace] at hkept
        · exact (hroom' n).of_same halters.limits (halters.other place' hplace)
      obtain ⟨u, paths, hpaths⟩ := ih hrest
      refine ⟨u, filePath folder first :: paths, ?_⟩
      rw [writeFiles_cons, hwrite]
      simp only [hpaths]

/-- Files are written where a folder is, and in it there is room for all of them. -/
theorem exists_writeFiles {t : Tree} {folder : String} {place : Place} {first : Nat}
    {curves : List (List Point)}
    (hfolder : t.resolve true folder = .ok ⟨place, some .folder⟩)
    (hroom : ∀ k < curves.length, (fileName (first + k)).utf8ByteSize ≤ Tree.nameLimit ∧
      ∀ n, t.HasRoom n (place ++ [fileName (first + k)])) :
    ∃ u paths, writeFiles t folder first curves = (u, .ok paths) := by
  refine exists_writeFiles_of_resolve fun k hk => ?_
  obtain ⟨hsize, hroom⟩ := hroom k hk
  have hlink : ∀ target, t.node? (place ++ [fileName (first + k)]) ≠ some (.link target) :=
    fun target heq => by
      have hnone := hroom 0
      rw [Tree.HasRoom, heq] at hnone
      exact hnone
  exact ⟨_, ⟨_, Tree.resolve_join (isName_fileName _) hfolder hsize hlink⟩, hroom⟩

/-- What is read from a growth file stands where its path leads, which may be behind a link. -/
theorem StandsAt.node?_of_readBytes {t : Tree} {folder : String} {document : Nat} {place : Place}
    (h : StandsAt t folder document place) {points : List Point}
    (hread : t.readBytes (filePath folder document) = .ok (bytesOf (render points))) :
    ∃ room, t.node? place = some (.file (bytesOf (render points)) room) := by
  obtain ⟨node, hspot⟩ := h
  have hnode : node = t.node? place := (Tree.resolve_eq_ok_iff.mp hspot).2.1
  rw [Tree.readBytes, hspot] at hread
  rw [← hnode]
  rcases node with _ | _ | ⟨content, room⟩ | target | _
  · cases hread
  · cases hread
  · cases hread
    exact ⟨room, rfl⟩
  · exact absurd (Except.ok.inj hread).symm (render_ne_nil points)
  · exact absurd (Except.ok.inj hread).symm (render_ne_nil points)

/-- **Growth files**: what is written is read again, number by number.  The files of a tracker are
those of its documents in order, and each holds the growth of its own document, byte for byte, where
its path leads: behind a link that is the file linked to.  Beside these nothing is changed but for
folders that were missing. -/
theorem load_of_save :
    (∀ points, read (bytesOf (render points)) = .ok points ∧
      render points = "ttl,unique\n" ++ String.join (points.map fun p =>
        Decimal.numeral p.tokens.toNat ++ "," ++ Decimal.numeral p.vocabulary.toNat ++ "\n") ++
          "\n") ∧
    ∀ (tracker : Tracker) (t : Tree) (folder : String) (u : Tree) (paths : List String),
      Unlinked (t.makeFolders folder).1 folder tracker.count →
      tracker.save t folder = (u, .ok paths) →
        paths = (List.range tracker.count).map (filePath folder) ∧ paths.Nodup ∧
        (∀ d < tracker.count, ∃ points, tracker.points d = .ok points ∧
          u.readBytes (filePath folder d) = .ok (bytesOf (render points)) ∧
          load u (filePath folder d) = .ok points ∧
          ∀ q, StandsAt (t.makeFolders folder).1 folder d q →
            ∃ room, u.node? q = some (.file (bytesOf (render points)) room)) ∧
        ∀ q, (∀ d < tracker.count, ¬StandsAt (t.makeFolders folder).1 folder d q) →
          u.node? q = t.node? q ∨ (t.node? q = none ∧ u.node? q = some .folder) := by
  refine ⟨fun points => ⟨read_bytesOf_render points, render_eq points⟩, ?_⟩
  intro tracker t folder u paths hunlinked h
  have hadds := Tree.makeFolders_adds t folder
  have hlength : tracker.curves.length = tracker.count := by simp [Tracker.curves, Tracker.count]
  unfold Tracker.save at h
  split at h
  · cases h
  next v hmake =>
  rw [hmake] at hadds hunlinked
  obtain ⟨hpaths, hwrote⟩ := wrote_of_writeFiles h (by rwa [hlength, Nat.zero_add])
  rw [hlength, ← List.range_eq_range'] at hpaths
  refine ⟨hpaths, ?_, fun d hd => ?_, fun q hq => ?_⟩
  · rw [hpaths]
    exact List.Nodup.map (fun _ _ => filePath_inj) List.nodup_range
  · have hd' : d < tracker.documents.size := hd
    have hbytes := hwrote.bytes d tracker.documents[d].points.toList (by
      simp [Tracker.curves, hd'])
    rw [Nat.zero_add] at hbytes
    refine ⟨tracker.documents[d].points.toList, ?_, hbytes, load_of_readBytes hbytes, ?_⟩
    · rw [Tracker.points, Tracker.curve, Array.getElem?_eq_getElem hd']
      rfl
    · intro q hq
      rw [hmake] at hq
      exact (hq.grows hwrote.grows).node?_of_readBytes hbytes
  · have hother := hwrote.other q fun k hk hstands => by
      rw [Nat.zero_add] at hstands
      exact hq k (hlength ▸ hk) (by rwa [hmake])
    rw [hother]
    exact hadds.node q

/-- A folder with the growth file of an earlier run and another file. -/
def earlier : Tree where
  home := ["work"]
  nodes := [([], .folder), (["work"], .folder), (["work", "growth"], .folder),
    (["work", "growth", "heap-0.csv"], .file [116, 116, 108, 10, 57] none),
    (["work", "growth", "notes.txt"], .file [104, 105] none)]

/-- The growth of two documents, the second one without tokens. -/
def twoDocuments : Tracker := ⟨#[{ points := #[⟨1, 1⟩, ⟨2, 1⟩] }, {}]⟩

theorem resolve_earlier (f : Bool) :
    earlier.resolve f "growth" = .ok ⟨["work", "growth"], some .folder⟩ :=
  Tree.resolve_name (by constructor <;> decide) (by decide) (by decide) fun target heq => by
    cases heq

theorem makeFolders_earlier : earlier.makeFolders "growth" = (earlier, .ok ()) :=
  Tree.makeFolders_name (by constructor <;> decide) resolve_earlier

/-- The earlier run has left room where the growth files are written. -/
theorem hasRoom_earlier {d : Nat} (hd : d < 2) : (fileName d).utf8ByteSize ≤ Tree.nameLimit ∧
    ∀ n, earlier.HasRoom n (["work", "growth"] ++ [fileName d]) := by
  obtain rfl | rfl : d = 0 ∨ d = 1 := by omega
  · exact ⟨by decide, Tree.hasRoom_of_file rfl⟩
  · exact ⟨by decide, Tree.hasRoom_of_none rfl rfl⟩

theorem ne_link_earlier {d : Nat} (hd : d < 2) : (fileName d).utf8ByteSize ≤ Tree.nameLimit ∧
    ∀ target, earlier.node? (["work", "growth"] ++ [fileName d]) ≠ some (.link target) := by
  obtain ⟨hsize, hroom⟩ := hasRoom_earlier hd
  refine ⟨hsize, fun target heq => ?_⟩
  have hnone := hroom 0
  rw [Tree.HasRoom, heq] at hnone
  exact hnone

theorem unlinked_earlier : Unlinked earlier "growth" 2 :=
  unlinked_of_folder (resolve_earlier true) fun _ => ne_link_earlier

theorem exists_save_earlier :
    ∃ u paths, twoDocuments.save earlier "growth" = (u, .ok paths) := by
  have hroom : ∀ k < twoDocuments.curves.length, (fileName (0 + k)).utf8ByteSize ≤ Tree.nameLimit ∧
      ∀ n, earlier.HasRoom n (["work", "growth"] ++ [fileName (0 + k)]) := by
    intro k hk
    rw [Nat.zero_add]
    exact hasRoom_earlier hk
  obtain ⟨u, paths, hwrite⟩ := exists_writeFiles (resolve_earlier true) hroom
  refine ⟨u, paths, ?_⟩
  unfold Tracker.save
  rw [makeFolders_earlier]
  exact hwrite

/-- The file of the earlier run is replaced, and the other file is as it was. -/
theorem load_of_save_earlier :
    ∃ u paths, twoDocuments.save earlier "growth" = (u, .ok paths) ∧ paths.length = 2 ∧
      u.readBytes (filePath "growth" 0) = .ok (bytesOf "ttl,unique\n1,1\n2,1\n\n") ∧
      load u (filePath "growth" 0) = .ok [⟨1, 1⟩, ⟨2, 1⟩] ∧ load u (filePath "growth" 1) = .ok [] ∧
      u.node? ["work", "growth", "notes.txt"] = some (.file [104, 105] none) := by
  obtain ⟨u, paths, hsave⟩ := exists_save_earlier
  obtain ⟨hpaths, -, hfiles, hother⟩ := load_of_save.2 twoDocuments earlier "growth" u paths
    (by rw [makeFolders_earlier]; exact unlinked_earlier) hsave
  obtain ⟨points, hpoints, hbytes, hload, -⟩ := hfiles 0 (by decide)
  obtain ⟨points', hpoints', -, hload', -⟩ := hfiles 1 (by decide)
  obtain rfl : points = [⟨1, 1⟩, ⟨2, 1⟩] := (Except.ok.inj hpoints).symm
  obtain rfl : points' = [] := (Except.ok.inj hpoints').symm
  refine ⟨u, paths, hsave, by rw [hpaths]; rfl, hbytes, hload, hload', ?_⟩
  have hnotes := hother ["work", "growth", "notes.txt"] fun d hd hstands => by
    have hd' : d < 2 := hd
    rw [makeFolders_earlier] at hstands
    have heq := (standsAt_iff_of_folder (resolve_earlier true) (fun _ => ne_link_earlier) hd').mp
      hstands
    obtain rfl | rfl : d = 0 ∨ d = 1 := by omega
    all_goals exact absurd heq (by decide)
  obtain hnotes | ⟨hnone, -⟩ := hnotes
  · exact hnotes
  · exact absurd hnone (by decide)

/-! ### a growth file that is a link -/

/-- A folder in which the growth file of a document is a link to another file. -/
def borrowed : Tree where
  home := ["work"]
  nodes := [([], .folder), (["work"], .folder), (["work", "growth"], .folder),
    (["work", "growth", "heap-0.csv"], .link "notes.txt"),
    (["work", "growth", "notes.txt"], .file (bytesOf "keep") none)]

/-- The growth of one document of one token. -/
def oneDocument : Tracker := ⟨#[{ points := #[⟨1, 1⟩] }]⟩

theorem makeFolders_borrowed : borrowed.makeFolders "growth" = (borrowed, .ok ()) :=
  Tree.makeFolders_name (by constructor <;> decide) fun _ =>
    Tree.resolve_name (by constructor <;> decide) (by decide) (by decide) fun target heq => by
      cases heq

theorem standsAt_borrowed : StandsAt borrowed "growth" 0 ["work", "growth", "notes.txt"] :=
  standsAt_of_link (by constructor <;> decide) (by constructor <;> decide) rfl rfl rfl
    (fun other heq => by cases heq) ⟨by decide, by decide, by decide⟩

/-- The other file is changed by saving, though it is no growth file: it gets the growth of the
document whose file is linked to it. -/
theorem notes_replaced :
    "growth/notes.txt" ∉ (List.range oneDocument.count).map (filePath "growth") ∧
    Unlinked (borrowed.makeFolders "growth").1 "growth" oneDocument.count ∧
    borrowed.node? ["work", "growth", "notes.txt"] = some (.file (bytesOf "keep") none) ∧
    ∃ u room, oneDocument.save borrowed "growth" = (u, .ok [filePath "growth" 0]) ∧
      u.node? ["work", "growth", "notes.txt"] =
        some (.file (bytesOf "ttl,unique\n1,1\n\n") room) := by
  have hunlinked : Unlinked borrowed "growth" 1 := fun i hi j hj _ _ _ => by omega
  obtain ⟨u, paths, hwrite⟩ : ∃ u paths,
      writeFiles borrowed "growth" 0 oneDocument.curves = (u, .ok paths) := by
    refine exists_writeFiles_of_resolve fun k hk => ?_
    obtain rfl : k = 0 := Nat.lt_one_iff.mp hk
    exact ⟨_, standsAt_borrowed, Tree.hasRoom_of_file rfl⟩
  obtain ⟨rfl, hwrote⟩ := wrote_of_writeFiles hwrite hunlinked
  obtain ⟨room, hnotes⟩ := (standsAt_borrowed.grows hwrote.grows).node?_of_readBytes
    (hwrote.bytes 0 [⟨1, 1⟩] rfl)
  refine ⟨by decide, ?_, rfl, u, room, ?_, hnotes⟩
  · rw [makeFolders_borrowed]
    exact hunlinked
  · rw [Tracker.save, makeFolders_borrowed]
    exact hwrite

end Concordance.Growth
