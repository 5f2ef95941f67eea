import Concordance.Growth.Files
import Concordance.Proofs.Decimal.Numeral
import Concordance.Proofs.Delimited.Record
import Concordance.Proofs.Files.Text
import Concordance.Proofs.Files.Walk

/-!
# Concordance.Proofs.Growth.Layout

The points of a growth file do not depend on its layout: the columns may stand in any order among
others, and numbers, fields and lines may be written in any way.

* `readNumber_of_writes` — a number is read from what writes it;
* `readNamed_of_shows` — the values of a record are found in its columns;
* `load_laidOut` — the points of a file are those that it shows.
-/

namespace Concordance.Growth

open Decimal Delimited Files
open Files.Tree (bytesOf textOf?_bytesOf)

/-! ## what is written -/

/-- The value of a point in a column. -/
def Point.value (p : Point) : Column → UInt64
  | .tokens => p.tokens
  | .vocabulary => p.vocabulary

/-- The record of texts. -/
def recordOf (texts : List String) : Record := texts.map bytesOf

/-- Names that head a growth file: each column is there once. -/
def HeadsColumns (names : List String) : Prop := ∀ column : Column, names.count column.name = 1

/-- Texts under their names that show a point: a number under the name of each column, and anything
under the others. -/
structure Shows (names : List String) (p : Point) (texts : List String) : Prop where
  width : texts.length = names.length
  numbers : ∀ (column : Column) (text : String), (column.name, text) ∈ names.zip texts →
    Writes (p.value column).toNat text.toList

/-! ## numbers -/

/-- A number is read from what writes it. -/
theorem readNumber_of_writes {n : UInt64} {cs : List Char} (h : Writes n.toNat cs) :
    readNumber cs = .ok n := by
  have hread := readNumeral_of_writes n.toNat_lt h
  -- what writes a number does not begin like a hexadecimal one
  have hmark : ∀ rest, cs ≠ '0' :: 'x' :: rest := by
    rintro rest rfl
    exact absurd (h.isDigit_of_mem_tail List.mem_cons_self) (by decide)
  unfold readNumber
  split
  · exact absurd rfl (hmark _)
  · rw [hread]
    simp

/-! ## columns -/

theorem Column.name_inj {a b : Column} (h : a.name = b.name) : a = b := by
  revert h
  cases a <;> cases b <;> decide

theorem column?_bytesOf_name (column : Column) : column? (bytesOf column.name) = some column := by
  cases column <;> simp [column?, fieldText?, textOf?_bytesOf, Column.name]

theorem column?_bytesOf_of_ne {name : String} (h : ∀ column : Column, name ≠ column.name) :
    column? (bytesOf name) = none := by
  simp [column?, fieldText?, textOf?_bytesOf, h]

theorem header_recordOf (names : List String) :
    header (recordOf names) = .named (names.map fun name => column? (bytesOf name)) := by
  have htext : ∀ f ∈ recordOf names, (fieldText? f).isSome = true := by
    intro f hf
    obtain ⟨name, -, rfl⟩ := List.mem_map.mp hf
    rw [fieldText?, textOf?_bytesOf]
    rfl
  rw [header, if_pos (List.all_eq_true.mpr htext), recordOf, List.map_map]
  rfl

theorem mapM_fieldText?_recordOf (texts : List String) :
    (recordOf texts).mapM fieldText? = some texts :=
  mapM_map_eq_some fun text _ => textOf?_bytesOf text

/-! ## points -/

theorem Found.get?_put (found : Found) (value : UInt64) (a b : Column) :
    (found.put value a).get? b = if a = b then some value else found.get? b := by
  cases a <;> cases b <;> rfl

/-- The values of a point have been found, but for those of columns that are still to come. -/
def Found.Leaves (found : Found) (p : Point) (names : List String) : Prop :=
  ∀ column, found.get? column = if column.name ∈ names then none else some (p.value column)

theorem Found.leaves_of_headsColumns {names : List String} (h : HeadsColumns names) (p : Point) :
    Found.Leaves {} p names := by
  intro column
  have hmem : column.name ∈ names := List.count_pos_iff.mp (by rw [h column]; decide)
  rw [if_pos hmem]
  cases column <;> rfl

namespace Found.Leaves

variable {found : Found} {p : Point} {names : List String}

theorem point (h : found.Leaves p []) : found.point = .ok p := by
  have htokens : found.tokens = some p.tokens := h .tokens
  have hvocabulary : found.vocabulary = some p.vocabulary := h .vocabulary
  simp [Found.point, htokens, hvocabulary]

/-- The value of the next column is found. -/
theorem put {column : Column} (h : found.Leaves p (column.name :: names))
    (hnot : column.name ∉ names) : (found.put (p.value column) column).Leaves p names := by
  intro other
  rw [get?_put]
  by_cases hother : column = other
  · subst hother
    rw [if_pos rfl, if_neg hnot]
  · have hne : other.name ≠ column.name := fun heq => hother (Column.name_inj heq).symm
    rw [if_neg hother, h other]
    simp [hne]

/-- A name that is none of a column is passed over. -/
theorem of_cons_other {name : String} (h : found.Leaves p (name :: names))
    (hname : ∀ column : Column, name ≠ column.name) : found.Leaves p names := by
  intro column
  rw [h column]
  simp [(hname column).symm]

end Found.Leaves

/-- The values of a record are found in its columns. -/
theorem readNamed_of_shows {p : Point} {names texts : List String} (hshows : Shows names p texts)
    {found : Found} (honce : ∀ column : Column, names.count column.name ≤ 1)
    (hfound : found.Leaves p names) :
    ∃ all, readNamed found
        ((names.map fun name => column? (bytesOf name)).zip (texts.map String.toList)) = .ok all ∧
      all.Leaves p [] := by
  induction names generalizing texts found with
  | nil => exact ⟨found, rfl, hfound⟩
  | cons name names ih =>
      obtain ⟨text, texts, rfl⟩ := List.exists_cons_of_length_eq_add_one hshows.width
      have hrest : Shows names p texts := ⟨Nat.succ.inj hshows.width, fun column text hmem =>
        hshows.numbers column text (List.mem_cons_of_mem _ hmem)⟩
      have honce_rest : ∀ column : Column, names.count column.name ≤ 1 := fun column =>
        Nat.le_trans List.count_le_count_cons (honce column)
      by_cases hname : ∃ column : Column, name = column.name
      · obtain ⟨column, rfl⟩ := hname
        have hnumber := readNumber_of_writes (hshows.numbers column text List.mem_cons_self)
        have hnone : found.get? column = none := by rw [hfound, if_pos List.mem_cons_self]
        have hnot : column.name ∉ names := by
          have hcount := honce column
          rw [List.count_cons_self] at hcount
          exact List.count_eq_zero.mp (by omega)
        obtain ⟨all, hread, hall⟩ := ih hrest honce_rest (hfound.put hnot)
        refine ⟨all, ?_, hall⟩
        simpa [column?_bytesOf_name, readNamed, hnone, hnumber] using hread
      · push Not at hname
        obtain ⟨all, hread, hall⟩ := ih hrest honce_rest (hfound.of_cons_other hname)
        refine ⟨all, ?_, hall⟩
        simpa [column?_bytesOf_of_ne hname, readNamed] using hread

theorem readPoint_of_shows {p : Point} {names texts : List String} (hnames : HeadsColumns names)
    (hshows : Shows names p texts) :
    readPoint (header (recordOf names)) (recordOf names).length (recordOf texts) = .ok p := by
  obtain ⟨all, hread, hall⟩ := readNamed_of_shows hshows
    (fun column => Nat.le_of_eq (hnames column)) (Found.leaves_of_headsColumns hnames p)
  have hwidth : (recordOf texts).length = (recordOf names).length := by
    simp [recordOf, hshows.width]
  rw [readPoint, if_neg (not_not.mpr hwidth), mapM_fieldText?_recordOf, header_recordOf]
  simp only [hread]
  exact hall.point

theorem readPoints_of_shows {points : List Point} {names : List String} {rows : List (List String)}
    (hnames : HeadsColumns names) (hrows : List.Forall₂ (Shows names) points rows) :
    readPoints (header (recordOf names)) (recordOf names).length (rows.map recordOf) =
      .ok points := by
  induction hrows with
  | nil => rfl
  | cons hshows _ ih => simp only [List.map_cons, readPoints, readPoint_of_shows hnames hshows, ih]

/-- The points of a growth file that shows them. -/
theorem read_laidOut {points : List Point} {names : List String} {rows : List (List String)}
    (hnames : HeadsColumns names) (hrows : List.Forall₂ (Shows names) points rows)
    {body bytes : List UInt8} (hbody : LaysOut ((names :: rows).map recordOf) body)
    (hbytes : MayBeMarked body bytes) : read bytes = .ok points := by
  rw [read, records_laidOut hbody hbytes]
  exact readPoints_of_shows hnames hrows

/-- **Layouts**: the points of a growth file that shows them in any layout. -/
theorem load_laidOut {points : List Point} {names : List String} {rows : List (List String)}
    (hnames : HeadsColumns names) (hrows : List.Forall₂ (Shows names) points rows)
    {body bytes : List UInt8} (hbody : LaysOut ((names :: rows).map recordOf) body)
    (hbytes : MayBeMarked body bytes) {t : Tree} {path : String}
    (hread : t.readBytes path = .ok bytes) : load t path = .ok points := by
  rw [load, hread]
  simp only [read_laidOut hnames hrows hbody hbytes]

/-- Two points, the second one with the largest number. -/
def sheetPoints : List Point := [⟨7, 1⟩, ⟨0, 18446744073709551615⟩]

/-- Names in another order, with one that has to be quoted. -/
def sheetNames : List String := ["unique", "a,\"b", "ttl"]

/-- Texts of the points. -/
def sheetRows : List (List String) := [["1", "é\r\n", "+007"], ["18446744073709551615", "", "00"]]

/-- The rows among empty lines, with a different end to each line and none to the last. -/
def sheetBody : List UInt8 :=
  bytesOf "\n\r\nunique,\"a,\"\"b\",\"ttl\"\r1,\"é\r\n\",+007\r\n\r18446744073709551615,,00"

theorem laysOut_sheetBody : LaysOut ((sheetNames :: sheetRows).map recordOf) sheetBody := by
  have hnames : SpellsRow (recordOf sheetNames) (bytesOf "unique,\"a,\"\"b\",\"ttl\"") :=
    .cons (.plain (bytesOf "unique") (by decide)) (.cons (.quoted _) (.last (.quoted _)))
  have hfirst : SpellsRow (recordOf ["1", "é\r\n", "+007"]) (bytesOf "1,\"é\r\n\",+007") :=
    .cons (.plain (bytesOf "1") (by decide))
      (.cons (.quoted _) (.last (.plain (bytesOf "+007") (by decide))))
  have hsecond : SpellsRow (recordOf ["18446744073709551615", "", "00"])
      (bytesOf "18446744073709551615,,00") :=
    .cons (.plain (bytesOf "18446744073709551615") (by decide))
      (.cons (.plain [] (by decide)) (.last (.plain (bytesOf "00") (by decide))))
  exact .empty .feed (.empty .carriageAndFeed (.line hnames (by decide) .carriage
    (.line hfirst (by decide) .carriageAndFeed (.empty .carriage (.unended hsecond (by decide))))))

/-- A folder with the file, marked. -/
def sheetFolder : Tree where
  home := ["work"]
  nodes := [([], .folder), (["work"], .folder), (["work", "a.csv"], .file (mark ++ sheetBody) none)]

theorem shows_sheetRows : List.Forall₂ (Shows sheetNames) sheetPoints sheetRows := by
  refine .cons ⟨rfl, ?_⟩ (.cons ⟨rfl, ?_⟩ .nil) <;> intro column text hmem <;> cases column
  · obtain rfl : text = "+007" := by simpa [sheetNames, Column.name] using hmem
    exact .signed 2
  · obtain rfl : text = "1" := by simpa [sheetNames, Column.name] using hmem
    exact .unsigned 0
  · obtain rfl : text = "00" := by simpa [sheetNames, Column.name] using hmem
    exact .unsigned 1
  · obtain rfl : text = "18446744073709551615" := by
      simpa [sheetNames, Column.name] using hmem
    exact .unsigned 0

theorem load_laidOut_sheet :
    HeadsColumns sheetNames ∧ List.Forall₂ (Shows sheetNames) sheetPoints sheetRows ∧
      LaysOut ((sheetNames :: sheetRows).map recordOf) sheetBody ∧
      sheetFolder.readBytes "a.csv" = .ok (mark ++ sheetBody) ∧
      load sheetFolder "a.csv" = .ok sheetPoints := by
  have hnames : HeadsColumns sheetNames := by
    intro column
    cases column <;> decide
  have hread : sheetFolder.readBytes "a.csv" = .ok (mark ++ sheetBody) :=
    Tree.readBytes_name (by constructor <;> decide) rfl (by decide) rfl
  exact ⟨hnames, shows_sheetRows, laysOut_sheetBody, hread,
    load_laidOut hnames shows_sheetRows laysOut_sheetBody .marked hread⟩

end Concordance.Growth
