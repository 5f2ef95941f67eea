import Concordance.Delimited.Record
import Mathlib.Tactic.Common

/-!
# Concordance.Proofs.Delimited.Record

Records are read back from any bytes that show them: fields may stand between quotes, lines may end
in any of three ways, empty lines may stand anywhere, and the mark of UTF-8 may stand in front.

* `Reader.foldl_read_spells`, `Reader.foldl_read_row` — what the reader makes of a field and of the
  fields of a record;
* `records_laidOut` — the records of a file that shows them;
* `laysOut_lines` — lines without quotes show their records, also where empty lines follow.
-/

namespace Concordance.Delimited

/-! ## what is written -/

/-- Whether a byte means nothing but itself. -/
def IsPlain (b : UInt8) : Prop := b ≠ comma ∧ b ≠ quote ∧ b ≠ lineFeed ∧ b ≠ carriageReturn

instance (b : UInt8) : Decidable (IsPlain b) := inferInstanceAs (Decidable (_ ∧ _))

/-- Nothing but plain bytes. -/
def ArePlain (field : Field) : Prop := ∀ b ∈ field, IsPlain b

instance (field : Field) : Decidable (ArePlain field) := List.decidableBAll IsPlain field

/-- A byte between quotes: a quote is doubled. -/
def escape (b : UInt8) : List UInt8 := if b = quote then [quote, quote] else [b]

/-- A field between quotes. -/
def quoted (field : Field) : List UInt8 := quote :: field.flatMap escape ++ [quote]

/-- A field and bytes that stand for it: the field itself if it holds nothing but plain bytes, and
in any case the field between quotes. -/
inductive Spells : Field → List UInt8 → Prop
  | plain (field : Field) (hplain : ArePlain field) : Spells field field
  | quoted (field : Field) : Spells field (quoted field)

/-- A record and bytes that stand for it: its fields with commas between them. -/
inductive SpellsRow : Record → List UInt8 → Prop
  | last {field : Field} {bytes : List UInt8} (h : Spells field bytes) : SpellsRow [field] bytes
  | cons {field : Field} {bytes : List UInt8} (h : Spells field bytes) {fields : Record}
      {rest : List UInt8} (hrest : SpellsRow fields rest) :
      SpellsRow (field :: fields) (bytes ++ comma :: rest)

/-- What ends a line. -/
inductive LineEnd
  | feed
  | carriage
  | carriageAndFeed
  deriving DecidableEq, Repr

/-- The bytes that end a line. -/
def LineEnd.bytes : LineEnd → List UInt8
  | .feed => [lineFeed]
  | .carriage => [carriageReturn]
  | .carriageAndFeed => [carriageReturn, lineFeed]

/-- Records and bytes that show them, line by line: empty lines may stand anywhere, and the last
line need not be ended.  A line without bytes is no record. -/
inductive LaysOut : List Record → List UInt8 → Prop
  | nothing : LaysOut [] []
  | unended {record : Record} {row : List UInt8} (hrow : SpellsRow record row) (hne : row ≠ []) :
      LaysOut [record] row
  | empty (e : LineEnd) {rs : List Record} {bytes : List UInt8} (h : LaysOut rs bytes) :
      LaysOut rs (e.bytes ++ bytes)
  | line {record : Record} {row : List UInt8} (hrow : SpellsRow record row) (hne : row ≠ [])
      (e : LineEnd) {rs : List Record} {bytes : List UInt8} (h : LaysOut rs bytes) :
      LaysOut (record :: rs) (row ++ e.bytes ++ bytes)

/-- The mark of UTF-8. -/
def mark : List UInt8 := [0xEF, 0xBB, 0xBF]

/-- Bytes with the mark of UTF-8 in front of them or without it.  Where it stands it is the mark. -/
inductive MayBeMarked (bytes : List UInt8) : List UInt8 → Prop
  | marked : MayBeMarked bytes (mark ++ bytes)
  | unmarked (h : ¬mark <+: bytes) : MayBeMarked bytes bytes

/-! ## reading -/

namespace Reader

variable {r : Reader} {b : UInt8} {field : Field}

theorem readPlain_of_plain (hb : IsPlain b) : r.readPlain b = r.keep .plain b := by
  obtain ⟨hcomma, -, hlf, hcr⟩ := hb
  simp [readPlain, endsRecord, hcomma, hlf, hcr]

theorem readFirst_of_plain (hb : IsPlain b) : r.readFirst b = r.keep .plain b := by
  rw [readFirst, if_neg (by simpa using hb.2.1), readPlain_of_plain hb]

/-- Where a field may begin. -/
def AtField (r : Reader) : Prop :=
  (r.position = .recordStart ∨ r.position = .fieldStart) ∧ r.field = []

theorem read_of_atField (hr : r.AtField) (hb : IsPlain b) : r.read b = r.keep .plain b := by
  obtain ⟨hposition, -⟩ := hr
  have hends : endsRecord b = false := by simp [endsRecord, hb.2.2.1, hb.2.2.2]
  obtain hp | hp := hposition <;> simp [read, hp, hends, readFirst_of_plain hb]

theorem read_quote_of_atField (hr : r.AtField) : r.read quote = { r with position := .quoted } := by
  obtain ⟨hp | hp, -⟩ := hr <;>
    simp [read, hp, readFirst, endsRecord, quote, lineFeed, carriageReturn]

/-- A comma outside quotes ends a field, also one that has not begun. -/
theorem read_comma (hr : r.position ≠ .quoted) : r.read comma = r.endField := by
  have hends : endsRecord comma = false := by decide
  have hquote : (comma == quote) = false := by decide
  cases hp : r.position <;> simp_all [read, readFirst, readPlain]

theorem foldl_read_plain (h : ∀ b ∈ field, IsPlain b) (hr : r.position = .plain) :
    field.foldl read r = { r with field := field.reverse ++ r.field } := by
  induction field generalizing r with
  | nil => rfl
  | cons b rest ih =>
      have hread : r.read b = r.keep .plain b := by
        simp only [read, hr, readPlain_of_plain (h b List.mem_cons_self)]
      rw [List.foldl_cons, hread, ih (fun b hb => h b (List.mem_cons_of_mem _ hb)) rfl]
      simp [keep, hr]

/-- Between quotes every byte is kept, and of two quotes one. -/
theorem foldl_read_escape (hr : r.position = .quoted) :
    (field.flatMap escape).foldl read r = { r with field := field.reverse ++ r.field } := by
  induction field generalizing r with
  | nil => rfl
  | cons b rest ih =>
      have hread : (escape b).foldl read r = r.keep .quoted b := by
        by_cases hb : b = quote <;> simp [escape, hb, read, hr, keep]
      rw [List.flatMap_cons, List.foldl_append, hread, ih rfl]
      simp [keep, hr]

/-- A field is read up to what ends it.  The reader has not moved only if there was nothing to
read. -/
theorem foldl_read_spells {bytes : List UInt8} (h : Spells field bytes) (hr : r.AtField) :
    ∃ position, bytes.foldl read r = { r with position := position, field := field.reverse } ∧
      position ≠ .quoted ∧ (position = .recordStart → r.position = .recordStart ∧ bytes = []) := by
  cases h with
  | plain hplain =>
      cases field with
      | nil =>
          refine ⟨r.position, ?_, ?_, fun hp => ⟨hp, rfl⟩⟩
          · exact congrArg (fun bytes => { r with field := bytes }) hr.2
          · obtain hp | hp := hr.1 <;> simp [hp]
      | cons b rest =>
          refine ⟨.plain, ?_, by decide, by simp⟩
          rw [List.foldl_cons, read_of_atField hr (hplain b List.mem_cons_self),
            foldl_read_plain (fun b hb => hplain b (List.mem_cons_of_mem _ hb)) rfl]
          simp [keep, hr.2]
  | quoted =>
      refine ⟨.afterQuote, ?_, by decide, by simp⟩
      rw [quoted, List.cons_append, List.foldl_cons, read_quote_of_atField hr, List.foldl_append,
        foldl_read_escape rfl]
      simp [read, hr.2]

/-- Where the end of a line ends a record. -/
def AtEnd (r : Reader) : Prop := r.position ≠ .recordStart ∧ r.position ≠ .quoted

/-- The fields of a record are read up to what ends it. -/
theorem foldl_read_row {record : Record} {row : List UInt8} (h : SpellsRow record row)
    (hr : r.AtField) (hstart : r.position = .recordStart → row ≠ []) :
    (row.foldl read r).AtEnd ∧
      (row.foldl read r).endRecord = { records := (r.fields.reverse ++ record) :: r.records } := by
  induction h generalizing r with
  | last h =>
      obtain ⟨position, hread, hquoted, hmoved⟩ := foldl_read_spells h hr
      rw [hread]
      refine ⟨⟨fun hp => ?_, hquoted⟩, by simp [endRecord]⟩
      obtain ⟨hp, hnil⟩ := hmoved hp
      exact hstart hp hnil
  | @cons field bytes h fields rest _ ih =>
      obtain ⟨position, hread, hquoted, -⟩ := foldl_read_spells h hr
      rw [List.foldl_append, hread, List.foldl_cons, read_comma hquoted]
      obtain ⟨hend, hrecord⟩ := ih (r := endField _) ⟨.inr rfl, rfl⟩ (by simp [endField])
      exact ⟨hend, hrecord.trans (by simp [endField])⟩

/-- The end of a line ends the record on it. -/
theorem foldl_read_end (e : LineEnd) (hr : r.AtEnd) : e.bytes.foldl read r = r.endRecord := by
  have hends : ∀ b, endsRecord b = true → r.read b = r.endRecord := by
    intro b hb
    have hcomma : b ≠ comma := by rintro rfl; revert hb; decide
    have hquote : b ≠ quote := by rintro rfl; revert hb; decide
    obtain ⟨hstart, hquoted⟩ := hr
    cases hp : r.position <;> simp_all [read, readFirst, readPlain]
  cases e with
  | feed => exact hends lineFeed (by decide)
  | carriage => exact hends carriageReturn (by decide)
  | carriageAndFeed =>
      -- the line feed stands on a line of its own
      rw [LineEnd.bytes, List.foldl_cons, hends carriageReturn (by decide)]
      rfl

/-- Empty lines are passed over. -/
theorem foldl_read_empty (e : LineEnd) (before : List Record) :
    e.bytes.foldl read { records := before } = { records := before } := by
  cases e <;> rfl

/-- Lines are read one after the other. -/
theorem foldl_read_laidOut {rs : List Record} {bytes : List UInt8} (h : LaysOut rs bytes)
    (before : List Record) :
    (bytes.foldl read { records := before }).close = before.reverse ++ rs := by
  induction h generalizing before with
  | nothing => simp [close]
  | unended hrow hne =>
      obtain ⟨hend, hrecord⟩ :=
        foldl_read_row (r := { records := before }) hrow ⟨.inl rfl, rfl⟩ fun _ => hne
      rw [close, if_neg hend.1, hrecord]
      simp
  | empty e _ ih => rw [List.foldl_append, foldl_read_empty, ih]
  | line hrow hne e _ ih =>
      obtain ⟨hend, hrecord⟩ :=
        foldl_read_row (r := { records := before }) hrow ⟨.inl rfl, rfl⟩ fun _ => hne
      rw [List.foldl_append, List.foldl_append, foldl_read_end e hend, hrecord, ih]
      simp

end Reader

/-! ## files -/

theorem withoutMark_of_not_prefix {bytes : List UInt8} (h : ¬mark <+: bytes) :
    withoutMark bytes = bytes := by
  unfold withoutMark
  split
  · next rest => exact absurd (List.prefix_append mark rest) h
  · rfl

theorem withoutMark_of_mayBeMarked {body bytes : List UInt8} (h : MayBeMarked body bytes) :
    withoutMark bytes = body := by
  cases h with
  | marked => rfl
  | unmarked hnot => exact withoutMark_of_not_prefix hnot

/-- The records of a file that shows them. -/
theorem records_laidOut {rs : List Record} {body bytes : List UInt8} (hbody : LaysOut rs body)
    (hbytes : MayBeMarked body bytes) : records bytes = rs := by
  rw [records, withoutMark_of_mayBeMarked hbytes]
  exact Reader.foldl_read_laidOut hbody []

/-! ## lines without quotes -/

/-- The fields of a record with commas between them, up to the line feed. -/
def line : Record → List UInt8
  | [] => [lineFeed]
  | [field] => field ++ [lineFeed]
  | field :: fields => field ++ comma :: line fields

theorem exists_spellsRow_line {record : Record} (hne : record ≠ [])
    (h : ∀ field ∈ record, field ≠ [] ∧ ∀ b ∈ field, IsPlain b) :
    ∃ row, SpellsRow record row ∧ row ≠ [] ∧ line record = row ++ [lineFeed] := by
  induction record with
  | nil => exact absurd rfl hne
  | cons field rest ih =>
      obtain ⟨hfield, hplain⟩ := h field List.mem_cons_self
      cases rest with
      | nil => exact ⟨field, .last (.plain field hplain), hfield, rfl⟩
      | cons next rest =>
          obtain ⟨row, hrow, -, hline⟩ :=
            ih (List.cons_ne_nil _ _) fun f hf => h f (List.mem_cons_of_mem _ hf)
          exact ⟨field ++ comma :: row, .cons (.plain field hplain) hrow, by simp,
            by simp [line, hline]⟩

theorem laysOut_lineFeeds (n : Nat) : LaysOut [] (List.replicate n lineFeed) := by
  induction n with
  | zero => exact .nothing
  | succ n ih => exact .empty .feed ih

/-- Lines show their records, also where empty lines follow. -/
theorem laysOut_lines {rs : List Record} (n : Nat)
    (h : ∀ record ∈ rs, record ≠ [] ∧ ∀ field ∈ record, field ≠ [] ∧ ∀ b ∈ field, IsPlain b) :
    LaysOut rs (rs.flatMap line ++ List.replicate n lineFeed) := by
  induction rs with
  | nil => exact laysOut_lineFeeds n
  | cons record rest ih =>
      obtain ⟨hne, hfields⟩ := h record List.mem_cons_self
      obtain ⟨row, hrow, hrow_ne, hline⟩ := exists_spellsRow_line hne hfields
      rw [List.flatMap_cons, List.append_assoc, hline]
      exact .line hrow hrow_ne .feed (ih fun record hr => h record (List.mem_cons_of_mem _ hr))

end Concordance.Delimited
