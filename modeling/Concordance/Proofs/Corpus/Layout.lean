import Concordance.Proofs.Corpus.Markup

/-!
# Concordance.Proofs.Corpus.Layout

Documents that are written with marker lines are read back, however they are laid out: sections may
be wrapped anywhere, and lines may have blanks behind them and blank lines between them, and end
either way.

* `lines_of_laysOut` — the lines that count are those that were written;
* `section?_eq_of_wraps` — the pieces of a section are put together again;
* `parse_laidOut` — the document is read back.
-/

namespace Concordance.Markup

open Text

/-! ## what is written -/

/-- A line that counts: it has text up to its end. -/
structure IsLine (line : List Char) : Prop where
  nonempty : line ≠ []
  feed : '\n' ∉ line
  ends : ∀ c ∈ line.getLast?, isBlank c = false

/-- The marker in front of a field. -/
def heading : TextField → List Char
  | .title => ['.', 'T']
  | .author => ['.', 'A']
  | .bib => ['.', 'B']
  | .content => ['.', 'W']

/-- A piece of a field: a line that is no marker. -/
structure IsPiece (piece : List Char) : Prop extends IsLine piece where
  ordinary : piece ∉ TextField.all.map heading

/-- The text of pieces with single spaces between them; without pieces it is absent. -/
def joined : List (List Char) → Option String
  | [] => none
  | pieces => some (String.ofList ([' '].intercalate pieces))

/-- Pieces that a text can be wrapped into.  Only those after the first one may begin with a
blank. -/
structure Wraps (pieces : List (List Char)) (text : Option String) : Prop where
  each : ∀ piece ∈ pieces, IsPiece piece
  starts : ∀ piece ∈ pieces.head?, ∀ c ∈ piece.head?, isBlank c = false
  text_eq : text = joined pieces

instance (line : List Char) : Decidable (IsLine line) :=
  letI : Decidable (∀ c ∈ line.getLast?, isBlank c = false) := Option.decidableForallMem _
  decidable_of_iff (line ≠ [] ∧ '\n' ∉ line ∧ ∀ c ∈ line.getLast?, isBlank c = false)
    ⟨fun ⟨hnonempty, hfeed, hends⟩ => ⟨hnonempty, hfeed, hends⟩,
      fun h => ⟨h.nonempty, h.feed, h.ends⟩⟩

instance (piece : List Char) : Decidable (IsPiece piece) :=
  decidable_of_iff (IsLine piece ∧ piece ∉ TextField.all.map heading)
    ⟨fun ⟨hline, hordinary⟩ => ⟨hline, hordinary⟩, fun h => ⟨h.toIsLine, h.ordinary⟩⟩

instance (pieces : List (List Char)) (text : Option String) : Decidable (Wraps pieces text) :=
  letI (piece : List Char) : Decidable (∀ c ∈ piece.head?, isBlank c = false) :=
    Option.decidableForallMem _
  decidable_of_iff ((∀ piece ∈ pieces, IsPiece piece) ∧
      (∀ piece ∈ pieces.head?, ∀ c ∈ piece.head?, isBlank c = false) ∧ text = joined pieces)
    ⟨fun ⟨heach, hstarts, htext⟩ => ⟨heach, hstarts, htext⟩,
      fun h => ⟨h.each, h.starts, h.text_eq⟩⟩

/-- The lines of a document whose fields are wrapped into pieces. -/
def written (pieces : TextField → List (List Char)) : List (List Char) :=
  TextField.all.flatMap fun f => heading f :: pieces f

/-! ## how it is laid out -/

/-- What ends a line. -/
inductive LineEnd
  | feed
  | returnAndFeed
  deriving DecidableEq, Repr

/-- The characters that end a line. -/
def LineEnd.chars : LineEnd → List Char
  | .feed => ['\n']
  | .returnAndFeed => ['\r', '\n']

/-- Blanks that stand on one line. -/
def IsPadding (blanks : List Char) : Prop := ∀ c ∈ blanks, isBlank c = true ∧ c ≠ '\n'

instance (blanks : List Char) : Decidable (IsPadding blanks) :=
  List.decidableBAll (fun c => isBlank c = true ∧ c ≠ '\n') blanks

/-- Lines and a text that shows them: each line may have blanks behind it, blank lines may stand
anywhere, and the last line need not be ended. -/
inductive LaysOut : List (List Char) → List Char → Prop
  | nothing (blanks : List Char) (hblanks : IsPadding blanks) : LaysOut [] blanks
  | unended (line blanks : List Char) (hblanks : IsPadding blanks) :
      LaysOut [line] (line ++ blanks)
  | blank (blanks : List Char) (hblanks : IsPadding blanks) (e : LineEnd) {ls : List (List Char)}
      {text : List Char} (h : LaysOut ls text) : LaysOut ls (blanks ++ e.chars ++ text)
  | line (line blanks : List Char) (hblanks : IsPadding blanks) (e : LineEnd)
      {ls : List (List Char)} {text : List Char} (h : LaysOut ls text) :
      LaysOut (line :: ls) (line ++ blanks ++ e.chars ++ text)

/-! ## lines -/

/-- A carriage return in front of a line feed is one more blank on the line. -/
theorem LineEnd.exists_padding (e : LineEnd) :
    ∃ blanks, IsPadding blanks ∧ e.chars = blanks ++ ['\n'] := by
  cases e with
  | feed => exact ⟨[], by decide, rfl⟩
  | returnAndFeed => exact ⟨['\r'], by decide, rfl⟩

theorem IsPadding.append {xs ys : List Char} (hxs : IsPadding xs) (hys : IsPadding ys) :
    IsPadding (xs ++ ys) := fun c hc => (List.mem_append.mp hc).elim (hxs c) (hys c)

theorem lines_append_feed (front rest : List Char) :
    lines (front ++ '\n' :: rest) = lines front ++ lines rest := by
  rw [lines, List.splitOn_append_cons_self, List.map_append, List.filter_append]
  rfl

theorem lines_of_not_mem {cs : List Char} (h : '\n' ∉ cs) :
    lines cs = [trimEnd cs].filter (!·.isEmpty) := by
  rw [lines, List.splitOn_eq_singleton h, List.map_singleton]

theorem lines_padding {blanks : List Char} (h : IsPadding blanks) : lines blanks = [] := by
  rw [lines_of_not_mem fun hmem => (h _ hmem).2 rfl, trimEnd_eq_nil_iff.mpr fun c hc => (h c hc).1]
  rfl

theorem lines_line {line blanks : List Char} (hline : IsLine line) (h : IsPadding blanks) :
    lines (line ++ blanks) = [line] := by
  have hfeed : '\n' ∉ line ++ blanks := fun hmem =>
    (List.mem_append.mp hmem).elim hline.feed fun hmem => (h _ hmem).2 rfl
  rw [lines_of_not_mem hfeed, trimEnd_append_blanks fun c hc => (h c hc).1,
    trimEnd_eq_self fun c hc => hline.ends c hc]
  simp [hline.nonempty]

/-- The lines that count are those that were written. -/
theorem lines_of_laysOut {ls : List (List Char)} {text : List Char} (h : LaysOut ls text)
    (hls : ∀ line ∈ ls, IsLine line) : lines text = ls := by
  induction h with
  | nothing blanks hblanks => exact lines_padding hblanks
  | unended line blanks hblanks => exact lines_line (hls line List.mem_cons_self) hblanks
  | @blank blanks hblanks e ls text _ ih =>
      obtain ⟨more, hmore, hend⟩ := e.exists_padding
      rw [hend, ← List.append_assoc, List.append_assoc, List.singleton_append, lines_append_feed,
        lines_padding (hblanks.append hmore), List.nil_append, ih hls]
  | @line line blanks hblanks e ls text _ ih =>
      obtain ⟨more, hmore, hend⟩ := e.exists_padding
      have htext : line ++ blanks ++ e.chars ++ text =
          line ++ (blanks ++ more) ++ '\n' :: text := by
        simp [hend]
      rw [htext, lines_append_feed, lines_line (hls line List.mem_cons_self) (hblanks.append hmore),
        ih fun l hl => hls l (List.mem_cons_of_mem line hl)]
      rfl

/-! ## sections -/

theorem classify_piece {piece : List Char} (h : IsPiece piece) :
    classify piece = .ordinary piece := by
  have hne : ∀ f, piece ≠ heading f := fun f heq =>
    h.ordinary (heq ▸ List.mem_map_of_mem f.mem_all)
  have hT : piece ≠ ['.', 'T'] := hne .title
  have hA : piece ≠ ['.', 'A'] := hne .author
  have hB : piece ≠ ['.', 'B'] := hne .bib
  have hW : piece ≠ ['.', 'W'] := hne .content
  rw [classify, if_neg hT, if_neg hA, if_neg hB, if_neg hW]

/-- Pieces are kept until a marker closes their section. -/
theorem foldl_read_pieces {pieces : List (List Char)} (h : ∀ piece ∈ pieces, IsPiece piece)
    (d : Draft) :
    pieces.foldl Draft.read d = { d with pending := pieces.reverse ++ d.pending } := by
  induction pieces generalizing d with
  | nil => rfl
  | cons piece pieces ih =>
      have hread : d.read piece = { d with pending := piece :: d.pending } := by
        rw [Draft.read, classify_piece (h piece List.mem_cons_self)]
      rw [List.foldl_cons, hread, ih fun p hp => h p (List.mem_cons_of_mem piece hp)]
      simp

/-- Pieces with spaces between them have no blanks at their end. -/
theorem trimEnd_intercalate {pieces : List (List Char)} (h : ∀ piece ∈ pieces, IsPiece piece) :
    trimEnd ([' '].intercalate pieces) = [' '].intercalate pieces := by
  induction pieces with
  | nil => rfl
  | cons piece pieces ih =>
      have hpiece := h piece List.mem_cons_self
      cases pieces with
      | nil =>
          rw [List.intercalate_singleton]
          exact trimEnd_eq_self fun c hc => hpiece.ends c hc
      | cons next rest =>
          have hrest := ih fun p hp => h p (List.mem_cons_of_mem piece hp)
          have hnext := (h next (List.mem_cons_of_mem piece List.mem_cons_self)).nonempty
          have hne : trimEnd ([' '].intercalate (next :: rest)) ≠ [] := by
            rw [hrest]
            cases rest <;> simp [hnext]
          rw [List.intercalate_cons_cons, trimEnd_append_of_ne_nil hne, hrest]

theorem ink_piece_ne_nil {piece : List Char} (h : IsLine piece) : ink piece ≠ [] := by
  obtain ⟨c, hc⟩ := Option.isSome_iff_exists.mp (List.getLast?_isSome.mpr h.nonempty)
  exact ink_ne_nil (List.mem_of_getLast? hc) (h.ends c hc)

/-- The pieces of a section are put together again. -/
theorem section?_eq_of_wraps {pieces : List (List Char)} {text : Option String}
    (h : Wraps pieces text) : section? pieces = text := by
  rw [section?_eq_value fun piece hpiece => ink_piece_ne_nil (h.each piece hpiece).toIsLine,
    h.text_eq]
  cases pieces with
  | nil => rfl
  | cons piece rest =>
      obtain ⟨c, cs, rfl⟩ := List.exists_cons_of_ne_nil (h.each piece List.mem_cons_self).nonempty
      have hc : isBlank c = false := h.starts (c :: cs) rfl c rfl
      obtain ⟨ds, hds⟩ : ∃ ds, [' '].intercalate ((c :: cs) :: rest) = c :: ds := by
        cases rest <;> simp
      rw [value, joined, trim, hds, trimStart_cons hc, ← hds, trimEnd_intercalate h.each]
      all_goals simp

/-! ## the document -/

theorem isLine_heading (f : TextField) : IsLine (heading f) := by
  cases f <;> decide

theorem isLine_of_mem_written {pieces : TextField → List (List Char)}
    (h : ∀ f, ∀ piece ∈ pieces f, IsPiece piece) {line : List Char}
    (hline : line ∈ written pieces) : IsLine line := by
  obtain ⟨f, -, hmem⟩ := List.mem_flatMap.mp hline
  obtain rfl | hmem := List.mem_cons.mp hmem
  · exact isLine_heading f
  · exact (h f line hmem).toIsLine

/-- **Layouts**: a document that is written with its fields wrapped in any way, in any layout, is
read back. -/
theorem parse_laidOut {d : Document} {pieces : TextField → List (List Char)}
    (h : ∀ f, Wraps (pieces f) (d.text? f)) {text : List Char}
    (htext : LaysOut (written pieces) text) : parse (String.ofList text) d.ordinal = d := by
  have heach := fun f => (h f).each
  have hlines := lines_of_laysOut htext fun _ => isLine_of_mem_written heach
  have hcurrent : ∀ document f, Draft.current ⟨document, (pieces f).reverse⟩ = d.text? f := by
    intro document f
    rw [Draft.current, List.reverse_reverse, section?_eq_of_wraps (h f)]
  -- the markers hand each field over to the document
  have hread : (written pieces).foldl Draft.read ⟨{ ordinal := d.ordinal }, []⟩ =
      ⟨{ d with content := none }, (pieces .content).reverse⟩ := by
    simp only [written, TextField.all, List.flatMap_cons, List.flatMap_nil, List.append_nil,
      List.cons_append, List.foldl_cons, List.foldl_append, foldl_read_pieces (heach _)]
    simp [Draft.read, classify, heading, hcurrent, Document.text?]
  rw [parse, String.toList_ofList, hlines, hread, Draft.close, hcurrent]
  rfl

/-- A document without an author. -/
def wrappedDocument : Document := ⟨7, some "one  two", none, some ".w", some "three .B .W"⟩

/-- Its title and its content on two lines each. -/
def wrapped : TextField → List (List Char)
  | .title => ["one".toList, " two".toList]
  | .author => []
  | .bib => [".w".toList]
  | .content => ["three".toList, ".B .W".toList]

/-- Its lines with blanks and blank lines, ended either way but for the last one. -/
def wrappedText : List Char :=
  "\r\n.T \n\none\t\r\n two\n.A\r\n \n.B\n.w\n.W\nthree\n.B .W ".toList

theorem laysOut_wrapped : LaysOut (written wrapped) wrappedText :=
  .blank [] (by decide) .returnAndFeed <|
  .line (heading .title) [' '] (by decide) .feed <|
  .blank [] (by decide) .feed <|
  .line "one".toList ['\t'] (by decide) .returnAndFeed <|
  .line " two".toList [] (by decide) .feed <|
  .line (heading .author) [] (by decide) .returnAndFeed <|
  .blank [' '] (by decide) .feed <|
  .line (heading .bib) [] (by decide) .feed <|
  .line ".w".toList [] (by decide) .feed <|
  .line (heading .content) [] (by decide) .feed <|
  .line "three".toList [] (by decide) .feed <|
  .unended ".B .W".toList [' '] (by decide)

theorem parse_laidOut_wrapped :
    (∀ f, Wraps (wrapped f) (wrappedDocument.text? f)) ∧ LaysOut (written wrapped) wrappedText ∧
      parse (String.ofList wrappedText) 7 = wrappedDocument := by
  have hwraps : ∀ f, Wraps (wrapped f) (wrappedDocument.text? f) := by
    intro f
    cases f <;> decide
  exact ⟨hwraps, laysOut_wrapped, parse_laidOut hwraps laysOut_wrapped⟩

end Concordance.Markup
