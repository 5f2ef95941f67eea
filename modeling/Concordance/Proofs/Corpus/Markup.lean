import Concordance.Corpus.Markup
import Concordance.Proofs.Text.Blank
import Mathlib.Data.List.Induction
import Mathlib.Data.List.Nodup

/-!
# Concordance.Proofs.Corpus.Markup

Documents with marker lines, read as a whole: the lines that count are cut at every closing marker,
and a field is the segment that the last of its markers closes.

The reader goes through the lines one by one.  `Draft.Has` ties what it holds at any point to the
segments of the lines read so far: each line read keeps it.

* `parse_eq_reading` — the reader is this reading;
* `of_text?_parse` — what a field that is present looks like;
* `parse_closed` — both of them, and that no text is lost or duplicated where no marker is repeated.
-/

namespace Concordance.Markup

open Text

/-! ## the reading -/

/-- Whether a line is a marker that closes a segment. -/
def isClosing (line : List Char) : Bool :=
  line = ['.', 'A'] || line = ['.', 'B'] || line = ['.', 'W']

/-- The lines of a text that count, without the opening markers. -/
def kept (text : String) : List (List Char) := (lines text.toList).filter (· ≠ ['.', 'T'])

/-- The lines between the closing markers: one segment for each marker, and the one after the last
of them. -/
def segments (ls : List (List Char)) : List (List (List Char)) := ls.splitOnP isClosing

/-- The closing markers, in order. -/
def closings (ls : List (List Char)) : List (List Char) := ls.filter isClosing

/-- The lines that are no markers. -/
def ordinary (ls : List (List Char)) : List (List Char) := ls.filter (!isClosing ·)

/-- The last segment that is closed by a marker. -/
def closedBy (marker : List Char) (ls : List (List Char)) : Option (List (List Char)) :=
  (((segments ls).zip (closings ls)).filter (·.2 = marker)).getLast?.map Prod.fst

/-- The segment of a field. -/
def segment? (ls : List (List Char)) : TextField → Option (List (List Char))
  | .title => closedBy ['.', 'A'] ls
  | .author => closedBy ['.', 'B'] ls
  | .bib => closedBy ['.', 'W'] ls
  | .content => (segments ls).getLast?

/-- The value of a segment: its lines with single spaces between them, trimmed.  A segment without
lines has none. -/
def value : List (List Char) → Option String
  | [] => none
  | segment => some (String.ofList (trim ([' '].intercalate segment)))

/-- A text as its segments say. -/
def reading (text : String) (ordinal : Nat) : Document where
  ordinal := ordinal
  title := (segment? (kept text) .title).bind value
  author := (segment? (kept text) .author).bind value
  bib := (segment? (kept text) .bib).bind value
  content := (segment? (kept text) .content).bind value

/-! ## pieces of a list -/

/-- What is cut out of a list are the places where it is cut. -/
theorem flatten_splitOnP {α : Type} (p : α → Bool) (xs : List α) :
    (xs.splitOnP p).flatten = xs.filter (!p ·) := by
  induction xs with
  | nil => rw [List.splitOnP_nil]; rfl
  | cons x xs ih =>
      obtain ⟨piece, pieces, hpieces⟩ := List.exists_cons_of_ne_nil (List.splitOnP_ne_nil p xs)
      rw [List.splitOnP_cons_eq_if_modifyHead, hpieces]
      rw [hpieces] at ih
      cases hx : p x <;> simpa [hx] using ih

theorem flatten_segments (ls : List (List Char)) : (segments ls).flatten = ordinary ls :=
  flatten_splitOnP isClosing ls

/-! ## segments of lines that grow -/

/-- The segment after the last marker stands after one segment for each marker, and one more
ordinary line goes to it. -/
theorem exists_segments (ls : List (List Char)) :
    ∃ front last, segments ls = front ++ [last] ∧ front.length = (closings ls).length ∧
      ∀ x, isClosing x = false → segments (ls ++ [x]) = front ++ [last ++ [x]] := by
  induction ls with
  | nil =>
      exact ⟨[], [], List.splitOnP_nil, rfl,
        fun x hx => List.splitOnP_eq_singleton (by simpa using hx)⟩
  | cons y ls ih =>
      obtain ⟨front, last, hsegments, hlength, hmore⟩ := ih
      unfold segments closings at *
      rw [List.splitOnP_cons_eq_if_modifyHead, hsegments]
      cases hy : isClosing y with
      | true =>
          refine ⟨[] :: front, last, rfl, ?_, fun x hx => ?_⟩
          · rw [List.length_cons, hlength, List.filter_cons_of_pos hy, List.length_cons]
          · rw [List.cons_append, List.splitOnP_cons_eq_if_modifyHead, hmore x hx, hy]
            rfl
      | false =>
          rw [List.filter_cons_of_neg (by simp [hy]), ← hlength]
          -- the line goes to the first segment, which may be the last one
          cases front with
          | nil =>
              refine ⟨[], y :: last, rfl, rfl, fun x hx => ?_⟩
              rw [List.cons_append, List.splitOnP_cons_eq_if_modifyHead, hmore x hx, hy]
              rfl
          | cons segment front =>
              refine ⟨(y :: segment) :: front, last, rfl, rfl, fun x hx => ?_⟩
              rw [List.cons_append, List.splitOnP_cons_eq_if_modifyHead, hmore x hx, hy]
              rfl

theorem segments_closing (ls : List (List Char)) {x : List Char} (hx : isClosing x = true) :
    segments (ls ++ [x]) = segments ls ++ [[]] := by
  rw [segments, List.splitOnP_append_cons ls [] hx, List.splitOnP_nil, segments]

/-- The segment after the last marker is closed by none. -/
theorem zip_closings {ls : List (List Char)} {front : List (List (List Char))}
    {last : List (List Char)} (h : segments ls = front ++ [last])
    (hlength : front.length = (closings ls).length) :
    (segments ls).zip (closings ls) = front.zip (closings ls) := by
  rw [h, ← List.append_nil (closings ls), List.zip_append (by simpa using hlength)]
  simp

/-- A marker closes the last segment, and leaves what other markers have closed. -/
theorem closedBy_closing {ls : List (List Char)} {x : List Char} (hx : isClosing x = true)
    {front : List (List (List Char))} {last : List (List Char)} (h : segments ls = front ++ [last])
    (hlength : front.length = (closings ls).length) (marker : List Char) :
    closedBy marker (ls ++ [x]) = if x = marker then some last else closedBy marker ls := by
  have hclosings : closings (ls ++ [x]) = closings ls ++ [x] := by simp [closings, hx]
  rw [closedBy, closedBy, segments_closing ls hx, hclosings, zip_closings h hlength, h,
    List.append_assoc, List.zip_append hlength]
  by_cases hmarker : x = marker <;> simp [hmarker]

/-- An ordinary line leaves what has been closed. -/
theorem closedBy_ordinary {ls : List (List Char)} {x : List Char} (hx : isClosing x = false)
    (marker : List Char) : closedBy marker (ls ++ [x]) = closedBy marker ls := by
  obtain ⟨front, last, h, hlength, hmore⟩ := exists_segments ls
  have hclosings : closings (ls ++ [x]) = closings ls ++ [] := by simp [closings, hx]
  rw [closedBy, closedBy, zip_closings h hlength, hmore x hx, hclosings, List.zip_append hlength]
  simp

/-! ## the reader -/

/-- What a reader holds that has read some lines: the last segment, and for each marker the text of
the segment that it has closed last. -/
structure Draft.Has (ls : List (List Char)) (d : Draft) : Prop where
  pending : (segments ls).getLast? = some d.pending.reverse
  title : d.document.title = (closedBy ['.', 'A'] ls).bind section?
  author : d.document.author = (closedBy ['.', 'B'] ls).bind section?
  bib : d.document.bib = (closedBy ['.', 'W'] ls).bind section?

namespace Draft.Has

variable {ls : List (List Char)} {d : Draft}

/-- A marker gives the text of the last segment to its field, and a new segment begins. -/
theorem closing (h : d.Has ls) {x : List Char} (hx : isClosing x = true) :
    (segments (ls ++ [x])).getLast? = some [] ∧
      (closedBy x (ls ++ [x])).bind section? = d.current ∧
      ∀ marker, x ≠ marker →
        (closedBy marker ls).bind section? = (closedBy marker (ls ++ [x])).bind section? := by
  obtain ⟨front, last, hsegments, hlength, -⟩ := exists_segments ls
  have hclosed := closedBy_closing hx hsegments hlength
  have hlast : last = d.pending.reverse := by
    have hpending := h.pending
    rw [hsegments, List.getLast?_concat] at hpending
    exact Option.some.inj hpending
  refine ⟨by rw [segments_closing ls hx, List.getLast?_concat], ?_, fun marker hne => ?_⟩
  · rw [hclosed, if_pos rfl, hlast]
    rfl
  · rw [hclosed, if_neg hne]

/-- An ordinary line goes to the last segment. -/
theorem ordinary (h : d.Has ls) {x : List Char} (hx : isClosing x = false) :
    Has (ls ++ [x]) { d with pending := x :: d.pending } where
  pending := by
    obtain ⟨front, last, hsegments, -, hmore⟩ := exists_segments ls
    have hpending := h.pending
    rw [hsegments, List.getLast?_concat, Option.some_inj] at hpending
    rw [hmore x hx, List.getLast?_concat, hpending, List.reverse_cons]
  title := by rw [closedBy_ordinary hx, h.title]
  author := by rw [closedBy_ordinary hx, h.author]
  bib := by rw [closedBy_ordinary hx, h.bib]

/-- Each line that is read goes where the segments say. -/
theorem read (h : d.Has ls) (line : List Char) :
    (d.read line).Has (ls ++ [line].filter (· ≠ ['.', 'T'])) := by
  by_cases hT : line = ['.', 'T']
  · subst hT
    rwa [List.filter_cons_of_neg (by simp), List.filter_nil, List.append_nil]
  rw [List.filter_cons_of_pos (by simpa using hT), List.filter_nil]
  by_cases hA : line = ['.', 'A']
  · subst hA
    obtain ⟨hlast, hown, hother⟩ := h.closing (x := ['.', 'A']) rfl
    refine ⟨hlast, hown.symm, ?_, ?_⟩
    · exact h.author.trans (hother ['.', 'B'] (by decide))
    · exact h.bib.trans (hother ['.', 'W'] (by decide))
  by_cases hB : line = ['.', 'B']
  · subst hB
    obtain ⟨hlast, hown, hother⟩ := h.closing (x := ['.', 'B']) rfl
    refine ⟨hlast, ?_, hown.symm, ?_⟩
    · exact h.title.trans (hother ['.', 'A'] (by decide))
    · exact h.bib.trans (hother ['.', 'W'] (by decide))
  by_cases hW : line = ['.', 'W']
  · subst hW
    obtain ⟨hlast, hown, hother⟩ := h.closing (x := ['.', 'W']) rfl
    refine ⟨hlast, ?_, ?_, hown.symm⟩
    · exact h.title.trans (hother ['.', 'A'] (by decide))
    · exact h.author.trans (hother ['.', 'B'] (by decide))
  · have hline : classify line = .ordinary line := by
      rw [classify, if_neg hT, if_neg hA, if_neg hB, if_neg hW]
    rw [Draft.read, hline]
    exact h.ordinary (by simp [isClosing, hA, hB, hW])

end Draft.Has

/-- The reader holds what the lines read so far say. -/
theorem foldl_read_has (ordinal : Nat) (ls : List (List Char)) :
    (ls.foldl Draft.read ⟨{ ordinal := ordinal }, []⟩).Has (ls.filter (· ≠ ['.', 'T'])) := by
  induction ls using List.reverseRecOn with
  | nil => exact ⟨rfl, rfl, rfl, rfl⟩
  | append_singleton ls line ih =>
      rw [List.foldl_append, List.filter_append]
      exact ih.read line

theorem text?_parse (text : String) (ordinal : Nat) (f : TextField) :
    (parse text ordinal).text? f = (segment? (kept text) f).bind section? := by
  have h := foldl_read_has ordinal (lines text.toList)
  cases f with
  | title => exact h.title
  | author => exact h.author
  | bib => exact h.bib
  | content => exact (congrArg (Option.bind · section?) h.pending).symm

/-! ## values -/

/-- The lines that count have text, and no line feed. -/
theorem of_mem_lines {cs line : List Char} (h : line ∈ lines cs) :
    ink line ≠ [] ∧ '\n' ∉ line := by
  obtain ⟨hmem, hne⟩ := List.mem_filter.mp h
  obtain ⟨raw, hraw, rfl⟩ := List.mem_map.mp hmem
  constructor
  · obtain ⟨c, hc⟩ := Option.isSome_iff_exists.mp
      (List.getLast?_isSome.mpr (by simpa using hne : trimEnd raw ≠ []))
    exact ink_ne_nil (List.mem_of_getLast? hc) (getLast?_trimEnd hc)
  · intro hfeed
    have hflat : '\n' ∈ (cs.splitOnP (· == '\n')).flatten :=
      List.mem_flatten.mpr ⟨raw, hraw, (isPrefix_trimEnd raw).subset hfeed⟩
    rw [flatten_splitOnP] at hflat
    simp at hflat

theorem flatMap_space (line : List Char) (rest : List (List Char)) :
    (line :: rest).flatMap (' ' :: ·) = ' ' :: [' '].intercalate (line :: rest) := by
  induction rest generalizing line with
  | nil => simp
  | cons next rest ih =>
      rw [List.flatMap_cons, ih, List.intercalate_cons_cons]
      simp

theorem ink_intercalate (segment : List (List Char)) :
    ink ([' '].intercalate segment) = ink segment.flatten := by
  induction segment with
  | nil => rfl
  | cons line rest ih =>
      cases rest with
      | nil => simp
      | cons next rest =>
          rw [List.intercalate_cons_cons, List.flatten_cons, ink_append, ink_append, ih, ink_append]
          simp [ink_cons_blank (c := ' ') (by decide)]

/-- Lines with text have a text together. -/
theorem value_of_ne_nil {segment : List (List Char)} (hne : segment ≠ [])
    (h : ∀ line ∈ segment, ink line ≠ []) :
    value segment = some (String.ofList (trim ([' '].intercalate segment))) ∧
      trim ([' '].intercalate segment) ≠ [] := by
  obtain ⟨line, rest, rfl⟩ := List.exists_cons_of_ne_nil hne
  refine ⟨rfl, trim_ne_nil ?_⟩
  rw [ink_intercalate, List.flatten_cons, ink_append]
  exact fun hnil => h line List.mem_cons_self (List.append_eq_nil_iff.mp hnil).1

/-- The section of lines with text is their value. -/
theorem section?_eq_value {segment : List (List Char)}
    (h : ∀ line ∈ segment, ink line ≠ []) : section? segment = value segment := by
  cases segment with
  | nil => rfl
  | cons line rest =>
      obtain ⟨hvalue, hne⟩ := value_of_ne_nil (List.cons_ne_nil line rest) h
      rw [section?, flatMap_space, trim_cons_blank (by decide), hvalue]
      split
      · next hnil => exact absurd hnil hne
      · rfl

theorem mem_segments_of_closedBy {marker : List Char} {ls segment : List (List Char)}
    (h : closedBy marker ls = some segment) : segment ∈ segments ls := by
  obtain ⟨⟨segment, x⟩, hpair, rfl⟩ := Option.map_eq_some_iff.mp h
  exact (List.of_mem_zip ((List.mem_filter.mp (List.mem_of_getLast? hpair)).1)).1

theorem mem_segments_of_segment? {f : TextField} {ls segment : List (List Char)}
    (h : segment? ls f = some segment) : segment ∈ segments ls := by
  cases f with
  | title => exact mem_segments_of_closedBy h
  | author => exact mem_segments_of_closedBy h
  | bib => exact mem_segments_of_closedBy h
  | content => exact List.mem_of_getLast? h

/-- The lines of a segment are among those that count. -/
theorem of_mem_segment {text : String} {segment : List (List Char)}
    (h : segment ∈ segments (kept text)) {line : List Char} (hline : line ∈ segment) :
    ink line ≠ [] ∧ '\n' ∉ line := by
  have hmem : line ∈ (segments (kept text)).flatten := List.mem_flatten.mpr ⟨segment, h, hline⟩
  rw [flatten_segments] at hmem
  exact of_mem_lines (List.mem_filter.mp (List.mem_filter.mp hmem).1).1

theorem text?_parse_eq_value (text : String) (ordinal : Nat) (f : TextField) :
    (parse text ordinal).text? f = (segment? (kept text) f).bind value := by
  rw [text?_parse]
  cases h : segment? (kept text) f with
  | none => rfl
  | some segment =>
      exact section?_eq_value fun line hline =>
        (of_mem_segment (mem_segments_of_segment? h) hline).1

/-- The reader reads a text as its segments say. -/
theorem parse_eq_reading (text : String) (ordinal : Nat) :
    parse text ordinal = reading text ordinal := by
  have hfield := text?_parse_eq_value text ordinal
  have hordinal := parse_ordinal text ordinal
  generalize parse text ordinal = d at hfield hordinal
  obtain ⟨_, _, _, _, _⟩ := d
  rw [reading, ← hfield .title, ← hfield .author, ← hfield .bib, ← hfield .content, ← hordinal]
  rfl

/-- A field that is present has a text, which is trimmed and stands on one line. -/
theorem of_text?_parse {text s : String} {ordinal : Nat} {f : TextField}
    (h : (parse text ordinal).text? f = some s) :
    s ≠ "" ∧ trim s.toList = s.toList ∧ '\n' ∉ s.toList := by
  rw [text?_parse_eq_value] at h
  obtain ⟨segment, hsegment, hvalue⟩ := Option.bind_eq_some_iff.mp h
  have hlines : ∀ line ∈ segment, ink line ≠ [] ∧ '\n' ∉ line := fun line =>
    of_mem_segment (mem_segments_of_segment? hsegment)
  have hne : segment ≠ [] := by
    rintro rfl
    cases hvalue
  obtain ⟨hvalue', htrim⟩ := value_of_ne_nil hne fun line hline => (hlines line hline).1
  obtain rfl := Option.some.inj (hvalue'.symm.trans hvalue)
  rw [String.toList_ofList]
  refine ⟨fun hempty => htrim ?_, trim_trim _, fun hfeed => ?_⟩
  · simpa using congrArg String.toList hempty
  · -- what is joined by spaces has only the line feeds of the lines
    have hflat : '\n' ∈ ' ' :: [' '].intercalate segment :=
      List.mem_cons_of_mem _ (mem_of_mem_trim hfeed)
    obtain ⟨line, rest, rfl⟩ := List.exists_cons_of_ne_nil hne
    rw [← flatMap_space, List.mem_flatMap] at hflat
    obtain ⟨l, hl, hmem⟩ := hflat
    exact (hlines l hl).2 ((List.mem_cons.mp hmem).resolve_left (by decide))

/-! ## where the lines go -/

/-- The field whose segment a marker closes. -/
def fieldOf (marker : List Char) : TextField :=
  if marker = ['.', 'A'] then .title else if marker = ['.', 'B'] then .author else .bib

/-- The lines of a field. -/
def linesOf (ls : List (List Char)) (f : TextField) : List (List Char) := (segment? ls f).getD []

theorem of_isClosing {marker : List Char} (h : isClosing marker = true) :
    marker = ['.', 'A'] ∨ marker = ['.', 'B'] ∨ marker = ['.', 'W'] := by
  simpa [isClosing, or_assoc] using h

theorem segment?_fieldOf {marker : List Char} (h : isClosing marker = true)
    (ls : List (List Char)) : segment? ls (fieldOf marker) = closedBy marker ls := by
  obtain rfl | rfl | rfl := of_isClosing h <;> rfl

theorem fieldOf_injective {marker marker' : List Char} (h : isClosing marker = true)
    (h' : isClosing marker' = true) (heq : fieldOf marker = fieldOf marker') :
    marker = marker' := by
  obtain rfl | rfl | rfl := of_isClosing h <;> obtain rfl | rfl | rfl := of_isClosing h' <;>
    first | rfl | cases heq

theorem fieldOf_ne_content (marker : List Char) : fieldOf marker ≠ .content := by
  unfold fieldOf
  split
  · exact TextField.noConfusion
  · split <;> exact TextField.noConfusion

/-- A field whose marker does not occur has no lines. -/
theorem linesOf_of_not_mem {ls : List (List Char)} {f : TextField} (hf : f ≠ .content)
    (h : f ∉ (closings ls).map fieldOf) : linesOf ls f = [] := by
  have hnone : ∀ marker, fieldOf marker = f → closedBy marker ls = none := by
    rintro marker rfl
    rw [closedBy, Option.map_eq_none_iff, List.getLast?_eq_none_iff, List.filter_eq_nil_iff]
    rintro ⟨segment, x⟩ hpair heq
    obtain rfl : x = marker := by simpa using heq
    exact h (List.mem_map_of_mem (List.of_mem_zip hpair).2)
  cases f with
  | title => exact congrArg (Option.getD · []) (hnone ['.', 'A'] rfl)
  | author => exact congrArg (Option.getD · []) (hnone ['.', 'B'] rfl)
  | bib => exact congrArg (Option.getD · []) (hnone ['.', 'W'] rfl)
  | content => exact absurd rfl hf

/-- Where no marker is repeated each one closes the segment before it for good. -/
theorem closedBy_getElem {ls : List (List Char)} (hnodup : (closings ls).Nodup)
    {front : List (List (List Char))} {last : List (List Char)} (h : segments ls = front ++ [last])
    (hlength : front.length = (closings ls).length) {i : Nat} (hi : i < (closings ls).length) :
    closedBy (closings ls)[i] ls = some front[i] := by
  have hmarkers : ((front.zip (closings ls)).map Prod.snd).Nodup := by
    rwa [List.map_snd_zip (Nat.le_of_eq hlength.symm)]
  have hpair : (front[i], (closings ls)[i]) ∈ front.zip (closings ls) := by
    refine List.mem_iff_getElem.mpr ⟨i, by simpa [hlength] using hi, List.getElem_zip⟩
  rw [closedBy, zip_closings h hlength]
  cases hlast : ((front.zip (closings ls)).filter (·.2 = (closings ls)[i])).getLast? with
  | none =>
      rw [List.getLast?_eq_none_iff, List.filter_eq_nil_iff] at hlast
      exact absurd (decide_eq_true rfl) (hlast _ hpair)
  | some pair =>
      obtain ⟨hmem, hmarker⟩ := List.mem_filter.mp (List.mem_of_getLast? hlast)
      obtain rfl := List.inj_on_of_nodup_map hmarkers hmem hpair (of_decide_eq_true hmarker)
      rfl

/-- The fields that are not among some that are closed. -/
def unclosed (fields : List TextField) : List TextField :=
  [.title, .author, .bib].filter (· ∉ fields)

theorem of_mem_unclosed {fields : List TextField} {f : TextField} (h : f ∈ unclosed fields) :
    f ≠ .content ∧ f ∉ fields := by
  obtain ⟨hmem, hnot⟩ := List.mem_filter.mp h
  refine ⟨?_, by simpa using hnot⟩
  rintro rfl
  exact absurd hmem (by decide)

/-- With those that are not closed and the content, fields that are closed are all there are. -/
theorem perm_all {fields : List TextField} (hnodup : fields.Nodup)
    (hcontent : TextField.content ∉ fields) :
    (unclosed fields ++ (fields ++ [TextField.content])).Perm TextField.all := by
  have hdistinct : (unclosed fields ++ (fields ++ [TextField.content])).Nodup := by
    refine List.nodup_append.mpr ⟨List.Nodup.filter _ (by decide),
      List.nodup_append.mpr ⟨hnodup, List.nodup_singleton _, ?_⟩, ?_⟩
    · rintro f hf _ hg rfl
      rw [List.mem_singleton.mp hg] at hf
      exact hcontent hf
    · rintro f hf _ hg rfl
      obtain hg | hg := List.mem_append.mp hg
      · exact (of_mem_unclosed hf).2 hg
      · exact (of_mem_unclosed hf).1 (List.mem_singleton.mp hg)
  refine (List.perm_ext_iff_of_nodup hdistinct (by decide)).mpr fun f =>
    ⟨fun _ => f.mem_all, fun _ => ?_⟩
  by_cases hf : f ∈ fields
  · simp [hf]
  · cases f <;> simp [unclosed, hf]

/-- Where no marker is repeated the four fields have all ordinary lines, each of them once: the
fields whose markers occur in the order of the markers, and then the content. -/
theorem exists_order {ls : List (List Char)} (hnodup : (closings ls).Nodup) :
    ∃ order : List TextField,
      order.Perm TextField.all ∧ order.flatMap (linesOf ls) = ordinary ls := by
  obtain ⟨front, last, hsegments, hlength, -⟩ := exists_segments ls
  have hclosing : ∀ marker ∈ closings ls, isClosing marker = true := fun marker hmarker =>
    (List.mem_filter.mp hmarker).2
  have hclosed : ((closings ls).map fieldOf).map (linesOf ls) = front := by
    refine List.ext_getElem (by simp [hlength]) fun i hi hi' => ?_
    have hlt : i < (closings ls).length := by simpa using hi
    rw [List.getElem_map, List.getElem_map, linesOf,
      segment?_fieldOf (hclosing _ (List.getElem_mem hlt)),
      closedBy_getElem hnodup hsegments hlength]
    rfl
  have hlast : linesOf ls .content = last := by
    rw [linesOf, segment?, hsegments, List.getLast?_concat, Option.getD_some]
  have hfields : ((closings ls).map fieldOf).Nodup :=
    hnodup.map_on fun _ hm _ hm' => fieldOf_injective (hclosing _ hm) (hclosing _ hm')
  have hcontent : TextField.content ∉ (closings ls).map fieldOf := fun hmem => by
    obtain ⟨marker, -, hmarker⟩ := List.mem_map.mp hmem
    exact fieldOf_ne_content marker hmarker
  have hnone : (unclosed ((closings ls).map fieldOf)).flatMap (linesOf ls) = [] :=
    List.flatMap_eq_nil_iff.mpr fun f hf =>
      linesOf_of_not_mem (of_mem_unclosed hf).1 (of_mem_unclosed hf).2
  refine ⟨_, perm_all hfields hcontent, ?_⟩
  rw [List.flatMap_append, hnone, List.nil_append, List.flatMap_append, List.flatMap_def, hclosed,
    ← flatten_segments, hsegments, ← hlast]
  simp

/-- A field has what is not blank in its lines. -/
theorem ink_text?_parse (text : String) (ordinal : Nat) (f : TextField) :
    ink (((parse text ordinal).text? f).getD "").toList = ink (linesOf (kept text) f).flatten := by
  rw [text?_parse_eq_value, linesOf]
  cases segment? (kept text) f with
  | none => rfl
  | some segment =>
      cases segment with
      | nil => rfl
      | cons line rest =>
          show ink (String.ofList (trim ([' '].intercalate (line :: rest)))).toList = _
          rw [String.toList_ofList, ink_trim, ink_intercalate]
          rfl

theorem ink_flatMap {α : Type} (xs : List α) (f : α → List (List Char)) :
    ink (xs.flatMap f).flatten = xs.flatMap fun x => ink (f x).flatten := by
  induction xs with
  | nil => rfl
  | cons x xs ih =>
      rw [List.flatMap_cons, List.flatMap_cons, List.flatten_append, ink_append, ih]

/-- **Documents with markers**: the reader reads a text as its segments say.  A field that is
present has a text, which is trimmed and stands on one line.  Where no marker is repeated every
ordinary line goes to one field and the lines of a field keep their order, so that no text is lost
and none is duplicated. -/
theorem parse_closed (text : String) (ordinal : Nat) :
    parse text ordinal = reading text ordinal ∧
      (∀ f s, (parse text ordinal).text? f = some s →
        s ≠ "" ∧ trim s.toList = s.toList ∧ '\n' ∉ s.toList) ∧
      ((closings (kept text)).Nodup →
        ∃ order : List TextField, order.Perm TextField.all ∧
          order.flatMap (linesOf (kept text)) = ordinary (kept text) ∧
          (order.flatMap fun f => ink (((parse text ordinal).text? f).getD "").toList) =
            ink (ordinary (kept text)).flatten) := by
  refine ⟨parse_eq_reading text ordinal, fun f s => of_text?_parse, fun hnodup => ?_⟩
  obtain ⟨order, hperm, hlines⟩ := exists_order hnodup
  refine ⟨order, hperm, hlines, ?_⟩
  rw [← hlines, ink_flatMap]
  exact List.flatMap_congr fun f _ => ink_text?_parse text ordinal f

/-- A text without an author whose markers stand in another order, with a marker that is indented
and with blanks at the ends of lines. -/
def outOfOrder : String := ".T\n one\r\n .A\n.W\n\ntwo \nthree\n.A\nfour"

theorem parse_closed_outOfOrder :
    parse outOfOrder 0 = ⟨0, some "two three", none, some "one  .A", some "four"⟩ ∧
      trim "two three".toList = "two three".toList ∧
      ∃ order : List TextField, order.Perm TextField.all ∧
        order.flatMap (linesOf (kept outOfOrder)) =
          [" one", " .A", "two", "three", "four"].map String.toList := by
  obtain ⟨hreading, htrimmed, horder⟩ := parse_closed outOfOrder 0
  have hparse : parse outOfOrder 0 = ⟨0, some "two three", none, some "one  .A", some "four"⟩ :=
    hreading.trans (by decide)
  obtain ⟨order, hperm, hlines, -⟩ := horder (by decide)
  refine ⟨hparse, (htrimmed .title "two three" (by rw [hparse]; rfl)).2.1, order, hperm, ?_⟩
  rw [hlines]
  decide

end Concordance.Markup
