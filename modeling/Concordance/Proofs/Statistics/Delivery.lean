import Concordance.Proofs.Files.Changes
import Concordance.Proofs.Files.Text
import Concordance.Proofs.Workspace
import Concordance.Statistics.Report

/-!
# Concordance.Proofs.Statistics.Delivery

What a report delivers.  Bytes on their way to a destination are in its file or wait, and together
they are what was sent so far; a report that says it has written has nothing waiting.  A destination
without room breaks the writing off at some point, and then its file holds what there was room for.

* `Tree.append_ok_iff`, `Tree.append_error` — what a write to an open file leaves;
* `Carries`, `Breaks` — a destination that was sent bytes, and one that failed;
* `delivery` — console and destination at the end of a report.
-/

namespace Concordance

/-! ## open files -/

namespace Files.Tree

variable {t u v : Tree} {place : Place} {path : String} {bytes : List UInt8}

/-- The bytes that a place holds. -/
def contentAt (t : Tree) (place : Place) : List UInt8 :=
  match t.node? place with
  | some (.file content _) => content
  | _ => []

/-- How many bytes a place can hold, where that is limited. -/
def roomAt (t : Tree) (place : Place) : Option Nat :=
  match t.node? place with
  | some (.file _ room) => room
  | _ => some 0

/-- Whether a place takes a number of bytes more. -/
def Takes (t : Tree) (place : Place) (n : Nat) : Prop :=
  match t.node? place with
  | some (.file _ none) => True
  | some (.file content (some room)) => content.length + n ≤ room
  | some .fullDevice => n = 0
  | _ => False

/-- A tree is another one with bytes written to an open file. -/
structure Fills (u t : Tree) (place : Place) : Prop where
  alters : Alters u t place
  node : ∃ node, t.node? place = some node ∧ node ≠ .folder
  room : t.roomAt place = u.roomAt place

theorem Takes.mono {m n : Nat} (h : t.Takes place n) (hle : m ≤ n) : t.Takes place m := by
  unfold Takes at *
  grind

/-- What a write that succeeds leaves, and that it does so where there is room. -/
theorem append_ok_iff (t : Tree) (place : Place) (bytes : List UInt8) :
    (t.append place bytes).2 = .ok () ↔ t.Takes place bytes.length := by
  unfold append Takes
  grind

theorem append_takes (h : t.append place bytes = (u, .ok ())) :
    u.contentAt place = t.contentAt place ++ bytes ∧
      ∀ n, u.Takes place n ↔ t.Takes place (bytes.length + n) := by
  unfold append at h
  unfold contentAt Takes
  grind [node?_put, List.take_of_length_le, List.isEmpty_iff]

/-- A write that fails leaves what there is room for. -/
theorem append_error {e : Refusal} (h : t.append place bytes = (u, .error e)) :
    ∃ room, t.roomAt place = some room ∧ room ≤ (t.contentAt place ++ bytes).length ∧
      u.contentAt place = (t.contentAt place ++ bytes).take room := by
  unfold append at h
  unfold contentAt roomAt
  rcases hnode : t.node? place with _ | _ | ⟨content, _ | room⟩ | _ | _ <;> rw [hnode] at h <;>
    grind [node?_put]

theorem append_fills (h : Fills u t place) (bytes : List UInt8) :
    Fills u (t.append place bytes).1 place := by
  obtain ⟨halters, ⟨node, hnode, hfolder⟩, hroom⟩ := h
  refine ⟨halters.trans (append_alters t place bytes), ?_, hroom ▸ ?_⟩
  · unfold append
    grind [node?_put]
  · unfold append roomAt
    rcases hnode : t.node? place with _ | _ | ⟨content, _ | room⟩ | _ | _ <;> grind [node?_put]

/-- What was created is open and empty, and its path does not ask for a folder. -/
theorem create_fills (h : t.create path = .ok (place, u)) :
    demandsFolder path = false ∧ Fills u u place ∧ u.contentAt place = [] := by
  obtain ⟨node, hspot, -, -⟩ := create_ok h
  obtain ⟨-, hnode, hslash⟩ := resolve_eq_ok_iff.mp hspot
  have hopen : ∀ {n : Node}, u.node? place = some n → n ≠ .folder → Fills u u place :=
    fun hn hfolder => ⟨.refl u place, ⟨_, hn, hfolder⟩, rfl⟩
  unfold create at h
  rw [hspot] at h
  unfold contentAt
  rcases node with _ | _ | ⟨content, room⟩ | target | _
  all_goals
    dsimp only at h hnode hslash
    grind [node?_put]

/-- The bytes of a file that was created and written to. -/
theorem readBytes_of_fills (h : t.create path = .ok (place, u)) (hfills : Fills u v place) :
    v.readBytes path = .ok (v.contentAt place) := by
  obtain ⟨hslash, -, -⟩ := create_fills h
  obtain ⟨node, hspot, halters, -⟩ := create_ok h
  have hread := resolve_grows (halters.trans hfills.alters).grows hspot hslash
  obtain ⟨node, hnode, hfolder⟩ := hfills.node
  unfold readBytes contentAt
  rw [hread, hnode]
  rcases node with _ | ⟨content, room⟩ | target | _
  · exact absurd rfl hfolder
  · rfl
  · rfl
  · rfl

end Files.Tree

/-! ## destinations -/

namespace Statistics

open Files
open Files.Tree (Fills bytesOf)

variable {path : String} {place : Place} {u t : Tree} {sent : List UInt8}

/-- A destination that was opened in a tree `u` has been sent bytes: they are in its file or wait,
and there is room for as many more as there was room for behind them. -/
structure Carries (path : String) (place : Place) (u : Tree) (sent : List UInt8) (t : Tree)
    (d : Destination) : Prop where
  path_eq : d.path = path
  place_eq : d.place = place
  fills : Fills u t place
  content : t.contentAt place ++ d.waiting = sent
  takes : ∀ n, t.Takes place (d.waiting.length + n) ↔ u.Takes place (sent.length + n)

/-- A destination that was opened in a tree `u` has failed after it was sent bytes, for which there
was no room. -/
structure Breaks (path : String) (place : Place) (u : Tree) (sent : List UInt8) (t : Tree)
    (e : Fault) : Prop where
  fault : ∃ cause, e = .request (.reportNotWritten path cause)
  fills : Fills u t place
  full : ¬u.Takes place sent.length
  content : ∃ room, u.roomAt place = some room ∧ room ≤ sent.length ∧
    t.contentAt place = sent.take room

/-- What a step leaves after which a destination was sent bytes. -/
structure Sends (path : String) (place : Place) (u : Tree) (sent : List UInt8)
    (r : Tree × Except Fault Destination) : Prop where
  ok : ∀ d, r.2 = .ok d → Carries path place u sent r.1 d
  error : ∀ e, r.2 = .error e → Breaks path place u sent r.1 e

/-- A destination without room for some bytes has none for more. -/
theorem Breaks.append {e : Fault} (h : Breaks path place u sent t e) (more : List UInt8) :
    Breaks path place u (sent ++ more) t e where
  fault := h.fault
  fills := h.fills
  full htakes := h.full (htakes.mono (by simp))
  content := by
    obtain ⟨room, hroom, hle, hcontent⟩ := h.content
    refine ⟨room, hroom, by simp; omega, ?_⟩
    rw [hcontent, List.take_append_of_le_length hle]

namespace Sends

theorem of_carries {d : Destination} (h : Carries path place u sent t d) :
    Sends path place u sent (t, .ok d) where
  ok d' hd := by
    obtain rfl := Except.ok.inj hd
    exact h
  error e he := by cases he

theorem of_breaks {e : Fault} (h : Breaks path place u sent t e) :
    Sends path place u sent (t, .error e) where
  ok d hd := by cases hd
  error e' he := by
    obtain rfl := Except.error.inj he
    exact h

/-- One step after another. -/
theorem bind {r : Tree × Except Fault Destination}
    {next : Tree → Destination → Tree × Except Fault Destination} {more : List UInt8} :
    Sends path place u sent r →
    (∀ t d, Carries path place u sent t d → Sends path place u (sent ++ more) (next t d)) →
    Sends path place u (sent ++ more)
      (match r with
      | (t, .error e) => (t, .error e)
      | (t, .ok d) => next t d) := by
  intro h hnext
  rcases r with ⟨t, e | d⟩
  · exact of_breaks ((h.error e rfl).append more)
  · exact hnext t d (h.ok d rfl)

end Sends

namespace Carries

variable {d : Destination} (h : Carries path place u sent t d)
include h

/-- Bytes that wait were sent. -/
theorem wait (bytes : List UInt8) :
    Carries path place u (sent ++ bytes) t { d with waiting := d.waiting ++ bytes } where
  path_eq := h.path_eq
  place_eq := h.place_eq
  fills := h.fills
  content := by rw [← h.content, List.append_assoc]
  takes n := by
    rw [List.length_append, List.length_append, Nat.add_assoc, Nat.add_assoc]
    exact h.takes (bytes.length + n)

theorem flush : Sends path place u sent (d.flush t) := by
  have hfills := Tree.append_fills h.fills d.waiting
  have hroom : t.Takes place d.waiting.length ↔ u.Takes place sent.length := h.takes 0
  rw [← Tree.append_ok_iff] at hroom
  unfold Destination.flush
  rw [h.place_eq]
  rcases happend : t.append place d.waiting with ⟨v, e | _⟩
  · rw [happend] at hfills hroom
    obtain ⟨room, hr, hle, hcontent⟩ := Tree.append_error happend
    rw [h.fills.room] at hr
    rw [h.content] at hle hcontent
    have hfull : ¬u.Takes place sent.length := fun htakes => by cases hroom.mpr htakes
    have hfault : d.fault e = .request (.reportNotWritten path e) := by
      rw [Destination.fault, h.path_eq]
    exact .of_breaks ⟨⟨e, hfault⟩, hfills, hfull, room, hr, hle, hcontent⟩
  · rw [happend] at hfills
    obtain ⟨hcontent, hmore⟩ := Tree.append_takes happend
    refine .of_carries ⟨h.path_eq, rfl, hfills, ?_, fun n => ?_⟩
    · rw [hcontent, List.append_nil, h.content]
    · rw [List.length_nil, Nat.zero_add, hmore, h.takes]

theorem write (bytes : List UInt8) : Sends path place u (sent ++ bytes) (d.write t bytes) := by
  have hflushed : Sends path place u sent
      (if bufferSize < d.waiting.length + bytes.length then d.flush t else (t, .ok d)) := by
    split
    · exact h.flush
    · exact .of_carries h
  refine hflushed.bind fun v d' hd => ?_
  dsimp only
  split
  · exact (hd.wait bytes).flush
  · exact .of_carries (hd.wait bytes)

theorem writeLine (line : String) :
    Sends path place u (sent ++ bytesOf (line ++ "\n")) (d.writeLine t line) := by
  rw [Tree.bytesOf_append, ← List.append_assoc]
  exact (h.write (bytesOf line)).bind fun v d' hd => hd.write (bytesOf "\n")

end Carries

/-! ## lines -/

/-- Lines as text. -/
def textOf (lines : List String) : String := String.join (lines.map (· ++ "\n"))

@[simp] theorem textOf_nil : textOf [] = "" := rfl

@[simp] theorem textOf_cons (line : String) (lines : List String) :
    textOf (line :: lines) = line ++ "\n" ++ textOf lines := by
  rw [textOf, List.map_cons, String.join_cons, textOf]

theorem textOf_append (xs ys : List String) : textOf (xs ++ ys) = textOf xs ++ textOf ys := by
  induction xs with
  | nil => rw [textOf_nil, String.empty_append, List.nil_append]
  | cons line rest ih =>
      rw [List.cons_append, textOf_cons, textOf_cons, ih]
      simp only [String.append_assoc]

/-- A console that takes everything, after some text. -/
def endless (text : String) : Console := { text := text }

theorem print_endless (text line : String) :
    (endless text).print line = (endless (text ++ line), .ok ()) := rfl

/-- Without a destination lines are printed, as far as the console takes them. -/
theorem writeLines_none (console : Console) (t : Tree) (lines : List String) :
    writeLines console t none lines =
      match console.print (textOf lines) with
      | (console, .ok ()) => (console, t, .ok none)
      | (console, .error e) => (console, t, .error (.files e)) := by
  induction lines generalizing console with
  | nil => rw [textOf_nil, Console.print_empty, writeLines]
  | cons line lines ih =>
      rw [writeLines, textOf_cons, Console.print_append _ (line ++ "\n")]
      rcases console.print (line ++ "\n") with ⟨console, e | _⟩
      · rfl
      · exact ih console

theorem reportLines_none (console : Console) (t : Tree) (lines : List String) (entries : Nat) :
    reportLines console t none lines entries =
      match console.print (textOf lines) with
      | (console, .ok ()) => ⟨console, t, .ok (.written entries)⟩
      | (console, .error e) => ⟨console, t, .error (.files e)⟩ := by
  rw [reportLines, writeLines_none]
  rcases console.print (textOf lines) with ⟨console, e | _⟩ <;> rfl

/-- Lines that are written to a destination are all sent, or it fails behind one of them, which the
console has got. -/
theorem Carries.writeLines {d : Destination} (h : Carries path place u sent t d) (text : String)
    (lines : List String) :
    (∃ v d', writeLines (endless text) t (some d) lines =
        (endless (text ++ textOf lines), v, .ok (some d')) ∧
      Carries path place u (sent ++ bytesOf (textOf lines)) v d') ∨
    ∃ n v e, writeLines (endless text) t (some d) lines =
        (endless (text ++ textOf (lines.take n)), v, .error e) ∧
      Breaks path place u (sent ++ bytesOf (textOf (lines.take n))) v e := by
  induction lines generalizing text sent t d with
  | nil =>
      refine .inl ⟨t, d, by simp [Statistics.writeLines], ?_⟩
      have hnone : bytesOf (textOf []) = [] := rfl
      rwa [hnone, List.append_nil]
  | cons line lines ih =>
      have hline := h.writeLine line
      unfold Statistics.writeLines
      rw [print_endless]
      dsimp only
      rcases hwrite : d.writeLine t line with ⟨v, e | d'⟩
      · rw [hwrite] at hline
        refine .inr ⟨1, v, e, by simp, ?_⟩
        simpa using hline.error e rfl
      · rw [hwrite] at hline
        have hnext := ih (hline.ok d' rfl) (text ++ (line ++ "\n"))
        have hsent : ∀ rest : List String, sent ++ bytesOf (textOf (line :: rest)) =
            sent ++ bytesOf (line ++ "\n") ++ bytesOf (textOf rest) := fun rest => by
          rw [textOf_cons, Tree.bytesOf_append, List.append_assoc]
        have hconsole : ∀ rest : List String, text ++ textOf (line :: rest) =
            text ++ (line ++ "\n") ++ textOf rest := fun rest => by
          simp [String.append_assoc]
        obtain ⟨w, d'', hrun, hcarries⟩ | ⟨n, w, e, hrun, hbreaks⟩ := hnext
        · refine .inl ⟨w, d'', ?_, ?_⟩
          · rw [hconsole]
            exact hrun
          · rw [hsent]
            exact hcarries
        · refine .inr ⟨n + 1, w, e, ?_, ?_⟩
          · rw [List.take_succ_cons, hconsole]
            exact hrun
          · rw [List.take_succ_cons, hsent]
            exact hbreaks

/-- Nothing waits after all was written, and there was room for what waited. -/
theorem flush_ok {d d' : Destination} {v : Tree} (h : d.flush t = (v, .ok d')) :
    d'.waiting = [] ∧ (t.append d.place d.waiting).2 = .ok () := by
  unfold Destination.flush at h
  split at h
  · next happend =>
    cases h
    exact ⟨rfl, congrArg Prod.snd happend⟩
  · cases h

/-- A report whose lines were all sent has nothing waiting. -/
theorem Carries.reportLines {d : Destination} (h : Carries path place u [] t d)
    (text : String) (lines : List String) (entries : Nat) :
    (∃ v, reportLines (endless text) t (some d) lines entries =
        ⟨endless (text ++ textOf lines), v, .ok (.written entries)⟩ ∧
      Fills u v place ∧ v.contentAt place = bytesOf (textOf lines) ∧
      u.Takes place (bytesOf (textOf lines)).length) ∨
    ∃ n v e, reportLines (endless text) t (some d) lines entries =
        ⟨endless (text ++ textOf (lines.take n)), v, .error e⟩ ∧
      Breaks path place u (bytesOf (textOf (lines.take n))) v e := by
  have hlines := h.writeLines text lines
  simp only [List.nil_append] at hlines
  unfold Statistics.reportLines
  obtain ⟨v, d', hrun, hcarries⟩ | ⟨n, v, e, hrun, hbreaks⟩ := hlines
  · have hlast := hcarries.flush
    rw [hrun]
    dsimp only [finish]
    rcases hflush : d'.flush v with ⟨w, e | d''⟩
    · rw [hflush] at hlast
      refine .inr ⟨lines.length, w, e, ?_, ?_⟩
      · rw [List.take_length]
      · rw [List.take_length]
        exact hlast.error e rfl
    · rw [hflush] at hlast
      obtain ⟨hwaiting, happend⟩ := flush_ok hflush
      have hdone := hlast.ok d'' rfl
      have hcontent := hdone.content
      rw [hwaiting, List.append_nil] at hcontent
      rw [hcarries.place_eq, Tree.append_ok_iff] at happend
      exact .inl ⟨w, rfl, hdone.fills, hcontent, (hcarries.takes 0).mp happend⟩
  · rw [hrun]
    exact .inr ⟨n, v, e, rfl, hbreaks⟩

/-! ## reports -/

namespace Request

/-- The entries that have a line, unless the term is not in the table. -/
def entries? (table : Table) : Request → Option (List Entry)
  | .one term => (table.lookup term).map ([·])
  | .mostFrequent n => some (table.top n)
  | .all => some table.entries

/-- The lines of entries; those of several entries have a header. -/
def lines (es : List Entry) : Request → List String
  | .one _ => es.map entryLine
  | _ => header :: es.map entryLine

variable {table : Table} {destination : Option String} {request : Request}

theorem report_of_error {v : Tree} {e : Fault}
    (h : Destination.start t destination = (v, .error e)) (request : Request) (console : Console) :
    request.report table console t destination = ⟨console, v, .error e⟩ := by
  cases request <;> simp only [report, reportTerm, reportMostFrequent, reportTable, reportRows, h]

theorem report_of_some {v : Tree} {d : Option Destination} {es : List Entry}
    (h : Destination.start t destination = (v, .ok d)) (hes : request.entries? table = some es)
    (console : Console) : request.report table console t destination =
      reportLines console v d (request.lines es) es.length := by
  cases request with
  | one term =>
      obtain ⟨e, he, rfl⟩ := Option.map_eq_some_iff.mp hes
      simp only [report, reportTerm, h, he]
      rfl
  | mostFrequent n =>
      obtain rfl := Option.some.inj hes
      simp only [report, reportMostFrequent, reportRows, h, lines]
  | all =>
      obtain rfl := Option.some.inj hes
      simp only [report, reportTable, reportRows, h, lines]

theorem report_of_none {v : Tree} {d : Option Destination}
    (h : Destination.start t destination = (v, .ok d)) (hes : request.entries? table = none)
    (console : Console) :
    ∃ term, request = .one term ∧ table.lookup term = none ∧
      request.report table console t destination =
        match console.print (absentLine term ++ "\n") with
        | (console, .ok ()) => ⟨console, v, .ok (.termNotFound term)⟩
        | (console, .error e) => ⟨console, v, .error (.files e)⟩ := by
  cases request with
  | one term =>
      have hlookup : table.lookup term = none := Option.map_eq_none_iff.mp hes
      refine ⟨term, rfl, hlookup, ?_⟩
      simp only [report, reportTerm, h, hlookup]
      rcases console.print (absentLine term ++ "\n") with ⟨console, e | _⟩ <;> rfl
  | mostFrequent n => cases hes
  | all => cases hes

end Request

/-- What a report has done, by how it ended, and which way it ends.  The console takes everything,
and has got some text before. -/
structure Delivers (table : Table) (request : Request) (text : String) (t : Tree)
    (destination : Option String) (r : Reported) : Prop where
  /-- What was written is complete, on the console and at the destination. -/
  written : ∀ k, r.outcome = .ok (.written k) →
    ∃ es, request.entries? table = some es ∧ k = es.length ∧
      r.console = endless (text ++ textOf (request.lines es)) ∧
      ∀ path, destination = some path →
        r.files.readBytes path = .ok (bytesOf (textOf (request.lines es)))
  /-- That a term is absent is said on the console only. -/
  absent : ∀ term, r.outcome = .ok (.termNotFound term) →
    request = .one term ∧ table.lookup term = none ∧
      r.console = endless (text ++ (absentLine term ++ "\n")) ∧
      ∀ path, destination = some path → r.files.readBytes path = .ok []
  /-- Only a destination fails: it cannot be opened, and nothing has happened, or it has no room for
  the report.  Then it holds what it has room for, and the console has got that and ends with a
  line. -/
  failed : ∀ e, r.outcome = .error e → ∃ path, destination = some path ∧
    ((∃ cause, t.create path = .error cause ∧ e = .request (.reportNotOpened path cause) ∧
        r.console = endless text ∧ r.files = t) ∨
      ∃ place u room es n cause, t.create path = .ok (place, u) ∧ u.roomAt place = some room ∧
        request.entries? table = some es ∧ e = .request (.reportNotWritten path cause) ∧
        r.console = endless (text ++ textOf ((request.lines es).take n)) ∧
        r.files.readBytes path = .ok ((bytesOf (textOf (request.lines es))).take room) ∧
        (bytesOf (textOf (request.lines es))).take room <+:
          bytesOf (textOf ((request.lines es).take n)))
  /-- A destination that cannot be opened is an error. -/
  unopened : ∀ path cause, destination = some path → t.create path = .error cause →
    r.outcome = .error (.request (.reportNotOpened path cause))
  /-- Lines are written exactly if their destination can be opened and has room for all of them. -/
  room : ∀ es, request.entries? table = some es →
    ((∃ k, r.outcome = .ok (.written k)) ↔ ∀ path, destination = some path →
      ∃ place u, t.create path = .ok (place, u) ∧
        u.Takes place (bytesOf (textOf (request.lines es))).length)

variable {table : Table} {request : Request} {text : String} {destination : Option String}

namespace Delivers

variable {v : Tree} {es : List Entry}

theorem of_absent {term : String} (hlookup : table.lookup term = none)
    (h : ∀ path, destination = some path →
      (∃ r, t.create path = .ok r) ∧ v.readBytes path = .ok []) :
    Delivers table (.one term) text t destination
      ⟨endless (text ++ (absentLine term ++ "\n")), v, .ok (.termNotFound term)⟩ where
  written k hk := by simp at hk
  absent term' hterm := by
    obtain rfl := Outcome.termNotFound.inj (Except.ok.inj hterm)
    exact ⟨rfl, hlookup, rfl, fun path hpath => (h path hpath).2⟩
  failed e he := by simp at he
  unopened path cause hpath herror := by
    obtain ⟨⟨r, hr⟩, -⟩ := h path hpath
    simp [hr] at herror
  room es hes := by simp [Request.entries?, hlookup] at hes

theorem of_written (hes : request.entries? table = some es)
    (h : ∀ path, destination = some path →
      ∃ place u, t.create path = .ok (place, u) ∧
        u.Takes place (bytesOf (textOf (request.lines es))).length ∧
        v.readBytes path = .ok (bytesOf (textOf (request.lines es)))) :
    Delivers table request text t destination
      ⟨endless (text ++ textOf (request.lines es)), v, .ok (.written es.length)⟩ where
  written k hk := by
    obtain rfl := Outcome.written.inj (Except.ok.inj hk)
    refine ⟨es, hes, rfl, rfl, fun path hpath => ?_⟩
    obtain ⟨place, u, -, -, hread⟩ := h path hpath
    exact hread
  absent term hterm := by simp at hterm
  failed e he := by simp at he
  unopened path cause hpath herror := by
    obtain ⟨place, u, hcreate, -, -⟩ := h path hpath
    simp [hcreate] at herror
  room es' hes' := by
    obtain rfl := Option.some.inj (hes.symm.trans hes')
    refine ⟨fun _ path hpath => ?_, fun _ => ⟨_, rfl⟩⟩
    obtain ⟨place, u, hcreate, htakes, -⟩ := h path hpath
    exact ⟨place, u, hcreate, htakes⟩

theorem of_unopened {cause : Refusal} (h : t.create path = .error cause) :
    Delivers table request text t (some path)
      ⟨endless text, t, .error (.request (.reportNotOpened path cause))⟩ where
  written k hk := by simp at hk
  absent term hterm := by simp at hterm
  failed e he := ⟨path, rfl, .inl ⟨cause, h, (Except.error.inj he).symm, rfl, rfl⟩⟩
  unopened path' cause' hpath herror := by
    obtain rfl := Option.some.inj hpath
    obtain rfl := Except.error.inj (h.symm.trans herror)
    rfl
  room es hes := by
    refine ⟨fun ⟨k, hk⟩ => by simp at hk, fun hopen => ?_⟩
    obtain ⟨place, u, hcreate, -⟩ := hopen path rfl
    simp [h] at hcreate

theorem of_breaks {e : Fault} {n : Nat} (h : t.create path = .ok (place, u))
    (hes : request.entries? table = some es)
    (hbreaks : Breaks path place u (bytesOf (textOf ((request.lines es).take n))) v e) :
    Delivers table request text t (some path)
      ⟨endless (text ++ textOf ((request.lines es).take n)), v, .error e⟩ := by
  have hsplit : bytesOf (textOf (request.lines es)) =
      bytesOf (textOf ((request.lines es).take n)) ++
        bytesOf (textOf ((request.lines es).drop n)) := by
    rw [← Tree.bytesOf_append, ← textOf_append, List.take_append_drop]
  refine ⟨fun k hk => by simp at hk, fun term hterm => by simp at hterm, fun e' he => ?_,
    fun path' cause hpath herror => ?_,
    fun es' hes' => ⟨fun ⟨k, hk⟩ => by simp at hk, fun hopen => ?_⟩⟩
  · obtain rfl := Except.error.inj he
    obtain ⟨cause, rfl⟩ := hbreaks.fault
    obtain ⟨room, hroom, hle, hcontent⟩ := hbreaks.content
    have htake : (bytesOf (textOf (request.lines es))).take room =
        (bytesOf (textOf ((request.lines es).take n))).take room := by
      rw [hsplit, List.take_append_of_le_length hle]
    refine ⟨path, rfl, .inr ⟨place, u, room, es, n, cause, h, hroom, hes, rfl, rfl, ?_, ?_⟩⟩
    · rw [Tree.readBytes_of_fills h hbreaks.fills, hcontent, htake]
    · rw [htake]
      exact List.take_prefix room _
  · obtain rfl := Option.some.inj hpath
    simp [h] at herror
  · -- what has no room for the lines up to the failure has none for all of them
    obtain rfl := Option.some.inj (hes.symm.trans hes')
    obtain ⟨place', u', hcreate, htakes⟩ := hopen path rfl
    obtain ⟨rfl, rfl⟩ := Prod.mk.inj (Except.ok.inj (h.symm.trans hcreate))
    have hwhole := hbreaks.append (bytesOf (textOf ((request.lines es).drop n)))
    rw [← hsplit] at hwhole
    exact absurd htakes hwhole.full

end Delivers

theorem delivers_none (table : Table) (request : Request) (text : String) (t : Tree) :
    Delivers table request text t none (request.report table (endless text) t none) := by
  have hstart : Destination.start t none = (t, .ok none) := rfl
  cases hes : request.entries? table with
  | none =>
      obtain ⟨term, rfl, hlookup, hreport⟩ := Request.report_of_none hstart hes (endless text)
      rw [hreport]
      exact .of_absent hlookup (by simp)
  | some es =>
      have hreport : request.report table (endless text) t none =
          ⟨endless (text ++ textOf (request.lines es)), t, .ok (.written es.length)⟩ := by
        rw [Request.report_of_some hstart hes, reportLines_none, print_endless]
      rw [hreport]
      exact .of_written hes (by simp)

theorem delivers_opened (table : Table) (request : Request) (text : String)
    (h : t.create path = .ok (place, u)) :
    Delivers table request text t (some path)
      (request.report table (endless text) t (some path)) := by
  obtain ⟨-, hfills, hempty⟩ := Tree.create_fills h
  have hstart : Destination.start t (some path) = (u, .ok (some ⟨path, place, []⟩)) := by
    rw [Destination.start, h]
  cases hes : request.entries? table with
  | none =>
      obtain ⟨term, rfl, hlookup, hreport⟩ := Request.report_of_none hstart hes (endless text)
      rw [hreport]
      refine .of_absent hlookup fun path' hpath => ?_
      obtain rfl := Option.some.inj hpath
      exact ⟨⟨_, h⟩, by rw [Tree.readBytes_of_fills h hfills, hempty]⟩
  | some es =>
      have hcarries : Carries path place u [] u ⟨path, place, []⟩ :=
        ⟨rfl, rfl, hfills, by rw [hempty]; rfl, fun n => .rfl⟩
      rw [Request.report_of_some hstart hes]
      obtain ⟨v, hreport, hv, hcontent, htakes⟩ | ⟨n, v, e, hreport, hbreaks⟩ :=
        hcarries.reportLines text (request.lines es) es.length
      · rw [hreport]
        refine .of_written hes fun path' hpath => ?_
        obtain rfl := Option.some.inj hpath
        exact ⟨place, u, h, htakes, by rw [Tree.readBytes_of_fills h hv, hcontent]⟩
      · rw [hreport]
        exact .of_breaks h hes hbreaks

/-- **Delivery of a report**: whatever is at its destination, a report that says it has written has
delivered every line to the console and to the destination, one of an absent term leaves the
destination empty, and any other ends with the error of its destination. -/
theorem delivery (table : Table) (request : Request) (text : String) (t : Tree)
    (destination : Option String) :
    Delivers table request text t destination
      (request.report table (endless text) t destination) := by
  cases destination with
  | none => exact delivers_none table request text t
  | some path =>
      cases hcreate : t.create path with
      | error cause =>
          have hstart : Destination.start t (some path) =
              (t, .error (.request (.reportNotOpened path cause))) := by
            rw [Destination.start, hcreate]
          rw [Request.report_of_error hstart]
          exact .of_unopened hcreate
      | ok opened => exact delivers_opened table request text hcreate

end Statistics

end Concordance
