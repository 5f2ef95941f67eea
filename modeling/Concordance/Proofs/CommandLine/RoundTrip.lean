import Concordance.Proofs.CommandLine.Carried
import Concordance.Proofs.Decimal.Numeral
import Mathlib.Tactic.Common

/-!
# Concordance.Proofs.CommandLine.RoundTrip

Arguments that are written as a command line are read from it.

`Told` says which parts before and after the name of the command tell which arguments: what all
commands have may stand on either side, a value that is the default may be left out, and a number
may have any numeral.  In which order the parts stand is left open, up to the order of the operands
and of the stop words.  A value in a word of its own must not begin with a dash.

* `Told.once`, `Told.isAllowed` — what tells arguments passes all checks;
* `Verb.command_of_gives`, `Told.ofItems_eq` — and its items stand for these arguments;
* `parse_written` — so the words of a line give the arguments back, however it is written.
-/

namespace Concordance.CommandLine

open Decimal

/-! ## what tells arguments -/

/-- The command that arguments are for. -/
def Command.verb : Command → Verb
  | .index _ => .index
  | .term _ => .term
  | .search _ => .search
  | .explain _ => .explain

/-- Whether values tell a number that may be left out: they are nothing, or one numeral of it. -/
def Numerals : Option Nat → List String → Prop
  | none, values => values = []
  | some n, values => ∃ numeral, Writes n numeral.toList ∧ values = [numeral]

/-- How often a flag is given for a command. -/
def Command.times : Command → Name → Nat
  | .index a, .regenerate => a.regenerate.toNat
  | .term a, .all => a.all.toNat
  | _, _ => 0

/-- Whether values of a name tell what a command is given. -/
def Command.Gives : Command → Name → List String → Prop
  | .index a, .heap, values => values = a.heap.toList
  | .index a, .stopWord, values => values = a.stopWords
  | .term a, .top, values => Numerals a.top values
  | .term a, .output, values => values = a.output.toList
  | .term a, .format, values => values = [a.format.name] ∨ values = [] ∧ a.format = .human
  | .search a, .parser, values => values = (a.parser.map Query.Style.name).toList
  | .search a, .limit, values => Numerals a.limit values
  | .explain a, .parser, values => values = (a.parser.map Query.Style.name).toList
  | _, _, values => values = []

/-- Whether operands tell what a command is given. -/
def Command.Operands : Command → List String → Prop
  | .index a, values => values = [a.corpus]
  | .term a, values => values = a.terms
  | .search a, values => values = [a.query]
  | .explain a, values => ∃ numeral, Writes a.document numeral.toList ∧ values = [numeral, a.query]

namespace Arguments

/-- How often a flag is given. -/
def times (a : Arguments) : Name → Nat
  | .verbose => a.verbosity
  | .quiet => a.quiet.toNat
  | name => a.command.times name

/-- Whether values of a name tell arguments. -/
def Gives (a : Arguments) : Name → List String → Prop
  | .config, values => values = a.config.toList
  | .index, values => values = a.index.toList
  | .field, values => values = a.field.toList
  | name, values => a.command.Gives name values

/-- Parts before and after the name of the command that tell arguments.  The flag that is counted
stands on one side only. -/
structure Told (a : Arguments) (before after : List Part) : Prop where
  shared : ∀ part ∈ before, ∃ name ∈ Level.sharedNames, part.name? = some name
  times : ∀ name, (before ++ after).count (.flag name) = a.times name
  values : ∀ name, a.Gives name (valuesOf name (before ++ after))
  operands : a.command.Operands (operandsOf after)
  together : .flag .verbose ∉ before ∨ .flag .verbose ∉ after

end Arguments

/-! ## what a command line can tell -/

/-- What a command can be given: paths are not empty, numbers have 64 bits, and the most frequent
terms are not asked for together with all. -/
def Command.Admissible : Command → Prop
  | .index a => a.corpus ≠ "" ∧ a.heap ≠ some ""
  | .term a => a.output ≠ some "" ∧ (∀ n ∈ a.top, n < wordLimit) ∧ (a.top = none ∨ a.all = false)
  | .search a => ∀ n ∈ a.limit, n < wordLimit
  | .explain a => a.document < wordLimit

/-- What a command line can tell. -/
structure Arguments.Admissible (a : Arguments) : Prop where
  verbosity : a.verbosity ≤ mostTimes
  config : a.config ≠ some ""
  index : a.index ≠ some ""
  command : a.command.Admissible

/-! ## names -/

theorem Command.mem_names_of_gives {c : Command} {name : Name} {values : List String}
    (h : c.Gives name values) (hne : values ≠ []) : name ∈ c.verb.names := by
  cases c <;> cases name <;> first | exact (hne h).elim | simp [verb, Verb.names]

theorem Command.mem_names_of_times {c : Command} {name : Name} (h : c.times name ≠ 0) :
    name ∈ c.verb.names := by
  cases c <;> cases name <;> first | exact (h rfl).elim | simp [verb, Verb.names]

theorem Command.eq_nil_of_flag {c : Command} {name : Name} {values : List String}
    (h : c.Gives name values) (hname : name.takesValue = false) : values = [] := by
  cases c <;> cases name <;> first | exact h | cases hname

theorem Command.times_eq_zero {c : Command} {name : Name} (hname : name.takesValue = true) :
    c.times name = 0 := by
  cases c <;> cases name <;> first | rfl | cases hname

/-- No arguments ask for help or for the version. -/
theorem Command.times_help (c : Command) : c.times .help = 0 ∧ c.times .version = 0 := by
  cases c <;> exact ⟨rfl, rfl⟩

namespace Arguments

variable {a : Arguments} {name : Name} {values : List String}

theorem eq_nil_of_flag (h : a.Gives name values) (hname : name.takesValue = false) :
    values = [] := by
  cases name <;> first | exact Command.eq_nil_of_flag h hname | cases hname

theorem times_eq_zero (hname : name.takesValue = true) : a.times name = 0 := by
  cases name <;> first | exact Command.times_eq_zero hname | cases hname

theorem times_own (a : Arguments) (hname : name ∉ Level.sharedNames) :
    a.times name = a.command.times name := by
  cases name <;> first | rfl | exact absurd (by decide) hname

theorem gives_own (h : a.Gives name values) (hname : name ∉ Level.sharedNames) :
    a.command.Gives name values := by
  cases name <;> first | exact h | exact absurd (by decide) hname

theorem mem_names_of_gives (h : a.Gives name values) (hne : values ≠ []) :
    name ∈ (Level.after a.command.verb).names := by
  cases name
  case config | index | field => exact List.mem_append_left _ (by decide)
  all_goals exact List.mem_append_right _ (Command.mem_names_of_gives h hne)

theorem mem_names_of_times (h : a.times name ≠ 0) :
    name ∈ (Level.after a.command.verb).names := by
  cases name
  case verbose | quiet => exact List.mem_append_left _ (by decide)
  all_goals exact List.mem_append_right _ (Command.mem_names_of_times h)

end Arguments

/-! ## values -/

theorem number?_of_writes {n : Nat} {numeral : String} (hn : n < wordLimit)
    (h : Writes n numeral.toList) : number? numeral = some n := by
  rw [number?, readNumeral_of_writes hn h]
  rfl

theorem Kind.check_path {value : String} (h : value ≠ "") : Kind.path.check value = .ok () := by
  rw [check, if_neg (by simpa using h)]

theorem Kind.check_number {n : Nat} {numeral : String} (hn : n < wordLimit)
    (h : Writes n numeral.toList) : Kind.number.check numeral = .ok () := by
  rw [check, number?_of_writes hn h]
  rfl

theorem Kind.check_format (f : Format) : Kind.format.check f.name = .ok () := by
  rw [check, Format.ofName?_name]
  rfl

theorem Kind.check_style (s : Query.Style) : Kind.style.check s.name = .ok () := by
  rw [check, Query.Style.ofName?_name]
  rfl

namespace Numerals

variable {o : Option Nat} {values : List String}

theorem length_le (h : Numerals o values) : values.length ≤ 1 := by
  cases o with
  | none => simp [show values = [] from h]
  | some n =>
      obtain ⟨numeral, -, rfl⟩ := h
      exact Nat.le_refl 1

theorem eq_nil_iff (h : Numerals o values) : values = [] ↔ o = none := by
  cases o with
  | none => exact ⟨fun _ => rfl, fun _ => h⟩
  | some n =>
      obtain ⟨numeral, -, rfl⟩ := h
      simp

theorem check_ok (h : Numerals o values) (ho : ∀ n ∈ o, n < wordLimit) {value : String}
    (hvalue : value ∈ values) : Kind.number.check value = .ok () := by
  cases o with
  | none => rw [show values = [] from h] at hvalue; cases hvalue
  | some n =>
      obtain ⟨numeral, hwrites, rfl⟩ := h
      rw [List.mem_singleton.mp hvalue]
      exact Kind.check_number (ho n rfl) hwrites

theorem number_eq (h : Numerals o values) (ho : ∀ n ∈ o, n < wordLimit) :
    values.head?.bind number? = o := by
  cases o with
  | none => rw [show values = [] from h]; rfl
  | some n =>
      obtain ⟨numeral, hwrites, rfl⟩ := h
      exact number?_of_writes (ho n rfl) hwrites

end Numerals

/-- A path that may be left out passes if it is not empty. -/
theorem Kind.check_path_of_mem {o : Option String} (ho : o ≠ some "") {value : String}
    (hvalue : value ∈ o.toList) : Kind.path.check value = .ok () := by
  refine check_path fun hempty => ho ?_
  rw [← hempty]
  exact Option.mem_toList.mp hvalue

theorem length_toList_le {α : Type} (o : Option α) : o.toList.length ≤ 1 := by
  cases o <;> simp

/-! ## checks -/

namespace Command

variable {c : Command} {name : Name} {values : List String}

/-- What may be given once only is told once at most. -/
theorem once (h : c.Gives name values) (hname : name ≠ .stopWord) :
    c.times name + values.length ≤ 1 := by
  cases c <;> cases name
  case term.top | search.limit => simpa [times] using Numerals.length_le h
  case term.format => obtain rfl | ⟨rfl, -⟩ := h <;> simp [times]
  all_goals simp_all [Gives, times, Bool.toNat_le]

/-- The values that tell what a command is given are such as their names take. -/
theorem check_ok (hadm : c.Admissible) (h : c.Gives name values) {value : String}
    (hvalue : value ∈ values) : name.kind.check value = .ok () := by
  have hne : values ≠ [] := List.ne_nil_of_mem hvalue
  cases c <;> cases name
  case index.heap a => exact Kind.check_path_of_mem hadm.2 (h ▸ hvalue)
  case index.stopWord a => rfl
  case term.top a => exact Numerals.check_ok h hadm.2.1 hvalue
  case term.output a => exact Kind.check_path_of_mem hadm.1 (h ▸ hvalue)
  case term.format a =>
    obtain rfl | ⟨rfl, -⟩ := h
    · rw [List.mem_singleton.mp hvalue]
      exact Kind.check_format a.format
    · cases hvalue
  case search.limit a => exact Numerals.check_ok h hadm hvalue
  case search.parser a | explain.parser a =>
    obtain ⟨style, -, rfl⟩ : ∃ style ∈ a.parser, style.name = value := by
      rw [show values = _ from h] at hvalue
      simpa using hvalue
    exact Kind.check_style style
  all_goals exact (hne h).elim

/-- The operands that tell what a command is given are such as their positions take. -/
theorem operand_ok (hadm : c.Admissible) (h : c.Operands values) {k : Nat} {value : String}
    (hvalue : values[k]? = some value) :
    ∃ kind, c.verb.operand? k = some kind ∧ kind.check value = .ok () := by
  cases c with
  | index a =>
      rw [show values = _ from h] at hvalue
      match k, hvalue with
      | 0, hvalue => exact ⟨.path, rfl, Kind.check_path (Option.some.inj hvalue ▸ hadm.1)⟩
  | term a => exact ⟨.text, rfl, rfl⟩
  | search a =>
      rw [show values = _ from h] at hvalue
      match k, hvalue with
      | 0, _ => exact ⟨.text, rfl, rfl⟩
  | explain a =>
      obtain ⟨numeral, hwrites, rfl⟩ := h
      match k, hvalue with
      | 0, hvalue =>
          exact ⟨.number, rfl, Option.some.inj hvalue ▸ Kind.check_number hadm hwrites⟩
      | 1, _ => exact ⟨.text, rfl, rfl⟩

/-- The most frequent terms and all terms are not asked for together. -/
theorem apart (hadm : c.Admissible) (h : c.Gives .top values) :
    values = [] ∨ c.times .all = 0 := by
  cases c with
  | term a =>
      refine hadm.2.2.imp (Numerals.eq_nil_iff h).mpr fun hall => ?_
      rw [times, hall]
      rfl
  | _ => exact .inl h

end Command

/-! ## commands -/

theorem text?_eq_head? (name : Name) (items : List Item) :
    text? name items = (texts name items).head? := by
  rw [text?, texts, List.head?_filterMap]

theorem parser_eq {o : Option Query.Style} {items : List Item}
    (h : texts .parser items = (o.map Query.Style.name).toList) :
    (text? .parser items).bind Query.Style.ofName? = o := by
  rw [text?_eq_head?, h]
  cases o <;> simp

theorem decide_toNat_pos (b : Bool) : decide (0 < b.toNat) = b := by cases b <;> rfl

/-- Items that tell what a command is given stand for the command. -/
theorem Verb.command_of_gives {c : Command} {items : List Item} (hadm : c.Admissible)
    (hflags : ∀ name ∉ Level.sharedNames, name.takesValue = false →
      isGiven name items = decide (0 < c.times name))
    (hvalues : ∀ name ∉ Level.sharedNames, c.Gives name (texts name items))
    (hoperands : c.Operands (operands items)) : c.verb.command items = .ok c := by
  cases c with
  | index a =>
      have hcorpus : operands items = [a.corpus] := hoperands
      have hregenerate : isGiven .regenerate items = a.regenerate := by
        rw [hflags .regenerate (by decide) rfl]
        exact decide_toNat_pos a.regenerate
      have hheap : text? .heap items = a.heap := by
        rw [text?_eq_head?, show texts .heap items = _ from hvalues .heap (by decide)]
        exact Option.head?_toList
      have hstopWords : texts .stopWord items = a.stopWords := hvalues .stopWord (by decide)
      simp only [Command.verb, command, hcorpus, hregenerate, hheap, hstopWords]
  | term a =>
      have hterms : operands items = a.terms := hoperands
      have hall : isGiven .all items = a.all := by
        rw [hflags .all (by decide) rfl]
        exact decide_toNat_pos a.all
      have htop : (text? .top items).bind number? = a.top := by
        rw [text?_eq_head?]
        exact Numerals.number_eq (hvalues .top (by decide)) hadm.2.1
      have houtput : text? .output items = a.output := by
        rw [text?_eq_head?, show texts .output items = _ from hvalues .output (by decide)]
        exact Option.head?_toList
      have hformat : ((text? .format items).bind Format.ofName?).getD .human = a.format := by
        rw [text?_eq_head?]
        obtain h | ⟨h, hhuman⟩ := hvalues .format (by decide)
        · simp [h]
        · simp [h, hhuman]
      simp only [Command.verb, command, hterms, hall, htop, houtput, hformat]
  | search a =>
      have hquery : operands items = [a.query] := hoperands
      have hparser : (text? .parser items).bind Query.Style.ofName? = a.parser :=
        parser_eq (hvalues .parser (by decide))
      have hlimit : (text? .limit items).bind number? = a.limit := by
        rw [text?_eq_head?]
        exact Numerals.number_eq (hvalues .limit (by decide)) hadm
      simp only [Command.verb, command, hquery, hparser, hlimit]
  | explain a =>
      obtain ⟨numeral, hwrites, hquery⟩ := hoperands
      have hparser : (text? .parser items).bind Query.Style.ofName? = a.parser :=
        parser_eq (hvalues .parser (by decide))
      have hdocument : number? numeral = some a.document := number?_of_writes hadm hwrites
      simp only [Command.verb, command, hquery, hparser, hdocument]

/-! ## lines -/

theorem head?_or_head? {α : Type} {xs ys : List α} {o : Option α} (h : xs ++ ys = o.toList) :
    ys.head?.or xs.head? = o := by
  cases o with
  | none => simp_all
  | some x =>
      obtain ⟨rfl, rfl⟩ | ⟨rfl, rfl⟩ := List.append_eq_singleton_iff.mp h <;> rfl

namespace Arguments.Told

variable {a : Arguments} {before after : List Part} {name : Name}

/-- Before the name of the command stands only what all commands have. -/
theorem mem_sharedNames (h : a.Told before after) {part : Part} (hpart : part ∈ before)
    (hname : part.name? = some name) : name ∈ Level.sharedNames := by
  obtain ⟨n, hn, hshared⟩ := h.shared part hpart
  rw [hname] at hshared
  exact Option.some.inj hshared ▸ hn

theorem operandsOf_before (h : a.Told before after) : operandsOf before = [] := by
  refine List.filterMap_eq_nil_iff.mpr fun part hpart => ?_
  obtain ⟨name, -, hname⟩ := h.shared part hpart
  cases part <;> first | rfl | cases hname

theorem not_mem_namesOf_before (h : a.Told before after) (hname : name ∉ Level.sharedNames) :
    name ∉ namesOf before := by
  intro hmem
  obtain ⟨part, hpart, hgiven⟩ := List.mem_filterMap.mp hmem
  exact hname (h.mem_sharedNames hpart hgiven)

/-- What not all commands have is told after the name of the command. -/
theorem own (h : a.Told before after) (hname : name ∉ Level.sharedNames) :
    after.count (.flag name) = a.times name ∧ a.Gives name (valuesOf name after) := by
  have hnone := count_namesOf name before
  rw [List.count_eq_zero.mpr (h.not_mem_namesOf_before hname)] at hnone
  have hvalues : valuesOf name before = [] := List.length_eq_zero_iff.mp (by omega)
  have htimes := h.times name
  have hgives := h.values name
  rw [List.count_append] at htimes
  rw [valuesOf_append, hvalues, List.nil_append] at hgives
  exact ⟨by omega, hgives⟩

theorem level_before (h : a.Told before after) : Level.root.Has 0 before where
  names part hpart name hname := List.mem_append_left _ (h.mem_sharedNames hpart hname)
  operands k hk := by
    rw [h.operandsOf_before] at hk
    cases hk

theorem level_after (h : a.Told before after) (hadm : a.Admissible) :
    (Level.after a.command.verb).Has 0 after where
  names part hpart name hname := by
    have hcount : 0 < (namesOf (before ++ after)).count name :=
      List.count_pos_iff.mpr
        (List.mem_filterMap.mpr ⟨part, List.mem_append_right before hpart, hname⟩)
    rw [count_namesOf, h.times] at hcount
    by_cases hvalues : valuesOf name (before ++ after) = []
    · rw [hvalues] at hcount
      exact mem_names_of_times (Nat.pos_iff_ne_zero.mp hcount)
    · exact mem_names_of_gives (h.values name) hvalues
  operands k hk := by
    obtain ⟨kind, hkind, -⟩ :=
      Command.operand_ok hadm.command h.operands (List.getElem?_eq_getElem hk)
    rw [Nat.zero_add]
    exact Option.isSome_of_eq_some hkind

/-- What may be given once only is told once at most. -/
theorem once (h : a.Told before after) (hname : name.isRepeatable = false) :
    (namesOf (before ++ after)).count name ≤ 1 := by
  have hvalues := h.values name
  rw [count_namesOf, h.times]
  cases name
  case verbose | stopWord => cases hname
  case config | index | field =>
    rw [times_eq_zero rfl, show valuesOf _ _ = _ from hvalues, Nat.zero_add]
    exact length_toList_le _
  case quiet =>
    rw [Command.eq_nil_of_flag hvalues rfl]
    exact a.quiet.toNat_le
  all_goals exact Command.once hvalues (by decide)

/-- What tells arguments is allowed. -/
theorem isAllowed (h : a.Told before after) (hadm : a.Admissible) :
    ∀ part ∈ before ++ after, part.IsAllowed := by
  intro part hpart
  cases part with
  | flag name =>
      have hcount : a.times name ≠ 0 := by
        rw [← h.times name]
        exact Nat.pos_iff_ne_zero.mp (List.count_pos_iff.mpr hpart)
      constructor
      · rintro rfl
        exact hcount a.command.times_help.1
      · rintro rfl
        exact hcount a.command.times_help.2
  | valued name value =>
      have hvalue : value ∈ valuesOf name (before ++ after) :=
        List.mem_filterMap.mpr ⟨_, hpart, if_pos rfl⟩
      have hvalues := h.values name
      cases name
      case config => exact Kind.check_path_of_mem hadm.config (hvalues ▸ hvalue)
      case index => exact Kind.check_path_of_mem hadm.index (hvalues ▸ hvalue)
      case field => rfl
      all_goals exact Command.check_ok hadm.command hvalues hvalue
  | operand value => trivial

theorem passes_before (h : a.Told before after) (hadm : a.Admissible) {root : List Item}
    (hroot : Carries 0 before root) : checkItems .root [] root = .ok () := by
  have hallowed := (List.forall_mem_append.mp (h.isAllowed hadm)).1
  refine checkItems_ok (hroot.check_ok hallowed fun k value hvalue => ?_) fun name hname => ?_
  · rw [h.operandsOf_before] at hvalue
    cases hvalue
  · have honce := h.once hname
    rw [namesOf_append, List.count_append] at honce
    rw [List.nil_append, hroot.names_eq]
    omega

theorem passes_after (h : a.Told before after) (hadm : a.Admissible) {inner : List Item}
    (hinner : Carries 0 after inner) : checkItems (.after a.command.verb) [] inner = .ok () := by
  have hallowed := (List.forall_mem_append.mp (h.isAllowed hadm)).2
  refine checkItems_ok (hinner.check_ok hallowed fun k value hvalue => ?_) fun name hname => ?_
  · obtain ⟨kind, hkind, hcheck⟩ := Command.operand_ok hadm.command h.operands hvalue
    rw [Nat.zero_add, Level.operand?, hkind]
    exact hcheck
  · have honce := h.once hname
    rw [namesOf_append, List.count_append] at honce
    rw [List.nil_append, hinner.names_eq]
    omega

theorem ofItems_eq (h : a.Told before after) (hadm : a.Admissible) {root inner : List Item}
    (hroot : Carries 0 before root) (hinner : Carries 0 after inner) :
    Arguments.ofItems root inner none a.command = a := by
  have hflag : ∀ name : Name, name.takesValue = false →
      valuesOf name before = [] ∧ valuesOf name after = [] := by
    intro name hname
    rw [← List.append_eq_nil_iff, ← valuesOf_append]
    exact Arguments.eq_nil_of_flag (h.values name) hname
  have htext : ∀ (name : Name) (o : Option String),
      valuesOf name (before ++ after) = o.toList →
        (text? name inner).or (text? name root) = o := by
    intro name o ho
    rw [text?_eq_head?, text?_eq_head?, hinner.texts_eq, hroot.texts_eq]
    exact head?_or_head? (valuesOf_append name before after ▸ ho)
  have hverbosity : min mostTimes
      (if isGiven .verbose inner then CommandLine.times .verbose inner
        else CommandLine.times .verbose root) =
        a.verbosity := by
    have hcount : before.count (.flag .verbose) + after.count (.flag .verbose) = a.verbosity := by
      rw [← List.count_append]
      exact h.times .verbose
    have htogether : before.count (.flag .verbose) = 0 ∨ after.count (.flag .verbose) = 0 :=
      h.together.imp List.count_eq_zero.mpr List.count_eq_zero.mpr
    have hmost := hadm.verbosity
    rw [hinner.isGiven_flag (hflag .verbose rfl).2, hinner.times_eq, hroot.times_eq]
    by_cases hafter : 0 < after.count (.flag .verbose)
    · rw [if_pos (decide_eq_true hafter)]
      omega
    · rw [if_neg (by simpa using hafter)]
      omega
  have hquiet : (isGiven .quiet root || isGiven .quiet inner) = a.quiet := by
    have hcount : before.count (.flag .quiet) + after.count (.flag .quiet) = a.quiet.toNat := by
      rw [← List.count_append]
      exact h.times .quiet
    rw [hroot.isGiven_flag (hflag .quiet rfl).1, hinner.isGiven_flag (hflag .quiet rfl).2,
      ← Bool.decide_or]
    simp only [← Nat.add_pos_iff_pos_or_pos, hcount, decide_toNat_pos]
  have hconfig := htext .config a.config (h.values .config)
  have hindex := htext .index a.index (h.values .index)
  have hfield := htext .field a.field (h.values .field)
  rw [Arguments.ofItems, hverbosity, hquiet, Option.or_none, hconfig, hindex, hfield]

theorem command_eq (h : a.Told before after) (hadm : a.Admissible) {inner : List Item}
    (hinner : Carries 0 after inner) : a.command.verb.command inner = .ok a.command := by
  refine Verb.command_of_gives hadm.command (fun name hname hflag => ?_) (fun name hname => ?_) ?_
  · obtain ⟨htimes, hgives⟩ := h.own hname
    rw [hinner.isGiven_flag (Arguments.eq_nil_of_flag hgives hflag), htimes, a.times_own hname]
  · rw [hinner.texts_eq]
    exact Arguments.gives_own (h.own hname).2 hname
  · rw [hinner.operands_eq]
    exact h.operands

theorem checkExclusions_ok (h : a.Told before after) (hadm : a.Admissible) {inner : List Item}
    (hinner : Carries 0 after inner) : checkExclusions inner = .ok () := by
  have hapart : isGiven .top inner = false ∨ isGiven .all inner = false := by
    obtain ⟨htop, htopValues⟩ := h.own (show .top ∉ Level.sharedNames by decide)
    obtain ⟨hall, hallValues⟩ := h.own (show .all ∉ Level.sharedNames by decide)
    refine (Command.apart hadm.command htopValues).imp (fun hnone => ?_) fun hnone => ?_
    · rw [hinner.isGiven_flag hnone, htop, Arguments.times_eq_zero rfl]
      rfl
    · rw [hinner.isGiven_flag (Arguments.eq_nil_of_flag hallValues rfl), hall,
        a.times_own (by decide), hnone]
      rfl
  rw [checkExclusions]
  obtain h | h := hapart <;> simp [h]

end Arguments.Told

/-! ## the round trip -/

/-- The name of a command ends the words before it. -/
theorem readWords_verb (verb : Verb) (position : Nat) (words : List String) :
    readWords .root none position (verb.name :: words) = ⟨[], .command verb words⟩ := by
  have hword : Word.of verb.name = .plain := by cases verb <;> decide
  rw [readWords, hword]
  simp only [Level.endsAt?, Verb.ofName?_name]

section RoundTrip

variable {a : Arguments} {before after : List Part} {words : List String}

/-- The words after the name of a command give it back. -/
theorem parseCommand_written (hadm : a.Admissible) (htold : a.Told before after)
    (hwords : SpellsLine after words) :
    ∃ inner, Carries 0 after inner ∧
      parseCommand none a.command.verb words = .ok (inner, a.command) := by
  obtain ⟨inner, hinner, hread⟩ := readWords_line hwords (htold.level_after hadm) []
  have hend : read (.after a.command.verb) words = ⟨inner, .finished⟩ := by
    rw [List.append_nil] at hread
    rw [read, hread, readWords]
    simp only [Reading.behind, unanswered, List.append_nil]
  obtain ⟨hclosed, hopened⟩ :=
    Reading.check_ok (r := ⟨inner, .finished⟩) (htold.passes_after hadm hinner)
  refine ⟨inner, hinner, ?_⟩
  rw [parseCommand, hend, hclosed]
  simp only [hopened, checkEnvironment, htold.checkExclusions_ok hadm hinner,
    htold.command_eq hadm hinner]
  rfl

/-- Arguments that a command line can tell are read from every line that tells them: from the words
before the name of the command, this name, and the words after it. -/
theorem parse_written {wordsBefore wordsAfter : List String} (hadm : a.Admissible)
    (htold : a.Told before after) (hbefore : SpellsLine before wordsBefore)
    (hafter : SpellsLine after wordsAfter) :
    parse none (wordsBefore ++ a.command.verb.name :: wordsAfter) = .ok a := by
  obtain ⟨inner, hinner, hcommand⟩ := parseCommand_written hadm htold hafter
  obtain ⟨root, hroot, hread⟩ :=
    readWords_line hbefore htold.level_before (a.command.verb.name :: wordsAfter)
  have hend : read .root (wordsBefore ++ a.command.verb.name :: wordsAfter) =
      ⟨root, .command a.command.verb wordsAfter⟩ := by
    rw [read, hread, readWords_verb]
    simp only [Reading.behind, List.append_nil]
  obtain ⟨hclosed, hopened⟩ :=
    Reading.check_ok (r := ⟨root, .command a.command.verb wordsAfter⟩)
      (htold.passes_before hadm hroot)
  rw [parse, hend, hclosed]
  simp only [hcommand, hopened, checkEnvironment]
  exact congrArg Except.ok (htold.ofItems_eq hadm hroot hinner)

end RoundTrip

/-- A report of terms, asked for with most of what can be given. -/
def rich : Arguments where
  verbosity := 2
  quiet := true
  config := some "run.json"
  index := some "idx"
  field := some "title"
  command := .term
    { terms := ["wing", "flow"], top := some 10, output := some "report.txt", format := .json }

/-- What stands before the name of the command. -/
def richBefore : List Part :=
  [.flag .verbose, .flag .verbose, .valued .config "run.json", .valued .field "title"]

/-- What stands after the name of the command. -/
def richAfter : List Part :=
  [.operand "wing", .flag .quiet, .valued .output "report.txt", .valued .top "10", .operand "flow",
    .valued .format "json", .valued .index "idx"]

theorem admissible_rich : rich.Admissible where
  verbosity := by decide
  config := by decide
  index := by decide
  command := ⟨by decide, fun n hn => by cases hn; decide, .inr rfl⟩

theorem told_rich : rich.Told richBefore richAfter where
  shared := by decide
  times name := by cases name <;> rfl
  values name := by
    cases name <;> first | rfl | exact ⟨"10", .unsigned 0, rfl⟩ | exact .inl rfl
  operands := rfl
  together := .inr (by decide)

theorem spells_richBefore :
    SpellsLine richBefore ["-vvc", "run.json", "--field=title"] := by
  have hverbose : AreFlags [.verbose, .verbose] ['v', 'v'] :=
    .cons ⟨rfl, rfl⟩ (.cons ⟨rfl, rfl⟩ .nil)
  exact .cons (.letterSpaced hverbose rfl rfl (.inr (by decide))) <|
    .cons (.longAttached rfl) .nil

theorem spells_richAfter :
    SpellsLine richAfter
      ["wing", "-qoreport.txt", "--top", "10", "flow", "-f=json", "--index", "idx"] := by
  have hquiet : AreFlags [.quiet] ['q'] := .cons ⟨rfl, rfl⟩ .nil
  exact .cons (.operand (.inr (by decide))) <|
    .cons (.letterJoined hquiet rfl rfl (by decide) (by decide)) <|
    .cons (.longSpaced rfl (.inr (by decide))) <|
    .cons (.operand (.inr (by decide))) <|
    .cons (.letterAttached .nil rfl rfl) <|
    .cons (.longSpaced rfl (.inr (by decide))) .nil

theorem parse_written_rich :
    parse none ["-vvc", "run.json", "--field=title", "term", "wing", "-qoreport.txt", "--top", "10",
      "flow", "-f=json", "--index", "idx"] = .ok rich :=
  parse_written admissible_rich told_rich spells_richBefore spells_richAfter

end Concordance.CommandLine
