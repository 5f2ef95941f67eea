import Concordance.CommandLine.Item
import Mathlib.Data.List.Basic
import Mathlib.Data.List.TakeWhile

/-!
# Concordance.Proofs.CommandLine.Spelling

How the parts of a command line are written as words, and that they are read from these words.

A part is what is given, however it is written: a flag, a name with a value, or an operand.
`Spells` has one constructor for each way to write parts and does not know how words are read;
`Carries` says which items stand for parts.

* `readWords_spells` — what a few words leave behind, whatever words follow them;
* `readWords_line` — the items of a whole line.
-/

namespace Concordance.CommandLine

/-! ## parts and words -/

/-- A part of a command line. -/
inductive Part
  | flag (name : Name)
  | valued (name : Name) (value : String)
  | operand (value : String)
  deriving DecidableEq, Repr

namespace Part

/-- The name that a part is given by. -/
def name? : Part → Option Name
  | .flag name => some name
  | .valued name _ => some name
  | .operand _ => none

/-- The value that a part gives a name. -/
def value? (name : Name) : Part → Option String
  | .valued n value => if n = name then some value else none
  | _ => none

/-- The value of an operand. -/
def operand? : Part → Option String
  | .operand value => some value
  | _ => none

end Part

/-- The values that parts give a name, in order. -/
def valuesOf (name : Name) (parts : List Part) : List String := parts.filterMap (Part.value? name)

/-- The operands among parts, in order. -/
def operandsOf (parts : List Part) : List String := parts.filterMap Part.operand?

@[simp] theorem valuesOf_append (name : Name) (xs ys : List Part) :
    valuesOf name (xs ++ ys) = valuesOf name xs ++ valuesOf name ys := List.filterMap_append

@[simp] theorem operandsOf_append (xs ys : List Part) :
    operandsOf (xs ++ ys) = operandsOf xs ++ operandsOf ys := List.filterMap_append

@[simp] theorem operandsOf_flags (names : List Name) : operandsOf (names.map .flag) = [] := by
  simp [operandsOf, Part.operand?, List.filterMap_map, Function.comp_def]

/-- A word that is no name: it does not begin with a dash, or is a single one. -/
def StandsAlone (word : String) : Prop := word = "-" ∨ word.toList.head? ≠ some '-'

/-- The word of a long name. -/
def longWord (name : Name) : String := "--" ++ name.long

/-- The word of letters behind one dash. -/
def lettersWord (letters : List Char) : String := String.ofList ('-' :: letters)

/-- Flags and their letters. -/
def AreFlags : List Name → List Char → Prop :=
  List.Forall₂ fun name letter => name.takesValue = false ∧ name.short? = some letter

/-- Parts and words that write them together.  Flags may share a word, and the last letter of such a
word may be the name of a value. -/
inductive Spells : List Part → List String → Prop
  | operand {value : String} (hvalue : StandsAlone value) : Spells [.operand value] [value]
  | longFlag {name : Name} (hname : name.takesValue = false) :
      Spells [.flag name] [longWord name]
  | letterFlags {names : List Name} {letters : List Char} (hflags : AreFlags names letters)
      (hne : letters ≠ []) : Spells (names.map .flag) [lettersWord letters]
  | longSpaced {name : Name} {value : String} (hname : name.takesValue = true)
      (hvalue : StandsAlone value) : Spells [.valued name value] [longWord name, value]
  | longAttached {name : Name} {value : String} (hname : name.takesValue = true) :
      Spells [.valued name value] [longWord name ++ "=" ++ value]
  | letterSpaced {names : List Name} {letters : List Char} {name : Name} {letter : Char}
      {value : String} (hflags : AreFlags names letters) (hname : name.takesValue = true)
      (hletter : name.short? = some letter) (hvalue : StandsAlone value) :
      Spells (names.map .flag ++ [.valued name value]) [lettersWord (letters ++ [letter]), value]
  | letterAttached {names : List Name} {letters : List Char} {name : Name} {letter : Char}
      {value : String} (hflags : AreFlags names letters) (hname : name.takesValue = true)
      (hletter : name.short? = some letter) :
      Spells (names.map .flag ++ [.valued name value])
        [lettersWord (letters ++ letter :: '=' :: value.toList)]
  | letterJoined {names : List Name} {letters : List Char} {name : Name} {letter : Char}
      {value : String} (hflags : AreFlags names letters) (hname : name.takesValue = true)
      (hletter : name.short? = some letter) (hvalue : value ≠ "")
      (hequals : value.toList.head? ≠ some '=') :
      Spells (names.map .flag ++ [.valued name value])
        [lettersWord (letters ++ letter :: value.toList)]

/-- Parts and the words of a line that writes them in order. -/
inductive SpellsLine : List Part → List String → Prop
  | nil : SpellsLine [] []
  | cons {xs parts : List Part} {ws words : List String} (hfirst : Spells xs ws)
      (hrest : SpellsLine parts words) : SpellsLine (xs ++ parts) (ws ++ words)

/-- Parts and the items that stand for them, from the operand at a position on. -/
inductive Carries : Nat → List Part → List Item → Prop
  | nil {position : Nat} : Carries position [] []
  | flag {position : Nat} {name : Name} {parts : List Part} {items : List Item}
      (h : Carries position parts items) :
      Carries position (.flag name :: parts) (.flag name :: items)
  | attached {position : Nat} {name : Name} {value : String} {parts : List Part}
      {items : List Item} (h : Carries position parts items) :
      Carries position (.valued name value :: parts) (.attached name value :: items)
  | spaced {position : Nat} {name : Name} {value : String} {parts : List Part}
      {items : List Item} (h : Carries position parts items) :
      Carries position (.valued name value :: parts) (.spaced name (some value) :: items)
  | operand {position : Nat} {value : String} {parts : List Part} {items : List Item}
      (h : Carries (position + 1) parts items) :
      Carries position (.operand value :: parts) (.operand position value :: items)

theorem Carries.append {position : Nat} {xs ys : List Part} {is js : List Item}
    (h : Carries position xs is) (h' : Carries (position + (operandsOf xs).length) ys js) :
    Carries position (xs ++ ys) (is ++ js) := by
  induction h with
  | nil => exact h'
  | flag _ ih => exact .flag (ih h')
  | attached _ ih => exact .attached (ih h')
  | spaced _ ih => exact .spaced (ih h')
  | operand _ ih =>
      refine .operand (ih ?_)
      simpa [operandsOf, Part.operand?, Nat.add_assoc, Nat.add_comm 1] using h'

theorem Carries.flags (position : Nat) (names : List Name) :
    Carries position (names.map .flag) (names.map .flag) := by
  induction names with
  | nil => exact .nil
  | cons name names ih => exact .flag ih

/-! ## what a word is -/

theorem Word.of_standsAlone {word : String} (h : StandsAlone word) : Word.of word = .plain := by
  obtain rfl | hhead := h
  · rfl
  unfold Word.of
  split <;> simp_all

theorem Word.of_dashes {word : String} {cs : List Char} (h : word.toList = '-' :: '-' :: cs)
    (hne : cs ≠ []) : Word.of word = .long (splitValue cs).1 (splitValue cs).2 := by
  obtain ⟨c, cs, rfl⟩ := List.exists_cons_of_ne_nil hne
  rw [Word.of, h]
  rfl

theorem Word.of_lettersWord {letters : List Char} (hne : letters ≠ [])
    (hdash : letters.head? ≠ some '-') : Word.of (lettersWord letters) = .short letters := by
  obtain ⟨c, cs, rfl⟩ := List.exists_cons_of_ne_nil hne
  have hc : c ≠ '-' := by simpa using hdash
  rw [Word.of, lettersWord, String.toList_ofList]
  simp [hc]

theorem Name.long_chars (name : Name) : name.long.toList ≠ [] ∧ '=' ∉ name.long.toList := by
  cases name <;> decide

theorem Name.short?_ne_dash {name : Name} {letter : Char} (h : name.short? = some letter) :
    letter ≠ '-' := by
  cases name <;> simp only [Name.short?, Option.some.injEq, reduceCtorEq] at h <;> subst h <;> decide

theorem splitValue_name {cs : List Char} (h : '=' ∉ cs) :
    splitValue cs = (String.ofList cs, none) := by
  have hdrop : cs.dropWhile (· != '=') = [] := by
    refine List.dropWhile_eq_nil_iff.mpr fun c hc => ?_
    simpa using fun heq : c = '=' => h (heq ▸ hc)
  rw [splitValue, hdrop]

theorem splitValue_attached {cs : List Char} (h : '=' ∉ cs) (value : List Char) :
    splitValue (cs ++ '=' :: value) = (String.ofList cs, some (String.ofList value)) := by
  have hname : ∀ c ∈ cs, (c != '=') = true := by
    intro c hc
    simpa using fun heq : c = '=' => h (heq ▸ hc)
  have hdrop : (cs ++ '=' :: value).dropWhile (· != '=') = '=' :: value := by
    rw [List.dropWhile_append_of_pos hname]
    rfl
  have htake : (cs ++ '=' :: value).takeWhile (· != '=') = cs := by
    rw [List.takeWhile_append_of_pos hname]
    simp
  rw [splitValue, hdrop, htake]

/-! ## reading a word -/

/-- What a word that names something leaves to do. -/
def ReadsAs (level : Level) (word : String) (read : List Item × Tail) : Prop :=
  (∃ long value, Word.of word = .long long value ∧ readLong level long value = read) ∨
    ∃ letters, Word.of word = .short letters ∧ readLetters level letters = read

section Words

variable {level : Level} {position : Nat} {word : String} {items : List Item} {rest : List String}

theorem readWords_complete (h : ReadsAs level word (items, .complete)) :
    readWords level none position (word :: rest) =
      (readWords level none position rest).behind items := by
  obtain ⟨long, value, hword, hread⟩ | ⟨letters, hword, hread⟩ := h
  all_goals
    rw [readWords, hword]
    simp only [hread, unanswered, List.nil_append]

/-- A name that waits has the next word as its value, unless that one names something itself. -/
theorem readWords_waiting {name : Name} {value : String}
    (h : ReadsAs level word (items, .waiting name)) (hvalue : StandsAlone value) :
    readWords level none position (word :: value :: rest) =
      (readWords level none position rest).behind (items ++ [.spaced name (some value)]) := by
  have hnext : readWords level (some name) position (value :: rest) =
      (readWords level none position rest).behind [.spaced name (some value)] := by
    rw [readWords, Word.of_standsAlone hvalue]
  obtain ⟨long, value, hword, hread⟩ | ⟨letters, hword, hread⟩ := h
  all_goals
    rw [readWords, hword]
    simp only [hread, unanswered, List.nil_append, hnext, Reading.behind, List.append_assoc]

theorem readWords_operand {value : String} (hvalue : StandsAlone value)
    (h : (level.operand? position).isSome = true) :
    readWords level none position (value :: rest) =
      (readWords level none (position + 1) rest).behind [.operand position value] := by
  obtain ⟨kind, hkind⟩ := Option.isSome_iff_exists.mp h
  cases level with
  | root => cases hkind
  | after verb =>
      rw [readWords, Word.of_standsAlone hvalue]
      simp only [Level.endsAt?, hkind]

theorem readsAs_longWord {name : Name} {read : List Item × Tail}
    (hread : readLong level name.long none = read) : ReadsAs level (longWord name) read := by
  obtain ⟨hne, hequals⟩ := name.long_chars
  have hchars : (longWord name).toList = '-' :: '-' :: name.long.toList := by
    rw [longWord, String.toList_append]
    rfl
  refine .inl ⟨_, _, Word.of_dashes hchars hne, ?_⟩
  rw [splitValue_name hequals, String.ofList_toList]
  exact hread

theorem readLong_flag {name : Name} (h : name ∈ level.names) (hname : name.takesValue = false) :
    readLong level name.long none = ([.flag name], .complete) := by
  rw [readLong, Level.ofLong?_long h]
  simp only [hname]

theorem readLong_waiting {name : Name} (h : name ∈ level.names) (hname : name.takesValue = true) :
    readLong level name.long none = ([], .waiting name) := by
  rw [readLong, Level.ofLong?_long h]
  simp only [hname]

theorem readsAs_longWord_attached {name : Name} (h : name ∈ level.names)
    (hname : name.takesValue = true) (value : String) :
    ReadsAs level (longWord name ++ "=" ++ value) ([.attached name value], .complete) := by
  obtain ⟨-, hequals⟩ := name.long_chars
  have hchars : (longWord name ++ "=" ++ value).toList =
      '-' :: '-' :: (name.long.toList ++ '=' :: value.toList) := by
    simp only [longWord, String.toList_append]
    rw [List.append_assoc, List.append_assoc]
    rfl
  refine .inl ⟨_, _, Word.of_dashes hchars (by simp), ?_⟩
  rw [splitValue_attached hequals, String.ofList_toList, String.ofList_toList, readLong,
    Level.ofLong?_long h]
  simp only [hname]

/-- The letters of flags are flags, whatever letters follow. -/
theorem readLetters_flags {names : List Name} {letters : List Char}
    (hflags : AreFlags names letters) (hnames : ∀ name ∈ names, name ∈ level.names) (cs : List Char) :
    readLetters level (letters ++ cs) =
      (names.map .flag ++ (readLetters level cs).1, (readLetters level cs).2) := by
  induction hflags with
  | nil => rfl
  | @cons name letter names letters hfirst _ ih =>
      have hname := Level.ofShort?_short (hnames name List.mem_cons_self) hfirst.2
      have hrest := ih fun n hn => hnames n (List.mem_cons_of_mem name hn)
      rw [List.cons_append, readLetters, hname]
      simp only [hfirst.1, hrest]
      rfl

theorem AreFlags.head?_ne_dash {names : List Name} {letters : List Char}
    (h : AreFlags names letters) : letters.head? ≠ some '-' := by
  cases h with
  | nil => simp
  | cons hfirst _ => simpa using (Name.short?_ne_dash hfirst.2)

/-- The word of letters is read letter by letter. -/
theorem readsAs_lettersWord {letters : List Char} (hne : letters ≠ [])
    (hdash : letters.head? ≠ some '-') :
    ReadsAs level (lettersWord letters) (readLetters level letters) :=
  .inr ⟨letters, Word.of_lettersWord hne hdash, rfl⟩

section Letters

variable {names : List Name} {letters : List Char} {name : Name} {letter : Char}
  (hflags : AreFlags names letters) (hnames : ∀ n ∈ names, n ∈ level.names)
  (hletter : name.short? = some letter)
include hflags hnames

theorem readsAs_flags (hne : letters ≠ []) :
    ReadsAs level (lettersWord letters) (names.map .flag, .complete) := by
  have hread := readLetters_flags hflags hnames []
  rw [List.append_nil, readLetters, List.append_nil] at hread
  exact hread ▸ readsAs_lettersWord hne hflags.head?_ne_dash

include hletter

/-- Behind flags a letter is read as if it were alone. -/
theorem readsAs_letter (cs : List Char) :
    ReadsAs level (lettersWord (letters ++ letter :: cs))
      (names.map .flag ++ (readLetters level (letter :: cs)).1,
        (readLetters level (letter :: cs)).2) := by
  rw [← readLetters_flags hflags hnames]
  refine readsAs_lettersWord (by simp) ?_
  cases letters with
  | nil => simpa using (Name.short?_ne_dash hletter)
  | cons c cs => exact hflags.head?_ne_dash

end Letters

section Letter

variable {name : Name} {letter : Char} (h : name ∈ level.names)
  (hname : name.takesValue = true) (hletter : name.short? = some letter)
include h hname hletter

theorem readLetters_waiting : readLetters level [letter] = ([], .waiting name) := by
  rw [readLetters, Level.ofShort?_short h hletter]
  simp only [hname, if_true]

theorem readLetters_attached (value : List Char) :
    readLetters level (letter :: '=' :: value) =
      ([.attached name (String.ofList value)], .complete) := by
  rw [readLetters, Level.ofShort?_short h hletter]
  simp only [hname, if_true]

theorem readLetters_joined {value : List Char} (hne : value ≠ [])
    (hequals : value.head? ≠ some '=') :
    readLetters level (letter :: value) =
      ([.attached name (String.ofList value)], .complete) := by
  obtain ⟨c, cs, rfl⟩ := List.exists_cons_of_ne_nil hne
  have hc : c ≠ '=' := by simpa using hequals
  rw [readLetters, Level.ofShort?_short h hletter]
  simp [hname, hc]

end Letter

end Words

/-! ## reading a line -/

/-- A level has the names of parts, and room for their operands from a position on. -/
structure Level.Has (level : Level) (position : Nat) (parts : List Part) : Prop where
  names : ∀ part ∈ parts, ∀ name, part.name? = some name → name ∈ level.names
  operands : ∀ k < (operandsOf parts).length, (level.operand? (position + k)).isSome = true

section Lines

variable {level : Level} {position : Nat} {xs ys parts : List Part} {words : List String}

theorem Level.Has.left (h : level.Has position (xs ++ ys)) : level.Has position xs where
  names part hpart := h.names part (List.mem_append_left ys hpart)
  operands k hk := h.operands k (by rw [operandsOf_append, List.length_append]; omega)

theorem Level.Has.right (h : level.Has position (xs ++ ys)) :
    level.Has (position + (operandsOf xs).length) ys where
  names part hpart := h.names part (List.mem_append_right xs hpart)
  operands k hk := by
    rw [Nat.add_assoc]
    exact h.operands _ (by rw [operandsOf_append, List.length_append]; omega)

theorem Level.Has.flags {names : List Name} (h : level.Has position (names.map .flag)) :
    ∀ name ∈ names, name ∈ level.names :=
  fun name hname => h.names (.flag name) (List.mem_map_of_mem hname) name rfl

theorem Level.Has.valued {name : Name} {value : String}
    (h : level.Has position [.valued name value]) : name ∈ level.names :=
  h.names (.valued name value) List.mem_cons_self name rfl

/-- Words that write parts are read as items that stand for these, and reading goes on behind
them. -/
theorem readWords_spells (h : Spells parts words) (hlevel : level.Has position parts)
    (rest : List String) :
    ∃ items, Carries position parts items ∧
      readWords level none position (words ++ rest) =
        (readWords level none (position + (operandsOf parts).length) rest).behind items := by
  cases h with
  | operand hvalue =>
      exact ⟨_, .operand .nil, readWords_operand hvalue (hlevel.operands 0 Nat.one_pos)⟩
  | @longFlag name hname =>
      have hmem := hlevel.names (.flag name) List.mem_cons_self name rfl
      exact ⟨_, .flag .nil, readWords_complete (readsAs_longWord (readLong_flag hmem hname))⟩
  | @letterFlags names letters hflags hne =>
      refine ⟨_, .flags position names, ?_⟩
      rw [operandsOf_flags]
      exact readWords_complete (readsAs_flags hflags hlevel.flags hne)
  | @longSpaced name value htakes hvalue =>
      exact ⟨_, .spaced .nil,
        readWords_waiting (readsAs_longWord (readLong_waiting hlevel.valued htakes)) hvalue⟩
  | @longAttached name value htakes =>
      exact ⟨_, .attached .nil,
        readWords_complete (readsAs_longWord_attached hlevel.valued htakes value)⟩
  | @letterSpaced names letters name letter value hflags htakes hletter hvalue =>
      refine ⟨_, (Carries.flags position names).append (.spaced .nil), ?_⟩
      have hread := readsAs_letter hflags hlevel.left.flags hletter []
      rw [readLetters_waiting hlevel.right.valued htakes hletter, List.append_nil] at hread
      rw [operandsOf_append, operandsOf_flags]
      exact readWords_waiting hread hvalue
  | @letterAttached names letters name letter value hflags htakes hletter =>
      refine ⟨_, (Carries.flags position names).append (.attached .nil), ?_⟩
      have hread := readsAs_letter hflags hlevel.left.flags hletter ('=' :: value.toList)
      rw [readLetters_attached hlevel.right.valued htakes hletter, String.ofList_toList] at hread
      rw [operandsOf_append, operandsOf_flags]
      exact readWords_complete hread
  | @letterJoined names letters name letter value hflags htakes hletter hvalue hequals =>
      refine ⟨_, (Carries.flags position names).append (.attached .nil), ?_⟩
      have hread := readsAs_letter hflags hlevel.left.flags hletter value.toList
      have hne : value.toList ≠ [] := fun h => hvalue (String.toList_eq_nil_iff.mp h)
      rw [readLetters_joined hlevel.right.valued htakes hletter hne hequals,
        String.ofList_toList] at hread
      rw [operandsOf_append, operandsOf_flags]
      exact readWords_complete hread

/-- The words of a line are read as items that stand for its parts, and reading goes on behind
them. -/
theorem readWords_line (h : SpellsLine parts words) (hlevel : level.Has position parts)
    (rest : List String) :
    ∃ items, Carries position parts items ∧
      readWords level none position (words ++ rest) =
        (readWords level none (position + (operandsOf parts).length) rest).behind items := by
  induction h generalizing position with
  | nil => exact ⟨[], .nil, rfl⟩
  | @cons xs parts ws words hfirst _ ih =>
      obtain ⟨is, his, hread⟩ := readWords_spells hfirst hlevel.left (words ++ rest)
      obtain ⟨js, hjs, hrest⟩ := ih hlevel.right
      refine ⟨is ++ js, his.append hjs, ?_⟩
      rw [List.append_assoc, hread, hrest, operandsOf_append, List.length_append, Nat.add_assoc]
      simp only [Reading.behind, List.append_assoc]

end Lines

end Concordance.CommandLine
