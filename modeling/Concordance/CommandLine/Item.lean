import Concordance.CommandLine.Grammar

/-!
# Concordance.CommandLine.Item

The words of a level as items: arguments with their values, and operands.  A word that begins with a
dash and has more than it holds names, and is never the value of the name before it; two dashes
alone make operands of all words after them.
-/

namespace Concordance.CommandLine

/-! ## words -/

/-- What a word is by its dashes. -/
inductive Word
  /-- Two dashes alone. -/
  | divider
  /-- Two dashes with a name, and what stands behind the first equals sign. -/
  | long (name : String) (value : Option String)
  /-- One dash with letters. -/
  | short (letters : List Char)
  /-- Any other word, a single dash among them. -/
  | plain
  deriving DecidableEq, Repr

/-- A name with its value, taken apart at the first equals sign. -/
def splitValue (cs : List Char) : String × Option String :=
  match cs.dropWhile (· != '=') with
  | [] => (String.ofList cs, none)
  | _ :: value => (String.ofList (cs.takeWhile (· != '=')), some (String.ofList value))

/-- What a word is. -/
def Word.of (word : String) : Word :=
  match word.toList with
  | ['-', '-'] => .divider
  | '-' :: '-' :: cs =>
    let (name, value) := splitValue cs
    .long name value
  | ['-'] => .plain
  | '-' :: cs => .short cs
  | _ => .plain

/-! ## items -/

/-- An argument as it is given. -/
inductive Item
  /-- A name that takes no value. -/
  | flag (name : Name)
  /-- A name with its value in the same word. -/
  | attached (name : Name) (value : String)
  /-- A name with its value in the next word, where that can be one. -/
  | spaced (name : Name) (value : Option String)
  /-- An operand and its position. -/
  | operand (position : Nat) (value : String)
  deriving DecidableEq, Repr

namespace Item

/-- The name of an item. -/
def name? : Item → Option Name
  | .flag name => some name
  | .attached name _ => some name
  | .spaced name _ => some name
  | .operand _ _ => none

/-- The value that an item gives a name. -/
def valueOf? (name : Name) : Item → Option String
  | .attached n value => if n = name then some value else none
  | .spaced n value => if n = name then value else none
  | _ => none

/-- The value of an operand. -/
def operand? : Item → Option String
  | .operand _ value => some value
  | _ => none

/-- Whether an item is checked only when the next one comes. -/
def isOpen : Item → Bool
  | .spaced _ _ => true
  | .operand _ _ => true
  | _ => false

end Item

/-! ## named arguments -/

/-- What a word leaves to do. -/
inductive Tail
  /-- Nothing. -/
  | complete
  /-- A name waits for its value. -/
  | waiting (name : Name)
  /-- The word is refused. -/
  | refused (stop : Stop)
  deriving DecidableEq, Repr

/-- The items of letters behind one dash.  A name that takes a value takes all letters behind it,
less an equals sign in front. -/
def readLetters (level : Level) : List Char → List Item × Tail
  | [] => ([], .complete)
  | c :: cs =>
    match level.ofShort? c with
    | none => ([], .refused .unknownArgument)
    | some name =>
      if name.takesValue then
        match cs with
        | [] => ([], .waiting name)
        | '=' :: value => ([.attached name (String.ofList value)], .complete)
        | value => ([.attached name (String.ofList value)], .complete)
      else
        let (items, tail) := readLetters level cs
        (.flag name :: items, tail)

/-- The item of a long name. -/
def readLong (level : Level) (long : String) (value : Option String) : List Item × Tail :=
  match level.ofLong? long with
  | none => ([], .refused .unknownArgument)
  | some name =>
    match name.takesValue, value with
    | true, none => ([], .waiting name)
    | true, some value => ([.attached name value], .complete)
    | false, none => ([.flag name], .complete)
    | false, some _ => ([], .refused .tooManyValues)

/-! ## levels -/

/-- How the reading of a level ends. -/
inductive Ending
  /-- The line is at its end. -/
  | finished
  /-- A word is refused. -/
  | refused (stop : Stop)
  /-- A command begins, with these words behind its name. -/
  | command (verb : Verb) (rest : List String)
  deriving DecidableEq, Repr

/-- The items of a level, and how its reading ends. -/
structure Reading where
  items : List Item
  ending : Ending
  deriving DecidableEq, Repr

/-- A reading with items in front. -/
def Reading.behind (r : Reading) (items : List Item) : Reading :=
  { r with items := items ++ r.items }

/-- The item of a name that waits in vain. -/
def unanswered : Option Name → List Item
  | none => []
  | some name => [.spaced name none]

/-- Why a word is refused as an operand. -/
def Level.surplus (level : Level) (word : String) (divided : Bool) : Stop :=
  match level with
  | .after _ => .unknownArgument
  | .root =>
    if divided && ((Verb.ofName? word).isSome || word == helpWord) then .unknownArgument
    else .unknownCommand

/-- Words as operands, from a position on. -/
def readOperands (level : Level) : Nat → List String → Reading
  | _, [] => ⟨[], .finished⟩
  | position, word :: rest =>
    match level.operand? position with
    | none => ⟨[], .refused (level.surplus word true)⟩
    | some _ => (readOperands level (position + 1) rest).behind [.operand position word]

/-- What help is given when words stand behind the word that asks for it. -/
def helpFor : List String → Stop
  | [] => .help
  | [word] => if (Verb.ofName? word).isSome || word == helpWord then .help else .unknownCommand
  | _ => .unknownCommand

/-- How a level ends at a word, if it does. -/
def Level.endsAt? (level : Level) (word : String) (rest : List String) : Option Ending :=
  match level with
  | .after _ => none
  | .root =>
    match Verb.ofName? word with
    | some verb => some (.command verb rest)
    | none => if word == helpWord then some (.refused (helpFor rest)) else none

/-- The words of a level from the operand at a position on, while a name may wait for its value. -/
def readWords (level : Level) : Option Name → Nat → List String → Reading
  | waiting, _, [] => ⟨unanswered waiting, .finished⟩
  | waiting, position, word :: rest =>
    let named : List Item × Tail → Reading
      | (items, .refused stop) => ⟨unanswered waiting ++ items, .refused stop⟩
      | (items, .complete) =>
        (readWords level none position rest).behind (unanswered waiting ++ items)
      | (items, .waiting name) =>
        (readWords level (some name) position rest).behind (unanswered waiting ++ items)
    match Word.of word with
    | .divider => (readOperands level position rest).behind (unanswered waiting)
    | .long long value => named (readLong level long value)
    | .short letters => named (readLetters level letters)
    | .plain =>
      match waiting with
      | some name => (readWords level none position rest).behind [.spaced name (some word)]
      | none =>
        match level.endsAt? word rest with
        | some ending => ⟨[], ending⟩
        | none =>
          match level.operand? position with
          | none => ⟨[], .refused (level.surplus word false)⟩
          | some _ => (readWords level none (position + 1) rest).behind [.operand position word]

/-- The reading of a level. -/
def read (level : Level) (words : List String) : Reading := readWords level none 0 words

end Concordance.CommandLine
