import Concordance.Decimal.Numeral
import Concordance.Query.Style

/-!
# Concordance.CommandLine.Grammar

What a command line may hold.  It has two levels: arguments for all commands, then the name of a
command and the arguments of its own level.  Arguments are named, or operands that count by their
position.  Those for all commands may be given on both levels.

* `ofLong?_long`, `ofShort?_short` — on a level, a name stands for the argument it is the name of.
-/

namespace Concordance.CommandLine

open Decimal

/-- Why no arguments come of a command line. -/
inductive Stop
  /-- Help is asked for. -/
  | help
  /-- The version is asked for. -/
  | version
  /-- A name, or one operand too many, that the level does not have. -/
  | unknownArgument
  /-- A word where the name of a command must stand. -/
  | unknownCommand
  /-- Nothing is given at all. -/
  | nothingGiven
  /-- There is no command. -/
  | missingCommand
  /-- An operand is missing. -/
  | missingOperand
  /-- A value is missing, or is not one of those allowed. -/
  | invalidValue
  /-- A value is no number. -/
  | notANumber
  /-- Two arguments exclude each other, or one is given twice. -/
  | conflict
  /-- A value is given to an argument that takes none. -/
  | tooManyValues
  deriving DecidableEq, Repr

/-- How a term report is written. -/
inductive Format
  /-- In columns. -/
  | human
  /-- As JSON. -/
  | json
  deriving DecidableEq, Repr

namespace Format

/-- The name of a format. -/
def name : Format → String
  | .human => "human"
  | .json => "json"

/-- The format of a name. -/
def ofName? (name : String) : Option Format :=
  if name == "human" then some .human else if name == "json" then some .json else none

/-- A format is found by its own name. -/
@[simp] theorem ofName?_name (f : Format) : ofName? f.name = some f := by cases f <;> decide

end Format

/-! ## values -/

/-- What an argument takes. -/
inductive Kind
  /-- No value. -/
  | nothing
  /-- A path, which is never empty. -/
  | path
  /-- Any text. -/
  | text
  /-- A number of 64 bits. -/
  | number
  /-- The name of a format. -/
  | format
  /-- The name of a style of reading queries. -/
  | style
  deriving DecidableEq, Repr

/-- The number that a text is the numeral of. -/
def number? (text : String) : Option Nat := (readNumeral 10 text.toList).toOption

/-- Check a value. -/
def Kind.check (kind : Kind) (value : String) : Except Stop Unit :=
  match kind with
  | .nothing => .error .tooManyValues
  | .path => if value.isEmpty then .error .invalidValue else .ok ()
  | .text => .ok ()
  | .number => if (number? value).isSome then .ok () else .error .notANumber
  | .format => if (Format.ofName? value).isSome then .ok () else .error .invalidValue
  | .style => if (Query.Style.ofName? value).isSome then .ok () else .error .invalidValue

/-! ## named arguments -/

/-- The arguments that are given by name. -/
inductive Name
  | verbose
  | quiet
  | config
  | index
  | field
  | help
  | version
  | regenerate
  | heap
  | stopWord
  | top
  | all
  | output
  | format
  | parser
  | limit
  deriving DecidableEq, Repr

namespace Name

/-- The name that two dashes stand before. -/
def long : Name → String
  | .verbose => "verbose"
  | .quiet => "quiet"
  | .config => "config"
  | .index => "index"
  | .field => "field"
  | .help => "help"
  | .version => "version"
  | .regenerate => "regen"
  | .heap => "heap"
  | .stopWord => "stop-word"
  | .top => "top"
  | .all => "all"
  | .output => "output"
  | .format => "format"
  | .parser => "parser"
  | .limit => "limit"

/-- The letter that one dash stands before, if there is one. -/
def short? : Name → Option Char
  | .verbose => some 'v'
  | .quiet => some 'q'
  | .config => some 'c'
  | .index => some 'i'
  | .help => some 'h'
  | .version => some 'V'
  | .output => some 'o'
  | .format => some 'f'
  | .parser => some 'p'
  | .limit => some 'l'
  | _ => none

/-- What an argument takes. -/
def kind : Name → Kind
  | .config => .path
  | .index => .path
  | .field => .text
  | .heap => .path
  | .stopWord => .text
  | .top => .number
  | .output => .path
  | .format => .format
  | .parser => .style
  | .limit => .number
  | _ => .nothing

/-- Whether an argument takes a value. -/
def takesValue (name : Name) : Bool := name.kind != .nothing

/-- Whether an argument may be given more than once on a level. -/
def isRepeatable : Name → Bool
  | .verbose => true
  | .stopWord => true
  | _ => false

end Name

/-! ## levels -/

/-- The commands. -/
inductive Verb
  | index
  | term
  | search
  | explain
  deriving DecidableEq, Repr

namespace Verb

/-- The name of a command. -/
def name : Verb → String
  | .index => "index"
  | .term => "term"
  | .search => "search"
  | .explain => "explain"

/-- All commands. -/
def all : List Verb := [.index, .term, .search, .explain]

/-- The command of a name. -/
def ofName? (name : String) : Option Verb := all.find? (·.name == name)

/-- A command is found by its own name. -/
@[simp] theorem ofName?_name (v : Verb) : ofName? v.name = some v := by cases v <;> decide

/-- The named arguments of a command. -/
def names : Verb → List Name
  | .index => [.regenerate, .heap, .stopWord]
  | .term => [.top, .all, .output, .format]
  | .search => [.parser, .limit]
  | .explain => [.parser]

/-- What the operand at a position takes, if there may be one. -/
def operand? : Verb → Nat → Option Kind
  | .index, 0 => some .path
  | .term, _ => some .text
  | .search, 0 => some .text
  | .explain, 0 => some .number
  | .explain, 1 => some .text
  | _, _ => none

end Verb

/-- The word that asks for help where a command may stand. -/
def helpWord : String := "help"

/-- The levels of a command line. -/
inductive Level
  /-- Before the command. -/
  | root
  /-- After the command. -/
  | after (verb : Verb)
  deriving DecidableEq, Repr

namespace Level

/-- The arguments that every level has. -/
def sharedNames : List Name := [.verbose, .quiet, .config, .index, .field, .help]

/-- The named arguments of a level. -/
def names : Level → List Name
  | .root => sharedNames ++ [.version]
  | .after verb => sharedNames ++ verb.names

/-- The argument of a long name. -/
def ofLong? (level : Level) (long : String) : Option Name := level.names.find? (·.long == long)

/-- The argument of a short name. -/
def ofShort? (level : Level) (short : Char) : Option Name :=
  level.names.find? (·.short? == some short)

/-- What the operand at a position takes, if there may be one. -/
def operand? : Level → Nat → Option Kind
  | .root, _ => none
  | .after verb, position => verb.operand? position

/-- A long name stands for the argument it is the name of. -/
theorem ofLong?_long {level : Level} {name : Name} (h : name ∈ level.names) :
    level.ofLong? name.long = some name := by
  revert h
  cases level with
  | root => cases name <;> decide
  | after verb => cases verb <;> cases name <;> decide

/-- A short name stands for the argument it is the name of. -/
theorem ofShort?_short {level : Level} {name : Name} {short : Char} (h : name ∈ level.names)
    (hs : name.short? = some short) : level.ofShort? short = some name := by
  revert h
  cases level with
  | root =>
    cases name <;> simp only [Name.short?, Option.some.injEq, reduceCtorEq] at hs <;> subst hs <;>
      decide
  | after verb =>
    cases verb <;> cases name <;> simp only [Name.short?, Option.some.injEq, reduceCtorEq] at hs <;>
      subst hs <;> decide

end Level

end Concordance.CommandLine
