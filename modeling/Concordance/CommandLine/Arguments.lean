import Concordance.CommandLine.Check
import Concordance.Config.Reader

/-!
# Concordance.CommandLine.Arguments

The arguments of a run, read from the words of its command line.  What is given after the command
wins over what is given before it, and that over the environment.
-/

namespace Concordance.CommandLine

open Files

/-! ## arguments -/

/-- What is to be indexed. -/
structure IndexArguments where
  corpus : String
  /-- Whether an index that is there is deleted and built again. -/
  regenerate : Bool := false
  /-- The folder of the growth files. -/
  heap : Option String := none
  /-- Words that the analyzer leaves out, on top of those in the configuration. -/
  stopWords : List String := []
  deriving DecidableEq, Repr

/-- Which terms are to be reported. -/
structure TermArguments where
  terms : List String := []
  /-- How many of the most frequent terms. -/
  top : Option Nat := none
  all : Bool := false
  /-- The file that the report goes to as well. -/
  output : Option String := none
  format : Format := .human
  deriving DecidableEq, Repr

/-- How many reports are asked for. -/
def TermArguments.requests (a : TermArguments) : Nat :=
  a.terms.length + a.top.isSome.toNat + a.all.toNat

/-- What is to be searched. -/
structure SearchArguments where
  query : String
  parser : Option Query.Style := none
  limit : Option Nat := none
  deriving DecidableEq, Repr

/-- Which score is to be explained. -/
structure ExplainArguments where
  document : Nat
  query : String
  parser : Option Query.Style := none
  deriving DecidableEq, Repr

/-- A command with its arguments. -/
inductive Command
  | index (arguments : IndexArguments)
  | term (arguments : TermArguments)
  | search (arguments : SearchArguments)
  | explain (arguments : ExplainArguments)
  deriving DecidableEq, Repr

/-- The arguments of a run. -/
structure Arguments where
  /-- How often more is asked to be logged. -/
  verbosity : Nat := 0
  /-- Whether only errors are logged. -/
  quiet : Bool := false
  /-- The configuration file. -/
  config : Option String := none
  /-- The folder of the index. -/
  index : Option String := none
  /-- The field that statistics and growth are about. -/
  field : Option String := none
  command : Command
  deriving DecidableEq, Repr

namespace Arguments

/-- What is logged: messages of this weight and above. -/
def logLevel (a : Arguments) : String :=
  if a.quiet then "error"
  else match a.verbosity with
    | 0 => "warn"
    | 1 => "info"
    | 2 => "debug"
    | _ => "trace"

/-- The settings of a run: those of its configuration file, or else the defaults, with the folder of
the index and the field replaced where they are given. -/
def settings (a : Arguments) (t : Tree) : Except Fault Config :=
  match (match a.config with
    | some path => Config.ofFile t path
    | none => .ok {}) with
  | .error e => .error e
  | .ok c =>
    .ok { c with indexFolder := a.index.getD c.indexFolder, field := a.field.getD c.field }

end Arguments

/-! ## reading -/

/-- The value of a name, if it is given. -/
def text? (name : Name) (items : List Item) : Option String := items.findSome? (Item.valueOf? name)

/-- All values of a name. -/
def texts (name : Name) (items : List Item) : List String := items.filterMap (Item.valueOf? name)

/-- How often a flag is given. -/
def times (name : Name) (items : List Item) : Nat := items.count (.flag name)

/-- The operands in order. -/
def operands (items : List Item) : List String := items.filterMap Item.operand?

/-- The most that is counted of a repeated flag. -/
def mostTimes : Nat := 255

/-- The command that items stand for, unless one it needs is missing. -/
def Verb.command (verb : Verb) (items : List Item) : Except Stop Command :=
  match verb, operands items with
  | .index, corpus :: _ =>
    .ok (.index
      { corpus := corpus, regenerate := isGiven .regenerate items, heap := text? .heap items
        stopWords := texts .stopWord items })
  | .term, terms =>
    .ok (.term
      { terms := terms, top := (text? .top items).bind number?, all := isGiven .all items
        output := text? .output items
        format := ((text? .format items).bind Format.ofName?).getD .human })
  | .search, query :: _ =>
    .ok (.search
      { query := query, parser := (text? .parser items).bind Query.Style.ofName?
        limit := (text? .limit items).bind number? })
  | .explain, document :: query :: _ =>
    match number? document with
    | some n =>
      .ok (.explain
        { document := n, query := query, parser := (text? .parser items).bind Query.Style.ofName? })
    | none => .error .notANumber
  | _, _ => .error .missingOperand

/-- The arguments that the items of the two levels stand for. -/
def Arguments.ofItems (root inner : List Item) (environment : Option String) (command : Command) :
    Arguments where
  verbosity :=
    min mostTimes (if isGiven .verbose inner then times .verbose inner else times .verbose root)
  quiet := isGiven .quiet root || isGiven .quiet inner
  config := (text? .config inner).or ((text? .config root).or environment)
  index := (text? .index inner).or (text? .index root)
  field := (text? .field inner).or (text? .field root)
  command := command

/-- The items and the command of the words after the name of a command. -/
def parseCommand (environment : Option String) (verb : Verb) (words : List String) :
    Except Stop (List Item × Command) := do
  let level := Level.after verb
  let r := read level words
  r.checkClosed level
  if let .refused stop := r.ending then throw stop
  r.checkOpened level
  checkEnvironment environment r.items
  checkExclusions r.items
  let command ← verb.command r.items
  return (r.items, command)

/-- The arguments that the words of a command line stand for. -/
def parse (environment : Option String) (words : List String) : Except Stop Arguments := do
  let r := read .root words
  r.checkClosed .root
  match r.ending with
  | .refused stop => throw stop
  | .command verb rest =>
    let (items, command) ← parseCommand environment verb rest
    r.checkOpened .root
    checkEnvironment environment r.items
    return .ofItems r.items items environment command
  | .finished =>
    r.checkOpened .root
    checkEnvironment environment r.items
    throw (stopWithoutCommand environment r.items)

end Concordance.CommandLine
