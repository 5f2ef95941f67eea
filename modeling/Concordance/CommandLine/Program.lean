import Concordance.CommandLine.Run

/-!
# Concordance.CommandLine.Program

A whole run of the program: from the words of its command line to its exit code and what it leaves
on the standard streams.
-/

namespace Concordance.CommandLine

/-- The version of the program. -/
def versionNumber : String := "0.1.0"

/-- The name of the program. -/
def programName : String := "termstat"

/-- The variable of the environment that names a configuration file. -/
def environmentVariable : String := "TERMSTAT_CONFIG"

/-- How to call the program. -/
def usage : String :=
  "Usage: termstat [OPTIONS] <COMMAND>\n\n" ++
    "Commands:\n" ++
    "  index <CORPUS> [--regen] [--heap <DIR>] [--stop-word <WORD>]...\n" ++
    "  term [TERM]... [--top <N> | --all] [-o <FILE>] [-f human|json]\n" ++
    "  search <QUERY> [-p classic|lenient] [-l <LIMIT>]\n" ++
    "  explain <DOC> <QUERY> [-p classic|lenient]\n\n" ++
    "Options:\n" ++
    "  -v, --verbose        Increase log verbosity\n" ++
    "  -q, --quiet          Only log errors\n" ++
    "  -c, --config <FILE>  JSON configuration file\n" ++
    "  -i, --index <DIR>    Index directory\n" ++
    "      --field <FIELD>  Field of statistics and vocabulary growth\n" ++
    "  -h, --help           Print help\n" ++
    "  -V, --version        Print version\n"

/-! ## command lines that end at once -/

/-- The exit code of a run without arguments. -/
def Stop.exitCode : Stop → Nat
  | .help => 0
  | .version => 0
  | _ => 2

/-- What is printed where help or the version is asked for. -/
def Stop.console : Stop → String
  | .help => usage
  | .version => s!"{programName} {versionNumber}\n"
  | _ => ""

/-- What is wrong with a command line. -/
def Stop.message : Stop → String
  | .help => ""
  | .version => ""
  | .unknownArgument => "error: unexpected argument\n"
  | .unknownCommand => "error: unrecognized subcommand\n"
  | .nothingGiven => usage
  | .missingCommand => "error: a subcommand is needed\n"
  | .missingOperand => "error: an operand is missing\n"
  | .invalidValue => "error: a value is missing or not allowed\n"
  | .notANumber => "error: a value is not a number\n"
  | .conflict => "error: arguments cannot be used together\n"
  | .tooManyValues => "error: a value is given to an argument that takes none\n"

/-! ## runs -/

/-- What a run leaves. -/
structure Finished where
  exitCode : Nat
  console : String
  /-- The line about the fault that ended the run. -/
  complaint : String := ""
  /-- The warnings of the run, in order. -/
  warnings : List Warning := []
  workspace : Workspace

/-- The line about a fault that ends a run. -/
def complaint (e : Fault) : String :=
  if e.isAboutGrowth then s!"Error: vocabulary growth data was not saved: {e.message}\n"
  else s!"Error: {e.message}\n"

/-- Run a command in a workspace. -/
def runCommand (a : Arguments) (w : Workspace) : Finished :=
  let (answer, after) :=
    a.run.run { w with console := { w.console with text := "" }, warnings := [] }
  let warnings := if a.quiet then [] else after.warnings.reverse
  let workspace :=
    { after with console := { after.console with text := w.console.text }, warnings := w.warnings }
  match answer with
  | .ok () => ⟨0, after.console.text, "", warnings, workspace⟩
  | .error e => ⟨1, after.console.text, complaint e, warnings, workspace⟩

/-- Run the program. -/
def run (environment : Option String) (words : List String) (w : Workspace) : Finished :=
  match parse environment words with
  | .error stop => ⟨stop.exitCode, stop.console, stop.message, [], w⟩
  | .ok a => runCommand a w

/-! ## the files of a run -/

/-- How much of what a path leads to a run looks at. -/
inductive Extent
  /-- What the path leads to, and nothing below it. -/
  | itself
  /-- Also what stands directly in a folder. -/
  | children
  /-- Also everything below a folder. -/
  | everything
  deriving DecidableEq, Repr

/-- The files that a command looks at or changes. -/
def Command.files (settings : Config) : Command → List (String × Extent)
  | .index a =>
    let c := a.over settings
    [(c.indexFolder, .children), (a.corpus, .everything)] ++
      (c.growthFolder.map (·, .children)).toList
  | .term a => (settings.indexFolder, .children) :: (a.output.map (·, .itself)).toList
  | .search _ => [(settings.indexFolder, .children)]
  | .explain _ => [(settings.indexFolder, .children)]

/-- The configuration file that a run looks at. -/
def settingsFile? (environment : Option String) (words : List String) : Option String :=
  match parse environment words with
  | .error _ => none
  | .ok a => a.config

/-- The files that a run looks at or changes, once its configuration file is known. -/
def filesOf (environment : Option String) (words : List String) (t : Files.Tree) :
    List (String × Extent) :=
  match parse environment words with
  | .error _ => []
  | .ok a =>
    match a.settings t with
    | .error _ => []
    | .ok settings => a.command.files settings

end Concordance.CommandLine
