import Concordance.Config.Basic
import Concordance.Decimal.Numeral
import Concordance.Files.Tree
import Concordance.Json.Reader

/-!
# Concordance.Config.Reader

Settings from a JSON file: an object with members by name, or an array with the values in the order
in which the settings are declared.  What is not given keeps its default.

* `setting_name_inj` — a name stands for one setting.
-/

namespace Concordance.Config

open Files

/-- The settings, in the order in which an array gives them. -/
inductive Setting
  | indexFolder
  | growthFolder
  | field
  | regenerate
  | writerMemory
  | stopWords
  | maxTokenLength
  | parser
  | resultLimit
  deriving DecidableEq, Repr

namespace Setting

/-- All settings in order. -/
def all : List Setting :=
  [.indexFolder, .growthFolder, .field, .regenerate, .writerMemory, .stopWords, .maxTokenLength,
    .parser, .resultLimit]

/-- The name of a setting. -/
def name : Setting → String
  | .indexFolder => "index_dir"
  | .growthFolder => "heap_dir"
  | .field => "field"
  | .regenerate => "regenerate"
  | .writerMemory => "writer_memory_bytes"
  | .stopWords => "stop_words"
  | .maxTokenLength => "max_token_length"
  | .parser => "parser"
  | .resultLimit => "result_limit"

/-- The setting of a name. -/
def ofName? (name : String) : Option Setting := all.find? (·.name == name)

/-- A name stands for one setting. -/
theorem setting_name_inj {a b : Setting} (h : a.name = b.name) : a = b := by
  cases a <;> cases b <;> first | rfl | exact absurd h (by decide)

end Setting

/-! ## values -/

/-- The value of a text. -/
def text? : Json → Option String
  | .text value => value
  | _ => none

/-- The value of a truth value. -/
def bool? : Json → Option Bool
  | .bool value => some value
  | _ => none

/-- The value of a natural number of 64 bits. -/
def word? : Json → Option Nat
  | .natural value => if value < Decimal.wordLimit then some value else none
  | _ => none

/-- The value of a text that may be missing. -/
def optionalText? : Json → Option (Option String)
  | .null => some none
  | .text (some value) => some (some value)
  | _ => none

/-- The values of a list of texts. -/
def texts? : Json → Option (List String)
  | .array items => items.mapM text?
  | _ => none

/-- The style of a name, or of an object whose only member has that name and no value. -/
def style? : Json → Option Query.Style
  | .text (some name) => Query.Style.ofName? name
  | .object [(some name, .null)] => Query.Style.ofName? name
  | _ => none

/-- Settings with one of them replaced by a JSON value; there are none if the value is of another
kind. -/
def put? (c : Config) (value : Json) : Setting → Option Config
  | .indexFolder => (text? value).map ({ c with indexFolder := · })
  | .growthFolder => (optionalText? value).map ({ c with growthFolder := · })
  | .field => (text? value).map ({ c with field := · })
  | .regenerate => (bool? value).map ({ c with regenerate := · })
  | .writerMemory => (word? value).map ({ c with writerMemory := · })
  | .stopWords => (texts? value).map ({ c with stopWords := · })
  | .maxTokenLength => (word? value).map ({ c with maxTokenLength := · })
  | .parser => (style? value).map ({ c with parser := · })
  | .resultLimit => (word? value).map ({ c with resultLimit := · })

/-- Settings with those replaced that the members of an object name.  A setting may be named once;
unknown names are passed over. -/
def putMembers? (given : List Setting) (c : Config) : List (String × Json) → Option Config
  | [] => some c
  | (name, value) :: rest =>
    match Setting.ofName? name with
    | none => putMembers? given c rest
    | some s =>
      if given.contains s then none
      else
        match c.put? value s with
        | none => none
        | some c => putMembers? (s :: given) c rest

/-- Settings with those replaced that an array gives in order. -/
def putItems? (c : Config) : List Setting → List Json → Option Config
  | _, [] => some c
  | [], _ :: _ => none
  | s :: rest, value :: values =>
    match c.put? value s with
    | none => none
    | some c => putItems? c rest values

/-- The settings that a JSON value gives. -/
def ofJson? : Json → Option Config
  | .object members => (Json.namedMembers? members).bind (putMembers? [] {})
  | .array items => putItems? {} Setting.all items
  | _ => none

/-- The settings that a JSON text gives, checked. -/
def ofText (text : String) : Except Fault Config :=
  match (Json.parse? text).bind ofJson? with
  | none => .error .json
  | some c =>
    match c.check with
    | .error e => .error e
    | .ok () => .ok c

/-- The settings of a file, checked. -/
def ofFile (t : Tree) (path : String) : Except Fault Config :=
  match t.readText path with
  | .error _ => .error (.configFile path)
  | .ok text => ofText text

end Concordance.Config
