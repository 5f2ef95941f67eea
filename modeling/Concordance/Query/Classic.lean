import Concordance.Query.Syntax
import Concordance.Text.Blank

/-!
# Concordance.Query.Classic

The strict reading of query texts.  A text with a mistake anywhere has no reading.

A query is either a chain of parts with an operator between any two of them, or a list of parts with
optional signs.
-/

namespace Concordance.Query.Classic

open Text (isBlank)

/-! ## words -/

/-- Words that cannot be looked for. -/
def reserved : List String := ["OR", "AND", "NOT", "IN"]

/-- Whether a word may go on with a character. -/
def continuesWord (c : Char) : Bool :=
  !(isBlank c || [':', '^', '\x7b', '\x7d', '"', '[', ']', '(', ')'].contains c)

/-- Whether a word may begin with a character. -/
def beginsWord (c : Char) : Bool := continuesWord c && c != '-' && c != '\x60'

/-- A word. -/
def word? : List Char → Option (String × List Char)
  | [] => none
  | c :: cs =>
    if beginsWord c then
      let word := String.ofList (c :: cs.takeWhile continuesWord)
      if reserved.contains word then none else some (word, cs.dropWhile continuesWord)
    else none

/-- A number with a minus sign. -/
def negativeNumber? : List Char → Option (String × List Char)
  | '-' :: cs =>
    (decimal? cs).map fun ((whole, fraction), rest) =>
      (String.ofList ('-' :: whole ++ if fraction.isEmpty then [] else '.' :: fraction), rest)
  | _ => none

/-- A text to look for: a negative number, a phrase in either kind of quotes, or a word. -/
def text? (cs : List Char) : Option (String × List Char) :=
  match negativeNumber? cs with
  | some answer => some answer
  | none =>
    match cs with
    | '\'' :: rest =>
      match quoted? '\'' [] rest with
      | some answer => some answer
      | none => word? cs
    | '"' :: rest => quoted? '"' [] rest
    | _ => word? cs

/-! ## literals and groups -/

/-- The rest of a group: more texts, each after white space and with an optional sign. -/
def groupRest (field : String) : Nat → List Char → List (Option Occur × Tree) × List Char
  | 0, cs => ([], cs)
  | fuel + 1, cs =>
    match gaps? cs with
    | none => ([], cs)
    | some rest =>
      let (occur, rest) := sign rest
      match text? rest with
      | none => ([], cs)
      | some (text, rest) =>
        let (parts, rest) := groupRest field fuel rest
        ((occur, .literal ⟨some field, text⟩) :: parts, rest)

/-- The texts of a group. -/
def groupParts (field : String) (cs : List Char) : List (Option Occur × Tree) × List Char :=
  let (occur, rest) := sign cs
  match text? rest with
  | none => ([], cs)
  | some (text, rest) =>
    let (parts, rest) := groupRest field rest.length rest
    ((occur, .literal ⟨some field, text⟩) :: parts, rest)

/-- A field with a group of texts. -/
def group? (cs : List Char) : Option (Tree × List Char) :=
  match fieldName? cs with
  | none => none
  | some (field, rest) =>
    match skipGaps rest with
    | '(' :: rest =>
      match groupParts field (skipGaps rest) with
      | (parts, ')' :: rest) => some (.clause parts, rest)
      | _ => none
    | _ => none

/-- A text with its field, if one is named, or a group. -/
def literal? (cs : List Char) : Option (Tree × List Char) :=
  let (field, rest) :=
    match fieldName? cs with
    | some (field, rest) => (some field, rest)
    | none => (none, cs)
  match text? rest with
  | some (text, rest) => some (.literal ⟨field, text⟩, rest)
  | none => group? cs

/-! ## parts and queries -/

/-- A chain of operators and parts as groups of required parts, of which one has to match. -/
def joinChain : List (List Tree) → List (Operator × Tree) → List (List Tree)
  | groups, [] => groups.reverse
  | groups, (.or, t) :: rest => joinChain ([t] :: groups) rest
  | [], (.and, t) :: rest => joinChain [[t]] rest
  | g :: groups, (.and, t) :: rest => joinChain ((g ++ [t]) :: groups) rest

/-- The query in which all parts have to match. -/
def conjunction (parts : List Tree) : Tree := .clause (parts.map (some .must, ·))

/-- The query of a chain. -/
def chain (first : Tree) (rest : List (Operator × Tree)) : Tree :=
  match joinChain [[first]] rest with
  | [parts] => conjunction parts
  | groups => .clause (groups.map fun parts => (some .should, conjunction parts))

/-- The query of a list of parts. -/
def listed : List (Option Occur × Tree) → Tree
  | [part] => .single part
  | parts => .clause parts

mutual

/-- A part without its boost. -/
def leaf? : Nat → List Char → Option (Tree × List Char)
  | 0, _ => none
  | fuel + 1, cs =>
    match cs with
    | '(' :: rest =>
      match query? fuel rest with
      | some (t, ')' :: rest) => some (t, rest)
      | _ => none
    | '*' :: rest => some (.all, rest)
    | _ =>
      match (after? "NOT" cs).bind gaps? with
      | some rest =>
        match leaf? fuel rest with
        | some (t, rest) => some (t.negated, rest)
        | none => literal? cs
      | none => literal? cs

/-- A part with its boost. -/
def part? : Nat → List Char → Option (Tree × List Char)
  | 0, _ => none
  | fuel + 1, cs =>
    match leaf? fuel cs with
    | none => none
    | some (t, rest) =>
      let (factor, rest) := boostAfter rest
      some (t.boosted factor, rest)

/-- Operators and parts, as many as there are. -/
def operands : Nat → List Char → List (Operator × Tree) × List Char
  | 0, cs => ([], cs)
  | fuel + 1, cs =>
    match operator? cs with
    | none => ([], cs)
    | some (operator, rest) =>
      match part? fuel (skipGaps rest) with
      | none => ([], cs)
      | some (t, rest) =>
        let (more, rest) := operands fuel (skipGaps rest)
        ((operator, t) :: more, rest)

/-- Parts with optional signs, each after white space. -/
def moreParts : Nat → List Char → List (Option Occur × Tree) × List Char
  | 0, cs => ([], cs)
  | fuel + 1, cs =>
    match gaps? cs with
    | none => ([], cs)
    | some rest =>
      let (occur, rest) := sign rest
      match part? fuel rest with
      | none => ([], cs)
      | some (t, rest) =>
        let (more, rest) := moreParts fuel rest
        ((occur, t) :: more, rest)

/-- A query, and the white space around it.  A chain is tried before a list. -/
def query? : Nat → List Char → Option (Tree × List Char)
  | 0, _ => none
  | fuel + 1, cs =>
    let cs := skipGaps cs
    let first := part? fuel cs
    let chained := do
      let (t, rest) ← first
      let rest ← gaps? rest
      match operands fuel rest with
      | ([], _) => none
      | (more, rest) => return (chain t more, skipGaps rest)
    match chained with
    | some answer => some answer
    | none =>
      let (occur, rest) := sign cs
      let first := if occur.isSome then part? fuel rest else first
      match first with
      | none => none
      | some (t, rest) =>
        let (more, rest) := moreParts fuel rest
        some (listed ((occur, t) :: more), skipGaps rest)

end

/-- Enough fuel to read a text. -/
def fuelFor (cs : List Char) : Nat := 4 * cs.length + 4

/-- The query of a text, which may be blank. -/
def parse? (text : String) : Option Tree :=
  let cs := skipGaps text.toList
  match query? (fuelFor cs) cs with
  | some (t, rest) => if rest.isEmpty then some t.unwrap else none
  | none => if cs.isEmpty then some .empty else none

end Concordance.Query.Classic
