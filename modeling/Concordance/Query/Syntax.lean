import Concordance.Decimal.Fraction

/-!
# Concordance.Query.Syntax

Query texts as trees, and the words, names and phrases that both readers have in common.
-/

namespace Concordance.Query

/-- How a part of a clause takes part in a match. -/
inductive Occur
  /-- It may match and then adds to the score. -/
  | should
  /-- It has to match. -/
  | must
  /-- It must not match. -/
  | mustNot
  deriving DecidableEq, Repr

/-- A text to look for, in a field if one is named. -/
structure Literal where
  field : Option String
  text : String
  deriving DecidableEq, Repr

/-- A query as it is written. -/
inductive Tree
  | clause (parts : List (Option Occur × Tree))
  | literal (literal : Literal)
  /-- All documents. -/
  | all
  | boost (inner : Tree) (factor : Float)
  deriving Repr

namespace Tree

/-- The query of an empty text. -/
def empty : Tree := .clause []

/-- A query that only excludes. -/
def negated (t : Tree) : Tree := .clause [(some .mustNot, t)]

/-- A single part on its own. -/
def single : Option Occur × Tree → Tree
  | (some .mustNot, t) => t.negated
  | (_, t) => t

/-- A query with a boost, unless that is one. -/
def boosted (t : Tree) : Option Float → Tree
  | none => t
  | some factor => if (factor - 1.0).abs > 2.220446049250313e-16 then .boost t factor else t

/-- A part with no sign of its own that is a clause of one part stands for that part. -/
def unwrapPart : Option Occur × Tree → Option Occur × Tree
  | (none, .clause [part]) => part
  | part => part

/-- A query without clauses of one part among its parts. -/
def unwrap : Tree → Tree
  | .clause parts => .clause (parts.map unwrapPart)
  | t => t

end Tree

/-- Joins parts of a query. -/
inductive Operator
  | and
  | or
  deriving DecidableEq, Repr

/-! ## characters and words -/

/-- White space between the parts of a query. -/
def isGap (c : Char) : Bool := c == ' ' || c == '\t' || c == '\n' || c == '\r'

/-- What follows the white space. -/
def skipGaps (cs : List Char) : List Char := cs.dropWhile isGap

/-- What follows the white space, of which there must be some. -/
def gaps? : List Char → Option (List Char)
  | c :: cs => if isGap c then some (skipGaps cs) else none
  | [] => none

/-- What follows a word, if it stands in front. -/
def after? (word : String) (cs : List Char) : Option (List Char) :=
  if word.toList.isPrefixOf cs then some (cs.drop word.length) else none

/-- The characters that have a meaning of their own. -/
def isSpecial (c : Char) : Bool :=
  ['+', '^', '\x60', ':', '\x7b', '\x7d', '"', '[', ']', '(', ')', '!', '\\', '*', ' '].contains c

/-- The rest of a field name, onto what was read before (in reverse), up to its colon.  A special
character counts as one of the name after a backslash. -/
def nameRest (before : List Char) : List Char → Option (String × List Char)
  | [] => none
  | ':' :: cs => some (String.ofList before.reverse, cs)
  | ['\\'] => none
  | '\\' :: c :: cs =>
    if isSpecial c then nameRest (c :: before) cs else nameRest ('\\' :: before) (c :: cs)
  | c :: cs => if isSpecial c then none else nameRest (c :: before) cs

/-- A field name and its colon. -/
def fieldName? : List Char → Option (String × List Char)
  | '\\' :: c :: cs => if isSpecial c then nameRest [c] cs else none
  | c :: cs => if isSpecial c || c == '-' then none else nameRest [c] cs
  | [] => none

/-- A text up to its closing mark, onto what was read before (in reverse).  A backslash takes the
character after it as it is. -/
def quoted? (mark : Char) (before : List Char) : List Char → Option (String × List Char)
  | [] => none
  | ['\\'] => none
  | '\\' :: c :: cs => quoted? mark (c :: before) cs
  | c :: cs =>
    if c = mark then some (String.ofList before.reverse, cs) else quoted? mark (c :: before) cs

/-- Digits, of which there must be some. -/
def digits? (cs : List Char) : Option (List Char × List Char) :=
  match cs.span Char.isDigit with
  | ([], _) => none
  | answer => some answer

/-- Digits, and a point with more digits if that follows. -/
def decimal? (cs : List Char) : Option ((List Char × List Char) × List Char) :=
  match digits? cs with
  | none => none
  | some (whole, '.' :: rest) =>
    match digits? rest with
    | some (fraction, rest) => some ((whole, fraction), rest)
    | none => some ((whole, []), '.' :: rest)
  | some (whole, rest) => some ((whole, []), rest)

/-- The boost after a part, if there is one. -/
def boostAfter (cs : List Char) : Option Float × List Char :=
  match cs with
  | '^' :: rest =>
    match decimal? rest with
    | some ((whole, fraction), rest) => (some (Decimal.readFloat whole fraction 0), rest)
    | none => (none, cs)
  | _ => (none, cs)

/-- The sign before a part, if there is one. -/
def sign (cs : List Char) : Option Occur × List Char :=
  match cs with
  | '-' :: rest => (some .mustNot, rest)
  | '+' :: rest => (some .must, rest)
  | _ => (none, cs)

/-- An operator and the space after it. -/
def operator? (cs : List Char) : Option (Operator × List Char) :=
  match after? "AND " cs with
  | some rest => some (.and, rest)
  | none => (after? "OR " cs).map (.or, ·)

end Concordance.Query
