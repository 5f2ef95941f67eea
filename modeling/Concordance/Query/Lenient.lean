import Concordance.Query.Syntax
import Concordance.Text.Blank

/-!
# Concordance.Query.Lenient

The forgiving reading of query texts.  Every text has a reading; what does not fit is counted as a
mistake and dropped or repaired: an open parenthesis or quote is closed at the end of the text.
-/

namespace Concordance.Query.Lenient

open Text (isBlank)

/-- What was read, the number of mistakes met, and what follows. -/
structure Read (α : Type) where
  value : α
  mistakes : Nat
  rest : List Char

/-- Go on reading. -/
def Read.bind (r : Read α) (f : α → List Char → Read β) : Read β :=
  let s := f r.value r.rest
  ⟨s.value, r.mistakes + s.mistakes, s.rest⟩

/-! ## words and phrases -/

/-- Whether a word goes on with a character. -/
def inWord (c : Char) : Bool := !(isBlank c || ['*', ')', '^'].contains c)

/-- A word, after white space.  It is a mistake if there is none. -/
def word (cs : List Char) : Read (Option String) :=
  match (skipGaps cs).span inWord with
  | ([], _) => ⟨none, 1, cs⟩
  | (word, rest) => ⟨some (String.ofList word), 0, rest⟩

/-- A phrase up to its closing mark, onto what was read before (in reverse).  It is a mistake if the
mark is missing. -/
def phrase (mark : Char) (before : List Char) : List Char → Read String
  | [] => ⟨String.ofList before.reverse, 1, []⟩
  | ['\\'] => ⟨String.ofList ('\\' :: before).reverse, 1, []⟩
  | '\\' :: c :: cs => phrase mark (c :: before) cs
  | c :: cs =>
    if c = mark then ⟨String.ofList before.reverse, 0, cs⟩ else phrase mark (c :: before) cs

/-- A text to look for. -/
def text (cs : List Char) : Read (Option String) :=
  match cs with
  | '"' :: rest => (phrase '"' [] rest).bind fun t rest => ⟨some t, 0, rest⟩
  | '\'' :: rest => (phrase '\'' [] rest).bind fun t rest => ⟨some t, 0, rest⟩
  | _ => word cs

/-! ## literals and groups -/

/-- The texts of a group up to its closing parenthesis.  It is a mistake if that is missing, or the
white space between two texts. -/
def groupParts (field : String) : Nat → (first : Bool) → List Char →
    Read (List (Option Occur × Tree))
  | 0, _, cs => ⟨[], 0, cs⟩
  | fuel + 1, first, cs =>
    let separated := first || (gaps? cs).isSome
    match if first then cs else skipGaps cs with
    | [] => ⟨[], 1, []⟩
    | ')' :: rest => ⟨[], 0, rest⟩
    | cs =>
      let (occur, rest) := sign cs
      let read := text rest
      let more := groupParts field fuel false read.rest
      ⟨match read.value with
        | some t => (occur, .literal ⟨some field, t⟩) :: more.value
        | none => more.value,
        (if separated then 0 else 1) + read.mistakes + more.mistakes, more.rest⟩

/-- The field of a group and what follows its opening parenthesis, if a group stands in front. -/
def groupStart? (cs : List Char) : Option (String × List Char) :=
  match fieldName? cs with
  | none => none
  | some (field, rest) =>
    match skipGaps rest with
    | '(' :: rest => some (field, skipGaps rest)
    | _ => none

/-- A text with its field, if one is named, or a group. -/
def literal (cs : List Char) : Read (Option Tree) :=
  match groupStart? cs with
  | some (field, rest) =>
    (groupParts field (rest.length + 1) true rest).bind fun parts rest =>
      ⟨some (.clause parts), 0, rest⟩
  | none =>
    let (field, rest) :=
      match fieldName? cs with
      | some (field, rest) => (some field, rest)
      | none => (none, cs)
    (text (skipGaps rest)).bind fun t rest => ⟨t.map fun t => .literal ⟨field, t⟩, 0, rest⟩

/-! ## parts and queries -/

/-- A part of a query with the operator and the sign before it. -/
structure Part where
  operator : Option Operator
  occur : Option Occur
  tree : Tree

/-- How a part without a sign takes part in a match, by the operators around it. -/
def defaultOccur : (before after : Option Operator) → Option Occur
  | some .and, _ => some .must
  | some .or, some .and => some .must
  | some .or, _ => some .should
  | none, some .and => some .must
  | none, some .or => some .should
  | none, none => none

/-- The parts in groups, the last group first and in it the last part first: an `OR` begins a new
group. -/
def groups : List (List (Option Occur × Tree)) → List Part → List (List (Option Occur × Tree))
  | gs, [] => gs
  | gs, p :: rest =>
    let after := (rest.head?).bind Part.operator
    let part := (p.occur.or (defaultOccur p.operator after), p.tree)
    match p.operator, gs with
    | some .or, gs => groups ([part] :: gs) rest
    | _, g :: gs => groups ((part :: g) :: gs) rest
    | _, [] => groups [[part]] rest

/-- A group as part of a query: more than one part together may match. -/
def groupPart : List (Option Occur × Tree) → Option Occur × Tree
  | [part] => part
  | parts => (some .should, .clause parts)

/-- The mistakes in how parts are joined: an operator before the first part, operators between some
parts only, and operators together with signs. -/
def joinMistakes (parts : List Part) : Nat :=
  let later := parts.drop 1
  let some_ := later.any (·.operator.isSome)
  (if some_ && parts.any (·.occur.isSome) then 1 else 0) +
    (if some_ && !later.all (·.operator.isSome) then 1 else 0) +
    (if (parts.take 1).any (·.operator.isSome) then 1 else 0)

/-- The query of parts. -/
def join : List Part → Tree
  | [] => .empty
  | [p] => .single (p.occur, p.tree)
  | parts =>
    match ((groups [[]] parts).reverse.map List.reverse).filter (!·.isEmpty) with
    | [parts] => .clause parts
    | gs => .clause (gs.map groupPart)

mutual

/-- A part without its boost. -/
def leaf : Nat → List Char → Read (Option Tree)
  | 0, cs => ⟨none, 0, cs⟩
  | fuel + 1, cs =>
    match cs with
    | '(' :: rest =>
      (query fuel rest).bind fun t rest =>
        match rest with
        | ')' :: rest => ⟨some t, 0, rest⟩
        | rest => ⟨some t, 1, rest⟩
    | '*' :: rest => ⟨some .all, 0, rest⟩
    | _ =>
      match after? "NOT " cs with
      | some rest => (leaf fuel (skipGaps rest)).bind fun t rest => ⟨t.map Tree.negated, 0, rest⟩
      | none => literal cs

/-- A part with its operator, its sign and its boost. -/
def part : Nat → List Char → Read (Option Part)
  | 0, cs => ⟨none, 0, cs⟩
  | fuel + 1, cs =>
    let (operator, rest) :=
      match operator? cs with
      | some (operator, rest) => (some operator, rest)
      | none => (none, cs)
    let (occur, rest) := sign (skipGaps rest)
    (leaf fuel rest).bind fun t rest =>
      let (factor, rest) := boostAfter rest
      ⟨t.map fun t => ⟨operator, occur, t.boosted factor⟩, 0, rest⟩

/-- More parts, as long as something is read.  It is a mistake if there is no white space before
one. -/
def moreParts : Nat → List Char → Read (List (Option Part))
  | 0, cs => ⟨[], 0, cs⟩
  | fuel + 1, cs =>
    let separated := (gaps? cs).isSome
    let start := skipGaps cs
    let read := part fuel start
    if read.rest.length = start.length then ⟨[], 0, cs⟩
    else
      (moreParts fuel read.rest).bind fun more rest =>
        ⟨read.value :: more, (if separated then 0 else 1) + read.mistakes, rest⟩

/-- A query, and the white space around it. -/
def query : Nat → List Char → Read Tree
  | 0, cs => ⟨.empty, 0, cs⟩
  | fuel + 1, cs =>
    (part fuel (skipGaps cs)).bind fun first rest =>
      (moreParts fuel rest).bind fun more rest =>
        let parts := (first :: more).filterMap id
        ⟨join parts, joinMistakes parts, skipGaps rest⟩

end

/-- Enough fuel to read a text. -/
def fuelFor (cs : List Char) : Nat := 4 * cs.length + 4

/-- The query of a text, and the number of its mistakes. -/
def parse (text : String) : Tree × Nat :=
  let cs := text.toList
  if cs.all isBlank then (.empty, 0)
  else
    let read := query (fuelFor cs) cs
    (read.value.unwrap, read.mistakes + if read.rest.all isBlank then 0 else 1)

end Concordance.Query.Lenient
