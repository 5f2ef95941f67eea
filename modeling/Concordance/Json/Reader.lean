import Concordance.Json.Basic
import Concordance.Decimal.Numeral

/-!
# Concordance.Json.Reader

Reading of strict JSON: nothing but the value and white space, no comments, no commas at the end.
-/

namespace Concordance.Json

open Decimal (digit?)

/-- White space between the parts of a JSON text. -/
def isJsonBlank (c : Char) : Bool := c == ' ' || c == '\t' || c == '\n' || c == '\r'

/-- What follows the white space. -/
def skipBlanks (cs : List Char) : List Char := cs.dropWhile isJsonBlank

/-! ## texts -/

/-- The number of four hexadecimal digits. -/
def hex4? (a b c d : Char) : Option Nat := do
  let a ← digit? 16 a
  let b ← digit? 16 b
  let c ← digit? 16 c
  let d ← digit? 16 d
  return ((a * 16 + b) * 16 + c) * 16 + d

/-- Whether a number is the first half of a surrogate pair. -/
def isHighHalf (n : Nat) : Bool := 0xD800 ≤ n && n < 0xDC00

/-- Whether a number is the second half of a surrogate pair. -/
def isLowHalf (n : Nat) : Bool := 0xDC00 ≤ n && n < 0xE000

/-- The character of a surrogate pair. -/
def ofHalves (high low : Nat) : Char :=
  Char.ofNat (0x10000 + (high - 0xD800) * 0x400 + (low - 0xDC00))

/-- The character that a letter after a backslash stands for. -/
def escaped? (c : Char) : Option Char :=
  match c with
  | '"' => some '"'
  | '\\' => some '\\'
  | '/' => some '/'
  | 'b' => some '\x08'
  | 'f' => some '\x0c'
  | 'n' => some '\n'
  | 'r' => some '\r'
  | 't' => some '\t'
  | _ => none

/-- The second half of a surrogate pair, if an escape in front spells one. -/
def lowHalf? : List Char → Option Nat
  | '\\' :: 'u' :: a :: b :: c :: d :: _ => (hex4? a b c d).filter isLowHalf
  | _ => none

/-- Read the characters of a text up to its closing quote, onto those read before (in reverse).
`whole` is false once half of a surrogate pair was met. -/
def readText (whole : Bool) (before : List Char) : List Char → Option (Option String × List Char)
  | [] => none
  | '"' :: rest => some (if whole then some (String.ofList before.reverse) else none, rest)
  | '\\' :: 'u' :: a :: b :: c :: d :: rest =>
    match hex4? a b c d with
    | none => none
    | some n =>
      if isHighHalf n then
        match lowHalf? rest with
        | some low => readText whole (ofHalves n low :: before) (rest.drop 6)
        | none => readText false before rest
      else if isLowHalf n then readText false before rest
      else readText whole (Char.ofNat n :: before) rest
  | '\\' :: c :: rest =>
    match escaped? c with
    | none => none
    | some e => readText whole (e :: before) rest
  | c :: rest => if c.toNat < 0x20 ∨ c = '\\' then none else readText whole (c :: before) rest
termination_by cs => cs.length
decreasing_by all_goals simp_wf <;> omega

/-! ## numbers -/

/-- The digits at the front, and what follows them. -/
def spanDigits (cs : List Char) : List Char × List Char := cs.span Char.isDigit

/-- Read the whole part of a number: a zero stands alone. -/
def readWhole (cs : List Char) : Option (List Char × List Char) :=
  match cs with
  | '0' :: rest => some (['0'], rest)
  | _ =>
    match spanDigits cs with
    | ([], _) => none
    | (ds, rest) => some (ds, rest)

/-- Read the fraction of a number, if it has one. -/
def readFraction (cs : List Char) : Option (List Char × List Char) :=
  match cs with
  | '.' :: rest =>
    match spanDigits rest with
    | ([], _) => none
    | (ds, rest) => some ('.' :: ds, rest)
  | _ => some ([], cs)

/-- Read the digits of an exponent. -/
def readExponentDigits (mark : List Char) (cs : List Char) : Option (List Char × List Char) :=
  match spanDigits cs with
  | ([], _) => none
  | (ds, rest) => some (mark ++ ds, rest)

/-- Read the exponent of a number, if it has one. -/
def readExponent (cs : List Char) : Option (List Char × List Char) :=
  match cs with
  | c :: rest =>
    if c = 'e' ∨ c = 'E' then
      match rest with
      | '+' :: rest => readExponentDigits [c, '+'] rest
      | '-' :: rest => readExponentDigits [c, '-'] rest
      | rest => readExponentDigits [c] rest
    else some ([], cs)
  | [] => some ([], [])

/-- Read a number without a sign. -/
def readUnsigned (cs : List Char) : Option (Json × List Char) := do
  let (whole, rest) ← readWhole cs
  let (fraction, rest) ← readFraction rest
  let (exponent, rest) ← readExponent rest
  if fraction.isEmpty && exponent.isEmpty then
    return (.natural (Nat.ofDigitChars 10 whole 0), rest)
  else return (.number (String.ofList (whole ++ fraction ++ exponent)), rest)

/-- The same number with a minus sign. -/
def negated : Json → Json
  | .natural n => .number ("-" ++ Decimal.numeral n)
  | .number written => .number ("-" ++ written)
  | value => value

/-- Read a number. -/
def readNumber (cs : List Char) : Option (Json × List Char) :=
  match cs with
  | '-' :: rest => (readUnsigned rest).map fun (value, rest) => (negated value, rest)
  | _ => readUnsigned cs

/-! ## values -/

/-- What follows a word, if it stands in front. -/
def afterWord? : List Char → List Char → Option (List Char)
  | [], cs => some cs
  | w :: ws, c :: cs => if w = c then afterWord? ws cs else none
  | _ :: _, [] => none

mutual

/-- Read a value; the fuel bounds how many parts it may have. -/
def readValue : Nat → List Char → Option (Json × List Char)
  | 0, _ => none
  | fuel + 1, cs =>
    match skipBlanks cs with
    | '"' :: rest => (readText true [] rest).map fun (t, rest) => (.text t, rest)
    | '[' :: rest =>
      match skipBlanks rest with
      | ']' :: rest => some (.array [], rest)
      | _ => (readItems fuel rest).map fun (items, rest) => (.array items, rest)
    | '\x7b' :: rest =>
      match skipBlanks rest with
      | '\x7d' :: rest => some (.object [], rest)
      | _ => (readMembers fuel rest).map fun (members, rest) => (.object members, rest)
    | 'n' :: rest => (afterWord? ['u', 'l', 'l'] rest).map fun rest => (.null, rest)
    | 't' :: rest => (afterWord? ['r', 'u', 'e'] rest).map fun rest => (.bool true, rest)
    | 'f' :: rest => (afterWord? ['a', 'l', 's', 'e'] rest).map fun rest => (.bool false, rest)
    | cs => readNumber cs

/-- Read the items of an array up to its closing bracket. -/
def readItems : Nat → List Char → Option (List Json × List Char)
  | 0, _ => none
  | fuel + 1, cs =>
    match readValue fuel cs with
    | none => none
    | some (item, rest) =>
      match skipBlanks rest with
      | ',' :: rest => (readItems fuel rest).map fun (items, rest) => (item :: items, rest)
      | ']' :: rest => some ([item], rest)
      | _ => none

/-- Read the members of an object up to its closing brace. -/
def readMembers : Nat → List Char → Option (List (Option String × Json) × List Char)
  | 0, _ => none
  | fuel + 1, cs =>
    match skipBlanks cs with
    | '"' :: rest =>
      match readText true [] rest with
      | none => none
      | some (name, rest) =>
        match skipBlanks rest with
        | ':' :: rest =>
          match readValue fuel rest with
          | none => none
          | some (value, rest) =>
            match skipBlanks rest with
            | ',' :: rest =>
              (readMembers fuel rest).map fun (members, rest) => ((name, value) :: members, rest)
            | '\x7d' :: rest => some ([(name, value)], rest)
            | _ => none
        | _ => none
    | _ => none

end

/-- Read a text that is one value and nothing else. -/
def parse? (text : String) : Option Json :=
  let cs := text.toList
  match readValue (2 * cs.length + 1) cs with
  | some (value, rest) => if (skipBlanks rest).isEmpty then some value else none
  | none => none

/-- The members of an object by name; absent if a name stands for nothing. -/
def namedMembers? (members : List (Option String × Json)) : Option (List (String × Json)) :=
  members.mapM fun (name, value) => name.map (·, value)

end Concordance.Json
