import Concordance.Decimal.Shortest
import Concordance.Json.Basic

/-!
# Concordance.Json.Printer

JSON texts in a readable layout: every item and member on a line of its own, indented by two spaces.
-/

namespace Concordance.Json

open Decimal

/-- A digit of a code below sixteen. -/
def hexDigit (n : Nat) : Char := if n < 10 then Char.ofNat (48 + n) else Char.ofNat (87 + n)

/-- A character of a text, as written: quotes, backslashes and controls are escaped, all else stands
for itself. -/
def escapeChar (c : Char) : List Char :=
  if c = '"' then ['\\', '"']
  else if c = '\\' then ['\\', '\\']
  else if c = '\x08' then ['\\', 'b']
  else if c = '\x0c' then ['\\', 'f']
  else if c = '\n' then ['\\', 'n']
  else if c = '\r' then ['\\', 'r']
  else if c = '\t' then ['\\', 't']
  else if c.toNat < 0x20 then
    ['\\', 'u', '0', '0', hexDigit (c.toNat / 16), hexDigit (c.toNat % 16)]
  else [c]

/-- A text in quotes. -/
def quote (text : String) : String :=
  String.ofList ('"' :: text.toList.flatMap escapeChar ++ ['"'])

/-- Numbers of 64 bits are written positionally from `0.00001` to below `1e+16`. -/
def doubleLayout : Layout := ⟨-5, 16⟩

/-- Numbers of 32 bits are written positionally from `0.000001` to below `1e+13`. -/
def singleLayout : Layout := ⟨-6, 13⟩

/-- A floating point number; there is none for one that is not finite. -/
def ofParts (layout : Layout) : Parts → Json
  | .finite x => .number (layout.render x)
  | _ => .null

/-- The value of a number of 64 bits. -/
def ofDouble (x : Float) : Json := ofParts doubleLayout (Decimal.ofDouble x)

/-- The value of a number of 32 bits. -/
def ofSingle (x : Float32) : Json := ofParts singleLayout (Decimal.ofSingle x)

/-- The value of a text. -/
def ofText (text : String) : Json := .text (some text)

/-- The value of an object. -/
def ofMembers (members : List (String × Json)) : Json :=
  .object (members.map fun (name, value) => (some name, value))

/-- A new line with an indentation. -/
def newLine (indent : Nat) : String := String.ofList ('\n' :: List.replicate (2 * indent) ' ')

mutual

/-- A value whose lines are indented; the first one is not. -/
def render (indent : Nat) : Json → String
  | .null => "null"
  | .bool value => if value then "true" else "false"
  | .natural value => numeral value
  | .number written => written
  | .text value => quote (value.getD "")
  | .array [] => "[]"
  | .array (item :: items) =>
    "[" ++ newLine (indent + 1) ++ render (indent + 1) item ++ renderItems (indent + 1) items ++
      newLine indent ++ "]"
  | .object [] => "\x7b\x7d"
  | .object ((name, value) :: members) =>
    "\x7b" ++ newLine (indent + 1) ++ quote (name.getD "") ++ ": " ++ render (indent + 1) value ++
      renderMembers (indent + 1) members ++ newLine indent ++ "\x7d"

/-- The items of an array after its first one. -/
def renderItems (indent : Nat) : List Json → String
  | [] => ""
  | item :: items => "," ++ newLine indent ++ render indent item ++ renderItems indent items

/-- The members of an object after its first one. -/
def renderMembers (indent : Nat) : List (Option String × Json) → String
  | [] => ""
  | (name, value) :: members =>
    "," ++ newLine indent ++ quote (name.getD "") ++ ": " ++ render indent value ++
      renderMembers indent members

end

/-- A value in the readable layout, without a line end. -/
def pretty (value : Json) : String := render 0 value

end Concordance.Json
