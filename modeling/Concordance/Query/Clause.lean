import Concordance.Analyzer.Basic
import Concordance.Query.Classic
import Concordance.Query.Lenient

/-!
# Concordance.Query.Clause

What a query asks for: its texts analyzed like the documents, its fields resolved, its signs
settled.

A query that only excludes is a fault; read leniently it is taken to ask for all documents but the
excluded ones.
-/

namespace Concordance

namespace Query

/-- A term of a document: a token of a text field, or the ordinal. -/
inductive Term
  | text (field : TextField) (token : String)
  | ordinal (n : Nat)
  deriving DecidableEq, Repr

end Query

/-- What a query asks for.  A clause without parts asks for nothing. -/
inductive Query
  | clause (parts : List (Query.Occur × Query))
  | term (t : Query.Term)
  /-- Tokens of a field at the given distances from each other. -/
  | phrase (field : TextField) (tokens : List Token)
  | all
  | boost (inner : Query) (factor : Float32)
  deriving Repr

namespace Query

open Decimal (readNumeral)

/-- The query that asks for nothing. -/
def nothing : Query := .clause []

/-- A query with a boost, unless that is one. -/
def boosted (q : Query) (factor : Float32) : Query :=
  if (factor - 1.0).abs < 1.1920929e-7 then q else .boost q factor

/-! ## fields and texts -/

/-- A field that can be asked for. -/
inductive Field
  | text (field : TextField)
  | ordinal

/-- The name of the field of ordinals. -/
def ordinalName : String := "ordinal"

/-- The field of a name. -/
def field? (name : String) : Option Field :=
  match TextField.ofName? name with
  | some f => some (.text f)
  | none => if name = ordinalName then some .ordinal else none

/-- The query for tokens of a field: nothing without tokens, a term for one, a phrase for more. -/
def ofTokens (field : TextField) : List Token → Query
  | [] => nothing
  | [t] => .term (.text field t.text)
  | tokens => .phrase field tokens

/-- The query for a text in a field. -/
def ofText (a : Analyzer) (text : String) : Field → Except QueryFault Query
  | .text field => .ok (ofTokens field (a.tokens field text))
  | .ordinal =>
    match readNumeral 10 text.toList with
    | .ok n => .ok (.term (.ordinal n))
    | .error e => .error (.notAnInteger e)

/-- The query for a literal, which is about the default field if it names none. -/
def ofLiteral (a : Analyzer) (default : TextField) (l : Literal) : Except QueryFault Query :=
  match l.field with
  | none => ofText a l.text (.text default)
  | some name =>
    match field? name with
    | none => .error (.unknownField name)
    | some field => ofText a l.text field

/-! ## trees -/

mutual

/-- What a tree asks for, and the faults of its literals in order.  A literal with a fault asks for
nothing. -/
def ofTree (a : Analyzer) (default : TextField) : Tree → Query × List QueryFault
  | .clause parts =>
    let (parts, faults) := ofParts a default parts
    (.clause parts, faults)
  | .literal l =>
    match ofLiteral a default l with
    | .ok q => (q, [])
    | .error e => (nothing, [e])
  | .all => (.all, [])
  | .boost inner factor =>
    let (q, faults) := ofTree a default inner
    (q.boosted factor.toFloat32, faults)

/-- What the parts of a clause ask for.  A part without a sign may match. -/
def ofParts (a : Analyzer) (default : TextField) :
    List (Option Occur × Tree) → List (Occur × Query) × List QueryFault
  | [] => ([], [])
  | (occur, t) :: rest =>
    let (q, faults) := ofTree a default t
    let (parts, more) := ofParts a default rest
    ((occur.getD .should, q) :: parts, faults ++ more)

end

mutual

/-- Whether a query asks for nothing but only excludes.  A clause without parts does so, too. -/
def onlyExcludes : Query → Bool
  | .clause parts => onlyExcludedParts parts
  | .boost inner _ => inner.onlyExcludes
  | _ => false

/-- Whether all parts are excluded or only exclude. -/
def onlyExcludedParts : List (Occur × Query) → Bool
  | [] => true
  | (occur, q) :: rest => (occur == .mustNot || q.onlyExcludes) && onlyExcludedParts rest

end

/-- The query with all documents as one more part of its outermost clause. -/
def withAll : Query → Query
  | .clause parts => .clause (parts ++ [(.should, .all)])
  | .boost inner factor => .boost inner.withAll factor
  | q => q

/-- Whether a query has no parts at all. -/
def isNothing : Query → Bool
  | .clause [] => true
  | _ => false

/-- Mend a query that only excludes; it is a fault as well.  The query that asks for nothing is left
alone. -/
def settle (q : Query) (faults : List QueryFault) : Query × List QueryFault :=
  if q.isNothing then (q, faults)
  else if q.onlyExcludes then (q.withAll, faults ++ [.onlyExcluding])
  else (q, faults)

mutual

/-- The query without the parts that ask for nothing. -/
def trim : Query → Query
  | .clause parts => .clause (trimParts parts)
  | .boost inner factor => .boost inner.trim factor
  | q => q

/-- The parts that ask for something. -/
def trimParts : List (Occur × Query) → List (Occur × Query)
  | [] => []
  | (occur, q) :: rest =>
    let q := q.trim
    if q.isNothing then trimParts rest else (occur, q) :: trimParts rest

end

/-! ## texts -/

/-- What a query text asks for, read strictly.  The first fault is the one reported. -/
def parseClassic (a : Analyzer) (default : TextField) (text : String) : Except QueryFault Query :=
  match Classic.parse? text with
  | none => .error (.malformed text)
  | some t =>
    let (q, faults) := ofTree a default t
    match settle q faults with
    | (q, []) => .ok q.trim
    | (_, fault :: _) => .error fault

/-- What a query text asks for, read leniently, and the number of faults. -/
def parseLenient (a : Analyzer) (default : TextField) (text : String) : Query × Nat :=
  let (t, mistakes) := Lenient.parse text
  let (q, faults) := ofTree a default t
  let (q, faults) := settle q faults
  (q.trim, mistakes + faults.length)

end Query

end Concordance
