import Concordance.Query.Score

/-!
# Concordance.Query.Match

Which documents match a query, and with which score.

A clause with required parts is matched where all of them are; without required parts, where one of
the optional ones is.  An excluded part that matches spoils the match.  The scores of the matching
parts that are not excluded add up.

* `score_nothing` — the query that asks for nothing is matched by no document.
-/

namespace Concordance.Query

open Index (Entry Segment)

/-! ## terms in documents -/

/-- How often a document has a term.  Fields that are not taken apart only tell whether they have
it. -/
def Term.occurrences (t : Term) (e : Entry) : Nat :=
  match t with
  | .ordinal n => if e.ordinal = n then 1 else 0
  | .text .bib token => if (e.terms .bib).contains token then 1 else 0
  | .text field token => (e.terms field).count token

/-- The length of a term's field in a document, as it is kept. -/
def Term.length (t : Term) (e : Entry) : Nat :=
  match t with
  | .ordinal _ => 1
  | .text field _ => keptLength (e.tokens field).length

/-- How often the tokens stand in a field at their distances. -/
def phraseOccurrences (field : TextField) (tokens : List Token) (e : Entry) : Nat :=
  match tokens with
  | [] => 0
  | first :: rest =>
    let present := e.tokens field
    let starts := present.filter fun t => t.text == first.text
    starts.countP fun start =>
      rest.all fun t =>
        present.any fun p =>
          p.text == t.text && p.position + first.position == start.position + t.position

/-! ## weights -/

/-- In how many documents a term occurs. -/
def Term.documents (t : Term) (entries : List Entry) : Nat :=
  entries.countP fun e => t.occurrences e != 0

/-- The average length of a text field, before lengths are rounded. -/
def averageLength (field : TextField) (entries : List Entry) : Float32 :=
  single (entries.foldl (fun total e => total + (e.tokens field).length) 0) / single entries.length

/-- The weight of terms of a text field. -/
def textWeight (field : TextField) (tokens : List String) (entries : List Entry) : Weight where
  documents := entries.length
  withTerm := tokens.map fun t => (Term.text field t).documents entries
  averageLength := averageLength field entries

/-- The weight of a term. -/
def Term.weight (t : Term) (entries : List Entry) : Weight :=
  match t with
  | .text field token => textWeight field [token] entries
  | .ordinal n => ⟨entries.length, [(Term.ordinal n).documents entries], 1.0⟩

/-- A query with its weights. -/
inductive Weighted
  | clause (parts : List (Occur × Weighted))
  | term (t : Term) (weight : Weight)
  | phrase (field : TextField) (tokens : List Token) (weight : Weight)
  | all
  | boost (inner : Weighted) (factor : Float32)
  deriving Repr

mutual

/-- A query with the weights that documents give it. -/
def weigh (entries : List Entry) : Query → Weighted
  | .clause parts => .clause (weighParts entries parts)
  | .term t => .term t (t.weight entries)
  | .phrase field tokens =>
    .phrase field tokens (textWeight field (tokens.map Token.text) entries)
  | .all => .all
  | .boost inner factor => .boost (weigh entries inner) factor

/-- The parts of a clause with their weights. -/
def weighParts (entries : List Entry) : List (Occur × Query) → List (Occur × Weighted)
  | [] => []
  | (occur, q) :: rest => (occur, weigh entries q) :: weighParts entries rest

end

/-! ## matching -/

/-- The sum of scores. -/
def sum : List Float32 → Float32
  | [] => 0.0
  | s :: rest => rest.foldl (· + ·) s

/-- The score of a clause from the scores of its parts. -/
def joinScores (parts : List (Occur × Option Float32)) : Option Float32 :=
  match parts with
  | [(occur, score)] => if occur = .mustNot then none else score
  | _ =>
    let of (occur : Occur) := (parts.filter (·.1 = occur)).map Prod.snd
    let required := of .must
    let optional := (of .should).filterMap id
    if (of .mustNot).any Option.isSome then none
    else if required.any Option.isNone then none
    else if required.isEmpty && optional.isEmpty then none
    else if required.isEmpty then some (sum optional)
    else if optional.isEmpty then some (sum (required.filterMap id))
    else some (sum (required.filterMap id) + sum optional)

mutual

/-- The score of a document, if it matches. -/
def score (e : Entry) (boost : Float32) : Weighted → Option Float32
  | .clause parts => joinScores (partScores e boost parts)
  | .term t weight =>
    match t.occurrences e with
    | 0 => none
    | n => some (weight.score boost (t.length e) n)
  | .phrase field tokens weight =>
    match phraseOccurrences field tokens e with
    | 0 => none
    | n => some (weight.score boost (keptLength (e.tokens field).length) n)
  | .all => some (1.0 * boost)
  | .boost inner factor => score e (boost * factor) inner

/-- The scores of the parts of a clause. -/
def partScores (e : Entry) (boost : Float32) :
    List (Occur × Weighted) → List (Occur × Option Float32)
  | [] => []
  | (occur, q) :: rest => (occur, score e boost q) :: partScores e boost rest

end

/-- The query that asks for nothing is matched by no document. -/
theorem score_nothing (entries : List Entry) (e : Entry) (boost : Float32) :
    score e boost (weigh entries nothing) = none := by
  simp [nothing, weigh, weighParts, score, partScores, joinScores]

/-- A document that matches a query. -/
structure Hit where
  ordinal : Nat
  score : Float32
  title : Option String
  deriving Repr

/-- The documents that match a query, the best one first and equal ones in the order in which they
were added, up to a limit. -/
def search (segments : List Segment) (q : Query) (limit : Nat) : List Hit :=
  let entries := segments.flatten
  let weighted := weigh entries q
  let hits := entries.filterMap fun e =>
    (score e 1.0 weighted).map fun s => { ordinal := e.ordinal, score := s, title := e.title }
  (hits.mergeSort fun a b => decide (b.score ≤ a.score)).take limit

end Concordance.Query
