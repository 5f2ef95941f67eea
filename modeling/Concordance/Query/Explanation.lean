import Concordance.Json.Printer
import Concordance.Query.Match
import Concordance.Text.Quoted

/-!
# Concordance.Query.Explanation

Why a document has its score: the numbers that it is made of, as a tree.

* `explain_nothing` — where nothing matches there is nothing to explain.
-/

namespace Concordance.Query

open Index (Entry Segment)

/-- A number with what it means and the numbers it is made of. -/
inductive Explanation
  | node (value : Float32) (description : String) (details : List Explanation)
    (context : List String)
  deriving Repr

namespace Explanation

/-- The number. -/
def value : Explanation → Float32
  | .node value _ _ _ => value

/-- A number that is not made of others. -/
def constant (description : String) (value : Float32) : Explanation := .node value description [] []

mutual

/-- An explanation as a JSON value. -/
def toJson : Explanation → Json
  | .node value description details context =>
    Json.ofMembers
      ([("value", Json.ofSingle value), ("description", Json.ofText description)] ++
        (match details with
        | [] => []
        | details => [("details", Json.array (detailsJson details))]) ++
        (if context.isEmpty then [] else [("context", .array (context.map Json.ofText))]))

/-- The values of explanations. -/
def detailsJson : List Explanation → List Json
  | [] => []
  | d :: ds => d.toJson :: detailsJson ds

end

/-- The text of an explanation. -/
def render (e : Explanation) : String := e.toJson.pretty

end Explanation

/-- The explanation of a weight. -/
def Weight.explainRarity (w : Weight) : Explanation :=
  match w.withTerm with
  | [n] =>
    .node w.rarity "idf, computed as log(1 + (N - n + 0.5) / (n + 0.5))"
      [.constant "n, number of docs containing this term" (single n),
        .constant "N, total number of docs" (single w.documents)] []
  | _ => .constant "idf" w.rarity

/-- The explanation of a term's or phrase's score. -/
def Weight.explain (w : Weight) (length occurrences : Nat) (context : List String) : Explanation :=
  .node (w.score 1.0 length occurrences) "TermQuery, product of..."
    [.constant "(K1+1)" (saturation + 1.0), w.explainRarity,
      .node (w.frequencyFactor length occurrences) "freq / (freq + k1 * (1 - b + b * dl / avgdl))"
        [.constant "freq, occurrences of term within document" (single occurrences),
          .constant "k1, term saturation parameter" saturation,
          .constant "b, length normalization parameter" lengthWeight,
          .constant "dl, length of field" (single length),
          .constant "avgdl, average length of field" w.averageLength] []]
    context

/-- The description of a term. -/
def Term.describe : Term → String
  | .text field token => s!"Term=Term(field={field.number}, type=Str, {Text.quoted token})"
  | .ordinal n => s!"Term=Term(field=0, type=U64, {n})"

/-- A boost as it is written. -/
def boostText (factor : Float32) : String :=
  match Decimal.ofSingle factor with
  | .finite x => x.plain
  | .infinite false => "inf"
  | .infinite true => "-inf"
  | .undefined => "NaN"

mutual

/-- Why a document has its score, if it matches. -/
def explain (e : Entry) : Weighted → Option Explanation
  | .clause parts =>
    (score e 1.0 (.clause parts)).map fun s =>
      .node s "BooleanClause. sum of ..." (explainParts e parts) []
  | .term t weight =>
    match t.occurrences e with
    | 0 => none
    | n => some (weight.explain (t.length e) n [t.describe])
  | .phrase field tokens weight =>
    match phraseOccurrences field tokens e with
    | 0 => none
    | n =>
      let detail := weight.explain (keptLength (e.tokens field).length) n []
      some (.node detail.value "Phrase Scorer" [detail] [])
  | .all => some (.constant "AllQuery" 1.0)
  | .boost inner factor =>
    (explain e inner).map fun d =>
      .node (d.value * factor) s!"Boost x{boostText factor} of ..." [d] []

/-- The explanations of the parts that match and are not excluded. -/
def explainParts (e : Entry) : List (Occur × Weighted) → List Explanation
  | [] => []
  | (occur, q) :: rest =>
    let more := explainParts e rest
    if occur = .mustNot then more
    else
      match explain e q with
      | some d => d :: more
      | none => more

end

/-- Where nothing matches there is nothing to explain. -/
theorem explain_nothing (entries : List Entry) (e : Entry) :
    explain e (weigh entries nothing) = none := by
  simp [nothing, weigh, weighParts, explain, score, partScores, joinScores]

/-- The first document with an ordinal, and its position in its segment. -/
def locate (segments : List Segment) (ordinal : Nat) : Option (Entry × Nat) :=
  (segments.flatMap List.zipIdx).find? fun (e, _) => e.ordinal = ordinal

/-- The explanation of the score of the document with an ordinal. -/
def explainAt (segments : List Segment) (q : Query) (ordinal : Nat) : Except Fault String :=
  match locate segments ordinal with
  | none => .error (.lexicon (.noDocument ordinal))
  | some (e, position) =>
    match explain e (weigh segments.flatten q) with
    | none => .error (.index (.noMatch position))
    | some explanation => .ok explanation.render

end Concordance.Query
