import Concordance.Growth.Tracker
import Concordance.Index.Store

/-!
# Concordance.Indexing.Sink

What documents are fed into: something that analyzes text, takes documents and publishes them on a
commit.  Any of the three may fail, and may change the state of the sink also where it fails.
-/

namespace Concordance

/-- A sink for documents with a state. -/
structure Sink (σ : Type) where
  /-- The terms of a text in a field, in order. -/
  tokenize : (field text : String) → σ → Except Fault (List String) × σ
  /-- Take a document. -/
  add : Document → σ → Except Fault Unit × σ
  /-- Publish what was taken. -/
  commit : σ → Except Fault Unit × σ

namespace Sink

/-! ## an index as a sink -/

/-- An index together with the workspace it is in. -/
structure Indexed where
  workspace : Workspace
  index : OpenIndex

/-- A job on the index of a workspace; where it fails, the index is left as `failed` says. -/
def step (failed : OpenIndex → OpenIndex) (job : OpenIndex → Job OpenIndex) (s : Indexed) :
    Except Fault Unit × Indexed :=
  match (job s.index).run s.workspace with
  | (.ok index, w) => (.ok (), ⟨w, index⟩)
  | (.error e, w) => (.error e, ⟨w, failed s.index⟩)

/-- An index as a sink. -/
def ofIndex : Sink Indexed where
  tokenize field text s := (s.index.index.tokenize field text, s)
  add d := step id (·.add d)
  commit := step OpenIndex.afterFailure (·.commit)

/-! ## a sink that keeps a record -/

/-- A call of a sink. -/
inductive Call
  | tokenize (field : String)
  | add (ordinal : Nat)
  | commit
  deriving DecidableEq, Repr

/-- The text of a call. -/
def Call.text : Call → String
  | .tokenize field => s!"tokenize {field}"
  | .add ordinal => s!"add {Decimal.numeral ordinal}"
  | .commit => "commit"

/-- The words of a text: what stands between single spaces. -/
def words (text : String) : List String := (text.toList.splitOn ' ').map String.ofList

/-- Note a call, and fail on the one with the given text. -/
def note (failing : Option String) (call : Call) (answer : α) (calls : List Call) :
    Except Fault α × List Call :=
  (if failing = some call.text then .error (.lexicon (.reported "sink failed")) else .ok answer,
    call :: calls)

/-- A sink that keeps a record of its calls, the last one first. -/
def recording (failing : Option String) : Sink (List Call) where
  tokenize field text := note failing (.tokenize field) (words text)
  add d := note failing (.add d.ordinal) ()
  commit := note failing .commit ()

end Sink

end Concordance
