import Concordance.CommandLine.Output
import Concordance.Proofs.Files.Text
import Concordance.Proofs.Json.RoundTrip

/-!
# Concordance.Proofs.CommandLine.Digest

Printed digests are read back.  A reader takes the text for a JSON value and looks for the members
by their names.

* `readDigest?` — what a reader takes from a text;
* `readDigest?_text` — of a printed digest that is all that the digest says.
-/

namespace Concordance

namespace Json

/-- The member of an object with a name. -/
def member? (v : Json) (name : String) : Option Json :=
  match v with
  | .object members => members.lookup (some name)
  | _ => none

/-- The text that a value is. -/
def text? : Json → Option String
  | .text value => value
  | _ => none

/-- The natural number that a value is. -/
def natural? : Json → Option Nat
  | .natural value => some value
  | _ => none

/-- The items of an array. -/
def items? : Json → Option (List Json)
  | .array items => some items
  | _ => none

end Json

namespace CommandLine

open Json (IsWhole)
open Statistics (Entry)

/-! ## readers -/

/-- What a reader learns of a term.  The inverse document frequency is left as it is written. -/
structure TermReading where
  term : String
  documentFrequency : Nat
  collectionFrequency : Nat
  inverseDocumentFrequency : Json
  termFrequencies : List Nat

/-- What a reader learns from a digest. -/
structure DigestReading where
  field : String
  totalDocuments : Nat
  entries : List TermReading
  missing : List String

/-- Read what a digest says of a term. -/
def readTerm? (v : Json) : Option TermReading := do
  let term ← (← v.member? "term").text?
  let documentFrequency ← (← v.member? "document_frequency").natural?
  let collectionFrequency ← (← v.member? "collection_frequency").natural?
  let inverseDocumentFrequency ← v.member? "inverse_document_frequency"
  let termFrequencies ← (← (← v.member? "term_frequencies").items?).mapM Json.natural?
  return ⟨term, documentFrequency, collectionFrequency, inverseDocumentFrequency, termFrequencies⟩

/-- Read a printed digest. -/
def readDigest? (text : String) : Option DigestReading := do
  let v ← Json.parse? text
  let field ← (← v.member? "field").text?
  let totalDocuments ← (← v.member? "total_documents").natural?
  let entries ← (← (← v.member? "entries").items?).mapM readTerm?
  let missing ← (← (← v.member? "missing").items?).mapM Json.text?
  return ⟨field, totalDocuments, entries, missing⟩

/-- What is to be learned of an entry. -/
def TermReading.ofEntry (e : Entry) : TermReading where
  term := e.term
  documentFrequency := e.documentFrequency.toNat
  collectionFrequency := e.collectionFrequency.toNat
  inverseDocumentFrequency := .ofDouble e.inverseDocumentFrequency
  termFrequencies := e.termFrequencies.map UInt64.toNat

/-! ## what is printed -/

theorem isWhole_statisticsJson (e : Entry) : IsWhole (statisticsJson e) := by
  refine .object fun m hm => ?_
  simp only [List.mem_cons, List.not_mem_nil, or_false] at hm
  obtain rfl | rfl | rfl | rfl | rfl := hm
  · exact .text _
  · exact .natural _
  · exact .natural _
  · exact Json.isWhole_ofDouble _
  · refine .array fun item hitem => ?_
    obtain ⟨n, -, rfl⟩ := List.mem_map.mp hitem
    exact .natural _

theorem TermDigest.isWhole_toJson (r : TermDigest) : IsWhole r.toJson := by
  refine .object fun m hm => ?_
  simp only [List.mem_cons, List.not_mem_nil, or_false] at hm
  obtain rfl | rfl | rfl | rfl := hm
  · exact .text _
  · exact .natural _
  · refine .array fun item hitem => ?_
    obtain ⟨e, -, rfl⟩ := List.mem_map.mp hitem
    exact isWhole_statisticsJson e
  · refine .array fun item hitem => ?_
    obtain ⟨term, -, rfl⟩ := List.mem_map.mp hitem
    exact .text term

theorem readTerm?_statisticsJson (e : Entry) :
    readTerm? (statisticsJson e) = some (.ofEntry e) := by
  have hfrequencies : (e.termFrequencies.map fun n => Json.natural n.toNat).mapM Json.natural? =
      some (e.termFrequencies.map UInt64.toNat) := mapM_map_eq_some_map fun _ _ => rfl
  have hmembers : readTerm? (statisticsJson e) =
      ((e.termFrequencies.map fun n => Json.natural n.toNat).mapM Json.natural?).bind fun ns =>
        some { TermReading.ofEntry e with termFrequencies := ns } := rfl
  rw [hmembers, hfrequencies]
  rfl

/-- A reader of a printed digest learns what the digest says. -/
theorem readDigest?_text (r : TermDigest) : readDigest? r.text =
    some ⟨r.field, r.totalDocuments, r.entries.map .ofEntry, r.missing⟩ := by
  have hparse : Json.parse? r.text = some r.toJson :=
    Json.parse?_pretty_append r.isWhole_toJson "\n" (by decide)
  have hentries : (r.entries.map statisticsJson).mapM readTerm? = some (r.entries.map .ofEntry) :=
    mapM_map_eq_some_map fun e _ => readTerm?_statisticsJson e
  have hmissing : (r.missing.map Json.ofText).mapM Json.text? = some r.missing :=
    mapM_map_eq_some fun _ _ => rfl
  have hmembers : readDigest? r.text =
      (Json.parse? r.text).bind fun _ => ((r.entries.map statisticsJson).mapM readTerm?).bind
        fun entries => ((r.missing.map Json.ofText).mapM Json.text?).bind fun missing =>
          some ⟨r.field, r.totalDocuments, entries, missing⟩ := by
    rw [readDigest?, hparse]
    rfl
  rw [hmembers, hparse, hentries, hmissing]
  rfl

end CommandLine

end Concordance
