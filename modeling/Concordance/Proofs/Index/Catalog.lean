import Concordance.Analyzer.Stored
import Concordance.Index.Catalog
import Concordance.Proofs.Files.Text
import Concordance.Proofs.Json.RoundTrip

/-!
# Concordance.Proofs.Index.Catalog

The files of an index are read as they were written: the catalog of its segments, and the analyzer
beside it.

* `ofText?_toText` — the segments of a catalog;
* `Analyzer.ofText?_toText` — an analyzer whose token length is a number of 64 bits.
-/

namespace Concordance

open Json (IsWhole)

/-! ## the catalog -/

namespace Index.Catalog

theorem isWhole_tokens (tokens : List Token) : IsWhole (tokensJson tokens) := by
  refine .array fun v hv => ?_
  obtain ⟨t, -, rfl⟩ := List.mem_map.mp hv
  refine .array fun v hv => ?_
  simp only [List.mem_cons, List.not_mem_nil, or_false] at hv
  obtain rfl | rfl := hv
  · exact .natural t.position
  · exact .text t.text

theorem isWhole_entry (e : Entry) : IsWhole (entryJson e) := by
  have htitle : IsWhole (optionalJson e.title) := by
    cases e.title with
    | none => exact .null
    | some title => exact .text title
  refine .array fun v hv => ?_
  simp only [List.mem_cons, List.not_mem_nil, or_false] at hv
  obtain rfl | rfl | rfl | rfl | rfl | rfl := hv
  · exact .natural e.ordinal
  · exact htitle
  all_goals exact isWhole_tokens _

theorem isWhole_toJson (segments : List Segment) : IsWhole (toJson segments) := by
  have hsegments : IsWhole (.array (segments.map segmentJson)) := by
    refine .array fun v hv => ?_
    obtain ⟨s, -, rfl⟩ := List.mem_map.mp hv
    refine .array fun v hv => ?_
    obtain ⟨e, -, rfl⟩ := List.mem_map.mp hv
    exact isWhole_entry e
  refine .object fun m hm => ?_
  obtain rfl := List.mem_singleton.mp hm
  exact hsegments

theorem tokens?_tokensJson (tokens : List Token) : tokens? (tokensJson tokens) = some tokens :=
  mapM_map_eq_some fun _ _ => rfl

theorem entry?_entryJson (e : Entry) : entry? (entryJson e) = some e := by
  have htitle : Config.optionalText? (optionalJson e.title) = some e.title := by
    cases e.title <;> rfl
  simp only [entryJson, entry?, natural?, htitle, tokens?_tokensJson]
  rfl

theorem ofJson?_toJson (segments : List Segment) : ofJson? (toJson segments) = some segments := by
  have hsegment : ∀ s : Segment, segment? (segmentJson s) = some s := fun s =>
    mapM_map_eq_some fun e _ => entry?_entryJson e
  simp only [toJson, Json.ofMembers, List.map_cons, List.map_nil, ofJson?, if_true]
  exact mapM_map_eq_some fun s _ => hsegment s

/-- The segments of a catalog are those it was written from. -/
theorem ofText?_toText (segments : List Segment) : ofText? (toText segments) = some segments := by
  rw [ofText?, toText, Json.parse?_pretty (isWhole_toJson segments)]
  exact ofJson?_toJson segments

end Index.Catalog

/-! ## the analyzer -/

namespace Analyzer

theorem isWhole_toJson (a : Analyzer) : IsWhole a.toJson := by
  have hwords : IsWhole (.array (a.stopWords.map Json.ofText)) := by
    refine .array fun v hv => ?_
    obtain ⟨word, -, rfl⟩ := List.mem_map.mp hv
    exact .text word
  refine .object fun m hm => ?_
  simp only [List.mem_cons, List.not_mem_nil, or_false] at hm
  obtain rfl | rfl := hm
  · exact hwords
  · exact .natural a.maxTokenLength

/-- The analyzer of a file is the one it was written from. -/
theorem ofText?_toText {a : Analyzer} (h : a.maxTokenLength < Decimal.wordLimit) :
    ofText? a.toText = some a := by
  have hwords : Config.texts? (.array (a.stopWords.map Json.ofText)) = some a.stopWords :=
    mapM_map_eq_some fun _ _ => rfl
  have hlength : Config.word? (.natural a.maxTokenLength) = some a.maxTokenLength := if_pos h
  have hne : maxTokenLengthName ≠ stopWordsName := by decide
  have hmembers : Json.namedMembers?
      [(some stopWordsName, .array (a.stopWords.map Json.ofText)),
        (some maxTokenLengthName, .natural a.maxTokenLength)] =
      some [(stopWordsName, .array (a.stopWords.map Json.ofText)),
        (maxTokenLengthName, .natural a.maxTokenLength)] := rfl
  have hread : Found.read {}
      [(stopWordsName, .array (a.stopWords.map Json.ofText)),
        (maxTokenLengthName, .natural a.maxTokenLength)] =
      some ⟨some a.stopWords, some a.maxTokenLength⟩ := by
    simp [Found.read, hwords, hne, hlength]
  rw [ofText?, toText, Json.parse?_pretty a.isWhole_toJson]
  simp only [toJson, Json.ofMembers, List.map_cons, List.map_nil, Option.bind_some, ofJson?,
    hmembers, Option.bind_eq_bind, hread]
  rfl

end Analyzer

end Concordance
