import Concordance.Config.Reader
import Concordance.Proofs.Files.Text
import Concordance.Proofs.Files.Walk
import Concordance.Proofs.Json.Grammar

/-!
# Concordance.Proofs.Config.Given

The settings of a file are the default ones with those replaced that its object names.  The order of
the members, members with other names and white space make no difference.

* `put?_of_stands` — a value of its kind replaces one setting;
* `putMembers?_of_gives` — the members of an object replace the settings that they name;
* `ofFile_given` — the settings of a file, once they pass the check.
-/

namespace Concordance.Config

open Files
open Json (ofMembers Padded Spells)

/-! ## values -/

/-- What a setting is set to. -/
def Setting.Value : Setting → Type
  | .indexFolder | .field => String
  | .growthFolder => Option String
  | .regenerate => Bool
  | .stopWords => List String
  | .parser => Query.Style
  | .writerMemory | .maxTokenLength | .resultLimit => Nat

/-- The value of a setting. -/
def value (c : Config) : (s : Setting) → s.Value
  | .indexFolder => c.indexFolder
  | .growthFolder => c.growthFolder
  | .field => c.field
  | .regenerate => c.regenerate
  | .writerMemory => c.writerMemory
  | .stopWords => c.stopWords
  | .maxTokenLength => c.maxTokenLength
  | .parser => c.parser
  | .resultLimit => c.resultLimit

/-- Settings with one of them replaced. -/
def put (c : Config) : (s : Setting) → s.Value → Config
  | .indexFolder, v => { c with indexFolder := v }
  | .growthFolder, v => { c with growthFolder := v }
  | .field, v => { c with field := v }
  | .regenerate, v => { c with regenerate := v }
  | .writerMemory, v => { c with writerMemory := v }
  | .stopWords, v => { c with stopWords := v }
  | .maxTokenLength, v => { c with maxTokenLength := v }
  | .parser, v => { c with parser := v }
  | .resultLimit, v => { c with resultLimit := v }

/-- A JSON value that stands for a number of 64 bits. -/
def StandsForWord (n : Nat) (json : Json) : Prop := json = .natural n ∧ n < Decimal.wordLimit

/-- A JSON value that stands for the value of a setting: a text, a text or nothing, a truth value, a
number of 64 bits, a list of texts, or the name of a style, alone or as the only member of an
object. -/
def Setting.Stands : (s : Setting) → s.Value → Json → Prop
  | .indexFolder, text, json | .field, text, json => json = Json.ofText text
  | .growthFolder, text, json => json = text.elim .null Json.ofText
  | .regenerate, answer, json => json = .bool answer
  | .stopWords, texts, json => json = .array (List.map Json.ofText texts)
  | .parser, style, json =>
      json = Json.ofText (Query.Style.name style) ∨
        json = ofMembers [(Query.Style.name style, .null)]
  | .writerMemory, n, json | .maxTokenLength, n, json | .resultLimit, n, json =>
      StandsForWord n json

/-- Values of some of the settings. -/
abbrev Given := (s : Setting) → Option s.Value

/-- The default settings with those replaced that are given. -/
def Given.config (given : Given) : Config where
  indexFolder := (given .indexFolder).getD ({} : Config).indexFolder
  growthFolder := (given .growthFolder).getD ({} : Config).growthFolder
  field := (given .field).getD ({} : Config).field
  regenerate := (given .regenerate).getD ({} : Config).regenerate
  writerMemory := (given .writerMemory).getD ({} : Config).writerMemory
  stopWords := (given .stopWords).getD ({} : Config).stopWords
  maxTokenLength := (given .maxTokenLength).getD ({} : Config).maxTokenLength
  parser := (given .parser).getD ({} : Config).parser
  resultLimit := (given .resultLimit).getD ({} : Config).resultLimit

/-- The values of the members of a name. -/
def valuesOf (name : String) (members : List (String × Json)) : List Json :=
  (members.filter (·.1 == name)).map Prod.snd

/-- Members that give settings: what is given is there once, with a value that stands for it, and
what is not given is not there.  Members with other names are of any kind. -/
def Gives (members : List (String × Json)) (given : Given) : Prop :=
  ∀ s : Setting, match given s with
    | none => valuesOf s.name members = []
    | some v => ∃ json, valuesOf s.name members = [json] ∧ s.Stands v json

/-! ## one setting -/

theorem value_put (c : Config) (s : Setting) (v : s.Value) : (c.put s v).value s = v := by
  cases s <;> rfl

theorem value_put_of_ne (c : Config) {s s' : Setting} (h : s' ≠ s) (v : s.Value) :
    (c.put s v).value s' = c.value s' := by
  cases s <;> cases s' <;> first | rfl | exact absurd rfl h

theorem eq_of_value {c d : Config} (h : ∀ s, c.value s = d.value s) : c = d := by
  cases c
  cases d
  simp only [mk.injEq]
  exact ⟨h .indexFolder, h .growthFolder, h .field, h .regenerate, h .writerMemory, h .stopWords,
    h .maxTokenLength, h .parser, h .resultLimit⟩

theorem Given.value_config (given : Given) (s : Setting) :
    given.config.value s = (given s).getD (({} : Config).value s) := by
  cases s <;> rfl

theorem word?_of_standsForWord {n : Nat} {json : Json} (h : StandsForWord n json) :
    word? json = some n := by
  obtain ⟨rfl, hn⟩ := h
  exact if_pos hn

theorem texts?_ofText (texts : List String) :
    texts? (.array (texts.map Json.ofText)) = some texts :=
  mapM_map_eq_some fun _ _ => rfl

theorem style?_of_stands {style : Query.Style} {json : Json}
    (h : json = Json.ofText style.name ∨ json = ofMembers [(style.name, .null)]) :
    style? json = some style := by
  obtain rfl | rfl := h <;> exact Query.Style.ofName?_name style

/-- A value of its kind replaces one setting. -/
theorem put?_of_stands (c : Config) {s : Setting} {v : s.Value} {json : Json}
    (h : s.Stands v json) : c.put? json s = some (c.put s v) := by
  cases s with
  | indexFolder | field | regenerate =>
      obtain rfl := h
      rfl
  | growthFolder =>
      obtain rfl := h
      cases v <;> rfl
  | stopWords =>
      obtain rfl := h
      exact congrArg (Option.map _) (texts?_ofText v)
  | parser => exact congrArg (Option.map _) (style?_of_stands h)
  | writerMemory | maxTokenLength | resultLimit =>
      exact congrArg (Option.map _) (word?_of_standsForWord h)

/-! ## objects -/

theorem Setting.ofName?_name (s : Setting) : Setting.ofName? s.name = some s := by
  cases s <;> decide

theorem Setting.name_of_ofName? {name : String} {s : Setting} (h : Setting.ofName? name = some s) :
    name = s.name := by
  have := List.find?_some h
  exact (beq_iff_eq.mp this).symm

theorem valuesOf_cons_self (name : String) (json : Json) (rest : List (String × Json)) :
    valuesOf name ((name, json) :: rest) = json :: valuesOf name rest := by
  simp [valuesOf]

theorem valuesOf_cons_of_ne {name other : String} (h : other ≠ name) (json : Json)
    (rest : List (String × Json)) : valuesOf name ((other, json) :: rest) = valuesOf name rest := by
  simp [valuesOf, h]

theorem Gives.eq_none {given : Given} (h : Gives [] given) (s : Setting) : given s = none := by
  have hs := h s
  cases hgiven : given s with
  | none => rfl
  | some v =>
      rw [hgiven] at hs
      obtain ⟨_, hjson, -⟩ := hs
      cases hjson

/-- A member of another name gives nothing. -/
theorem Gives.of_cons_other {name : String} {json : Json} {rest : List (String × Json)}
    {given : Given} (h : Gives ((name, json) :: rest) given)
    (hname : ∀ s : Setting, name ≠ s.name) : Gives rest given := fun s => by
  have hs := h s
  rwa [valuesOf_cons_of_ne (hname s)] at hs

/-- A member of a setting gives it, and those behind it give all the others. -/
theorem Gives.of_cons_setting {s : Setting} {json : Json} {rest : List (String × Json)}
    {given : Given} (h : Gives ((s.name, json) :: rest) given) :
    (∃ v, given s = some v ∧ s.Stands v json) ∧ Gives rest (Function.update given s none) := by
  have hs := h s
  rw [valuesOf_cons_self] at hs
  cases hgiven : given s with
  | none =>
      rw [hgiven] at hs
      cases hs
  | some v =>
      rw [hgiven] at hs
      obtain ⟨_, hjson, hstands⟩ := hs
      obtain ⟨rfl, hnone⟩ := List.cons.inj hjson
      refine ⟨⟨v, rfl, hstands⟩, fun s' => ?_⟩
      by_cases heq : s' = s
      · subst heq
        rw [Function.update_self]
        exact hnone
      · have hne : s.name ≠ s'.name := fun hname => heq (Setting.setting_name_inj hname).symm
        have hs' := h s'
        rw [valuesOf_cons_of_ne hne] at hs'
        rwa [Function.update_of_ne heq]

/-- The members of an object replace the settings that they name. -/
theorem putMembers?_of_gives {members : List (String × Json)} {given : Given}
    (hgives : Gives members given) {seen : List Setting} (hseen : ∀ s ∈ seen, given s = none)
    (c : Config) :
    ∃ d, putMembers? seen c members = some d ∧ ∀ s, d.value s = (given s).getD (c.value s) := by
  induction members generalizing given seen c with
  | nil => exact ⟨c, rfl, fun s => by rw [hgives.eq_none s, Option.getD_none]⟩
  | cons m rest ih =>
      obtain ⟨name, json⟩ := m
      cases hname : Setting.ofName? name with
      | none =>
          have hrest := hgives.of_cons_other fun s heq => by
            rw [heq, Setting.ofName?_name] at hname
            cases hname
          obtain ⟨d, hput, hvalue⟩ := ih hrest hseen c
          exact ⟨d, by rw [putMembers?, hname]; exact hput, hvalue⟩
      | some s =>
          obtain rfl := Setting.name_of_ofName? hname
          obtain ⟨⟨v, hgiven, hstands⟩, hrest⟩ := hgives.of_cons_setting
          have hnew : seen.contains s = false := by
            rw [List.contains_eq_mem, decide_eq_false_iff_not]
            intro hmem
            rw [hseen s hmem] at hgiven
            cases hgiven
          have hseen' : ∀ s' ∈ s :: seen, Function.update given s none s' = none := by
            intro s' hs'
            by_cases heq : s' = s
            · subst heq
              exact Function.update_self ..
            · rw [Function.update_of_ne heq]
              exact hseen s' ((List.mem_cons.mp hs').resolve_left heq)
          obtain ⟨d, hput, hvalue⟩ := ih hrest hseen' (c.put s v)
          refine ⟨d, ?_, fun s' => ?_⟩
          · rw [putMembers?, hname]
            simp only [hnew, put?_of_stands c hstands]
            exact hput
          · rw [hvalue]
            by_cases heq : s' = s
            · subst heq
              rw [Function.update_self, hgiven, Option.getD_none, Option.getD_some, value_put]
            · rw [Function.update_of_ne heq, value_put_of_ne c heq]

theorem namedMembers?_ofMembers (members : List (String × Json)) :
    Json.namedMembers? (members.map fun (name, value) => (some name, value)) = some members :=
  mapM_map_eq_some fun _ _ => rfl

theorem ofJson?_of_gives {members : List (String × Json)} {given : Given}
    (hgives : Gives members given) : ofJson? (ofMembers members) = some given.config := by
  obtain ⟨d, hput, hvalue⟩ :=
    putMembers?_of_gives hgives (fun _ hs => absurd hs List.not_mem_nil) {}
  have hd : d = given.config := eq_of_value fun s => by rw [hvalue, given.value_config]
  rw [ofMembers, ofJson?, namedMembers?_ofMembers, Option.bind_some, hput, hd]

/-! ## files -/

/-- The check fails with a fault of the configuration. -/
theorem check_error {c : Config} {e : Fault} (h : c.check = .error e) :
    ∃ cause, e = .config cause := by
  unfold check at h
  split at h
  · cases h
    exact ⟨_, rfl⟩
  split at h
  · cases h
    exact ⟨_, rfl⟩
  split at h
  · cases h
    exact ⟨_, rfl⟩
  split at h
  · cases h
    exact ⟨_, rfl⟩
  · cases h

theorem ofFile_of_gives {members : List (String × Json)} {given : Given}
    (hgives : Gives members given) {p : Padded} (hspells : Spells (ofMembers members) p.chars)
    {t : Tree} {path : String}
    (hfile : t.readBytes path = .ok (Tree.bytesOf (String.ofList p.text))) :
    ofFile t path =
      match given.config.check with
      | .error e => .error e
      | .ok _ => .ok given.config := by
  have hread : t.readText path = .ok (String.ofList p.text) := by
    rw [Tree.readText, hfile]
    simp only [Tree.textOf?_bytesOf]
  have htext : ofFile t path = ofText (String.ofList p.text) := by rw [ofFile, hread]
  have hjson : (Json.parse? (String.ofList p.text)).bind ofJson? = some given.config := by
    rw [Json.parse?_of_spells hspells, Option.bind_some, ofJson?_of_gives hgives]
  rw [htext, ofText, hjson]
  rfl

/-- **Settings from a file**: the default ones with those replaced that the object in it gives, if
they pass the check, and the fault of the check otherwise. -/
theorem ofFile_given {members : List (String × Json)} {given : Given} (hgives : Gives members given)
    {p : Padded} (hspells : Spells (ofMembers members) p.chars) {t : Tree} {path : String}
    (hfile : t.readBytes path = .ok (Tree.bytesOf (String.ofList p.text))) :
    (given.config.check = .ok () → ofFile t path = .ok given.config) ∧
      ∀ e, given.config.check = .error e →
        (∃ cause, e = .config cause) ∧ ofFile t path = .error e := by
  have hread := ofFile_of_gives hgives hspells hfile
  refine ⟨fun hcheck => ?_, fun e hcheck => ⟨check_error hcheck, ?_⟩⟩
  · rw [hread, hcheck]
  · rw [hread, hcheck]

/-- Items of every kind. -/
def sampleItems : List (Json × Padded) :=
  [(ofMembers [], ⟨[], "\x7b \x7d".toList, [], by decide, by decide⟩),
    (.number "-1.5e+3", ⟨['\n'], "-1.5e+3".toList, [], by decide, by decide⟩),
    (Json.ofText "😀", ⟨[], "\"\\ud83D\\uDe00\"".toList, ['\t'], by decide, by decide⟩)]

/-- Members in another order than the settings, the first one unknown, the second one with an escape
in its name. -/
def sampleMembers : List Json.Member :=
  [⟨"x", ⟨[], "\"x\"".toList, [], by decide, by decide⟩, .array (sampleItems.map Prod.fst),
      ⟨[' '], '[' :: (Json.separated (sampleItems.map (·.2.text)) ++ [']']), [],
        by decide, by decide⟩⟩,
    ⟨"field", ⟨['\r', '\n'], "\"fi\\u0065ld\"".toList, [' '], by decide, by decide⟩,
      Json.ofText "title", ⟨[], "\"title\"".toList, [], by decide, by decide⟩⟩,
    ⟨"heap_dir", ⟨[], "\"heap_dir\"".toList, [], by decide, by decide⟩, .null,
      ⟨[], "null".toList, [' '], by decide, by decide⟩⟩,
    ⟨"result_limit", ⟨[], "\"result_limit\"".toList, [], by decide, by decide⟩, .natural 7,
      ⟨[' '], "7".toList, [], by decide, by decide⟩⟩]

/-- The object of the members, with a line end behind it. -/
def samplePadded : Padded :=
  ⟨[], '\x7b' :: (Json.separated (sampleMembers.map Json.Member.text) ++ ['\x7d']), ['\n'],
    by decide, by decide⟩

/-- Its text. -/
def sampleText : String :=
  "\x7b\"x\": [\x7b \x7d,\n-1.5e+3,\"\\ud83D\\uDe00\"\t],\r\n\"fi\\u0065ld\" :\"title\"," ++
    "\"heap_dir\":null ,\"result_limit\": 7\x7d\n"

/-- What the members give. -/
def sampleGiven : Given
  | .field => some "title"
  | .growthFolder => some none
  | .resultLimit => some (7 : Nat)
  | _ => none

theorem gives_sample : Gives (sampleMembers.map Json.Member.pair) sampleGiven := by
  intro s
  cases s
  case field => exact ⟨Json.ofText "title", rfl, rfl⟩
  case growthFolder => exact ⟨.null, rfl, rfl⟩
  case resultLimit => exact ⟨.natural 7, rfl, rfl, by decide⟩
  all_goals rfl

theorem spells_sampleItems : ∀ item ∈ sampleItems, Spells item.1 item.2.chars := by
  have hdigit : ∀ d : Char, d.isDigit = true → Json.AreDigits [d] := fun d hd =>
    ⟨List.cons_ne_nil d [], by simpa using hd⟩
  have hnumber : Json.IsNumber "-1.5e+3".toList :=
    .negative 1 (.some (hdigit '5' rfl)) (.some (.inl rfl) (.inr (.inl rfl)) (hdigit '3' rfl))
  have hface : Json.SpellsChar '😀' ('\\' :: 'u' :: ['d', '8', '3', 'D'] ++
      '\\' :: 'u' :: ['D', 'e', '0', '0']) :=
    .halves (by decide) (by decide) (by decide)
  simp only [sampleItems, List.forall_mem_cons]
  exact ⟨.emptyObject (show Json.IsPadding [' '] by decide), .number hnumber,
    .text (@Json.SpellsQuoted.quoted "😀" _ (.cons hface .nil)), by simp⟩

theorem spells_samplePadded :
    Spells (ofMembers (sampleMembers.map Json.Member.pair)) samplePadded.chars := by
  have hself : ∀ text : String, Json.AreOrdinary text.toList →
      Json.SpellsQuoted text ('"' :: text.toList ++ ['"']) := fun _ h =>
    .quoted (Json.spellsChars_self _ h)
  have hcode : Json.SpellsChar 'e' ('\\' :: 'u' :: ['0', '0', '6', '5']) :=
    .code (by decide) (by decide)
  have hfield := Json.SpellsChars.cons (c := 'f') (.plain (by decide) (by decide) (by decide))
    (.cons (c := 'i') (.plain (by decide) (by decide) (by decide))
      (.cons hcode (Json.spellsChars_self ['l', 'd'] (by decide))))
  refine .object (List.cons_ne_nil _ _) ?_ ?_
  · simp only [sampleMembers, List.forall_mem_cons]
    exact ⟨hself "x" (by decide), @Json.SpellsQuoted.quoted "field" _ hfield,
      hself "heap_dir" (by decide), hself "result_limit" (by decide), by simp⟩
  · simp only [sampleMembers, List.forall_mem_cons]
    exact ⟨.array (List.cons_ne_nil _ _) spells_sampleItems, .text (hself "title" (by decide)),
      .null, .natural 7, by simp⟩

/-- A folder with a file of this text. -/
def sampleFolder : Tree where
  home := ["work"]
  nodes := [([], .folder), (["work"], .folder),
    (["work", "a.json"], .file (Tree.bytesOf sampleText) none)]

theorem ofFile_given_sample :
    Gives (sampleMembers.map Json.Member.pair) sampleGiven ∧
      Spells (ofMembers (sampleMembers.map Json.Member.pair)) samplePadded.chars ∧
      String.ofList samplePadded.text = sampleText ∧
      sampleFolder.readBytes "a.json" = .ok (Tree.bytesOf sampleText) ∧
      ofFile sampleFolder "a.json" = .ok { field := "title", resultLimit := 7 } := by
  have htext : String.ofList samplePadded.text = sampleText := by decide
  have hcheck : sampleGiven.config.check = .ok () := by decide
  have hread : sampleFolder.readBytes "a.json" = .ok (Tree.bytesOf sampleText) :=
    Tree.readBytes_name (by constructor <;> decide) rfl (by decide) rfl
  have hfile := htext.symm ▸ hread
  exact ⟨gives_sample, spells_samplePadded, htext, hread,
    (ofFile_given gives_sample spells_samplePadded hfile).1 hcheck⟩

end Concordance.Config
