import Concordance.Files.Tree

/-!
# Concordance.Proofs.Files.Text

Texts as bytes of a file: what was written is read back, and texts of ASCII characters have one byte
for each character.

* `mapM_map_eq_some_map`, `mapM_map_eq_some` — a list is read item by item;
* `textOf?_bytesOf` — the text of the bytes of a text;
* `bytesOf_append`, `bytesOf_ofList_of_ascii` — how the bytes of a text are made up.
-/

namespace Concordance

/-- What is read item by item from a list that was written item by item. -/
theorem mapM_map_eq_some_map {α β γ : Type} {f : α → β} {g : β → Option γ} {k : α → γ}
    {xs : List α} (h : ∀ x ∈ xs, g (f x) = some (k x)) : (xs.map f).mapM g = some (xs.map k) := by
  induction xs with
  | nil => rfl
  | cons x xs ih =>
      rw [List.map_cons, List.mapM_cons, h x List.mem_cons_self,
        ih fun y hy => h y (List.mem_cons_of_mem x hy)]
      rfl

/-- A list is read item by item from what was written item by item. -/
theorem mapM_map_eq_some {α β : Type} {f : α → β} {g : β → Option α} {xs : List α}
    (h : ∀ x ∈ xs, g (f x) = some x) : (xs.map f).mapM g = some xs := by
  have hread := mapM_map_eq_some_map (k := id) h
  rwa [List.map_id] at hread

namespace Files.Tree

theorem textOf?_bytesOf (text : String) : textOf? (bytesOf text) = some text := by
  have hbytes : (⟨(bytesOf text).toArray⟩ : ByteArray) = text.toByteArray := by
    rw [bytesOf, Array.toArray_toList]
    rfl
  rw [textOf?, hbytes, String.fromUTF8?, dif_pos text.isValidUTF8]
  rfl

theorem bytesOf_append (a b : String) : bytesOf (a ++ b) = bytesOf a ++ bytesOf b := by
  simp [bytesOf, String.toUTF8]

theorem bytesOf_ofList (cs : List Char) :
    bytesOf (.ofList cs) = cs.flatMap String.utf8EncodeChar := by
  simp [bytesOf, String.toUTF8, List.utf8Encode]

theorem utf8EncodeChar_of_ascii {c : Char} (h : c.toNat < 128) :
    String.utf8EncodeChar c = [c.toNat.toUInt8] :=
  if_pos (Nat.le_of_lt_succ h)

theorem bytesOf_ofList_of_ascii {cs : List Char} (h : ∀ c ∈ cs, c.toNat < 128) :
    bytesOf (.ofList cs) = cs.map (·.toNat.toUInt8) := by
  rw [bytesOf_ofList]
  induction cs with
  | nil => rfl
  | cons c cs ih =>
      rw [List.flatMap_cons, utf8EncodeChar_of_ascii (h c List.mem_cons_self),
        ih fun c' hc' => h c' (List.mem_cons_of_mem c hc')]
      rfl

end Files.Tree

end Concordance
