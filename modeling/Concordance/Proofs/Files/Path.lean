import Concordance.Files.Tree
import Mathlib.Tactic.Common

/-!
# Concordance.Proofs.Files.Path

The names that paths are made of.

* `names_join`, `names_pathOf` — the names of a path below a folder, and of the path of a place.
-/

namespace Concordance.Files

/-- A name that something in a folder can have. -/
structure IsName (name : String) : Prop where
  nonempty : name ≠ ""
  dot : name ≠ "."
  up : name ≠ ".."
  slash : '/' ∉ name.toList
  nul : '\x00' ∉ name.toList

/-- The names among the texts between slashes. -/
def properNames (parts : List (List Char)) : List String :=
  (parts.map String.ofList).filter fun name => !(name == "" || name == ".")

theorem names_eq (path : String) : names path = properNames (path.toList.splitOn '/') := rfl

theorem properNames_append (xs ys : List (List Char)) :
    properNames (xs ++ ys) = properNames xs ++ properNames ys := by
  simp [properNames]

section Name

variable {name : String} (h : IsName name)
include h

theorem IsName.names : names name = [name] := by
  have hsplit : name.toList.splitOn '/' = [name.toList] := List.splitOn_eq_singleton h.slash
  simp [names_eq, hsplit, properNames, h.nonempty, h.dot]

theorem IsName.isAbsolute : isAbsolute name = false := by
  have hhead : name.toList.head? ≠ some '/' := fun heq => h.slash (List.mem_of_head? heq)
  simpa [Files.isAbsolute] using hhead

/-- The characters of a path below a folder: one slash stands before the name. -/
theorem toList_join (base : String) :
    (base = "" ∧ join base name = name) ∨
      (base ≠ "" ∧ ∃ cs, (base.toList = cs ∨ base.toList = cs ++ ['/']) ∧
        (join base name).toList = cs ++ '/' :: name.toList) := by
  unfold join
  rw [h.isAbsolute, Bool.false_or]
  by_cases hempty : base = ""
  · exact .inl ⟨hempty, if_pos (by simp [hempty])⟩
  refine .inr ⟨hempty, ?_⟩
  rw [if_neg (by simpa using hempty)]
  by_cases hslash : demandsFolder base = true
  · have hlast : base.toList.getLast? = some '/' := by simpa [demandsFolder] using hslash
    obtain ⟨cs, hcs⟩ := List.getLast?_eq_some_iff.mp hlast
    exact ⟨cs, .inr hcs, by simp [hslash, hcs]⟩
  · exact ⟨base.toList, .inl rfl, by simp [hslash]⟩

theorem names_join (base : String) : Files.names (join base name) = Files.names base ++ [name] := by
  obtain ⟨rfl, hjoin⟩ | ⟨-, cs, hbase, hjoin⟩ := toList_join h base
  · rw [hjoin, h.names]
    simp [names_eq, properNames]
  · have hcs : Files.names base = properNames (cs.splitOn '/') := by
      obtain hbase | hbase := hbase
      · rw [names_eq, hbase]
      · rw [names_eq, hbase, List.splitOn_append_cons_self, properNames_append]
        simp [properNames]
    rw [names_eq, hjoin, List.splitOn_append_cons_self, properNames_append, ← hcs, ← names_eq,
      h.names]

theorem isAbsolute_join (base : String) :
    Files.isAbsolute (join base name) = Files.isAbsolute base := by
  obtain ⟨rfl, hjoin⟩ | ⟨hne, cs, hbase, hjoin⟩ := toList_join h base
  · rw [hjoin, h.isAbsolute]
    simp [Files.isAbsolute]
  · rw [Files.isAbsolute, Files.isAbsolute, hjoin]
    cases cs with
    | nil =>
        obtain hbase | hbase := hbase
        · exact absurd (String.toList_eq_nil_iff.mp hbase) hne
        · simp [hbase]
    | cons c cs => obtain hbase | hbase := hbase <;> simp [hbase]

theorem demandsFolder_join (base : String) : demandsFolder (join base name) = false := by
  have hlast : name.toList.getLast? ≠ some '/' := fun heq => h.slash (List.mem_of_getLast? heq)
  have hne : name.toList ≠ [] := by simpa using h.nonempty
  have hname : demandsFolder name = false := by simpa [demandsFolder] using hlast
  obtain ⟨-, hjoin⟩ | ⟨-, cs, -, hjoin⟩ := toList_join h base
  · rw [hjoin, hname]
  · obtain ⟨first, rest, hcons⟩ := List.exists_cons_of_ne_nil hne
    rw [← hname, demandsFolder, demandsFolder, hjoin, hcons]
    simp

theorem join_ne_empty (base : String) : join base name ≠ "" := by
  obtain ⟨-, hjoin⟩ | ⟨-, cs, -, hjoin⟩ := toList_join h base
  · rw [hjoin]
    exact h.nonempty
  · intro heq
    simp [heq] at hjoin

theorem nul_mem_join_iff (base : String) :
    '\x00' ∈ (join base name).toList ↔ '\x00' ∈ base.toList := by
  obtain ⟨rfl, hjoin⟩ | ⟨-, cs, hbase, hjoin⟩ := toList_join h base
  · simp [hjoin, h.nul]
  · obtain hbase | hbase := hbase <;> simp [hjoin, hbase, h.nul]

end Name

/-- The names of the path of a place are the place. -/
theorem names_pathOf {place : Place} (h : ∀ name ∈ place, IsName name) :
    names (Tree.pathOf true place) = place := by
  have hslash : ∀ cs ∈ place.map String.toList, '/' ∉ cs := by
    intro cs hcs
    obtain ⟨name, hname, rfl⟩ := List.mem_map.mp hcs
    exact (h name hname).slash
  have hproper : properNames (place.map String.toList) = place := by
    have hname : ∀ name ∈ place, (!(name == "" || name == ".")) = true := fun name hname => by
      simp [(h name hname).nonempty, (h name hname).dot]
    simpa [properNames, Function.comp_def] using hname
  have hpath : (Tree.pathOf true place).toList =
      '/' :: ['/'].intercalate (place.map String.toList) := by
    simp [Tree.pathOf]
  have hfirst := List.splitOn_append_cons_self [] (['/'].intercalate (place.map String.toList))
    (a := '/')
  rw [List.nil_append] at hfirst
  rw [names_eq, hpath, hfirst, properNames_append]
  cases hplace : place with
  | nil => simp [properNames, List.intercalate]
  | cons first rest =>
      have hne : place.map String.toList ≠ [] := by simp [hplace]
      rw [← hplace, List.splitOn_intercalate _ hslash hne, hproper]
      simp [properNames]

end Concordance.Files
