/-!
# Concordance.Files.Path

Paths as texts, and the places they lead through as lists of names.

* `join_inj` — below one folder, different names give different paths.
-/

namespace Concordance.Files

/-- A place in the tree: the names that lead to it from the root. -/
abbrev Place := List String

/-- Whether a path starts at the root. -/
def isAbsolute (path : String) : Bool := path.toList.head? == some '/'

/-- Whether a path can only mean a folder, because it ends in a slash. -/
def demandsFolder (path : String) : Bool := path.toList.getLast? == some '/'

/-- A path below another one, as written: an absolute one stands for itself, and exactly one slash
is put between the two where there is none. -/
def join (base path : String) : String :=
  if isAbsolute path || base.isEmpty then path
  else if demandsFolder base then base ++ path
  else base ++ "/" ++ path

/-- The names of a path, without the empty ones and the single dots. -/
def names (path : String) : List String :=
  ((path.toList.splitOn '/').map String.ofList).filter fun name => !(name == "" || name == ".")

/-- The path to a place below a folder, as written. -/
def joinAll (base : String) (place : Place) : String := place.foldl join base

/-- Below one folder, different names give different paths. -/
theorem join_inj {base a b : String} (ha : isAbsolute a = false) (hb : isAbsolute b = false)
    (h : join base a = join base b) : a = b := by
  unfold join at h
  simp only [ha, hb, Bool.false_or] at h
  split at h
  · exact h
  · split at h <;> exact String.append_right_inj _ |>.1 h

/-- Whether a place comes before another or is the same, name by name in byte order; a place comes
before all places below it. -/
def notAfter : Place → Place → Bool
  | [], _ => true
  | _ :: _, [] => false
  | a :: as, b :: bs => if a < b then true else if b < a then false else notAfter as bs

end Concordance.Files
