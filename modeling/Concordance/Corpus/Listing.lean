import Concordance.Corpus.Markup
import Concordance.Fault
import Concordance.Files.Tree

/-!
# Concordance.Corpus.Listing

The corpus as a folder of document files.  The listing is sorted, so that the ordinal of a document
does not depend on the order in which the file system answers.  It ends at the first folder that
cannot be listed.

* `mem_entries_iff` — what the listing holds: the regular files below the root whose own name does
  not start with a dot.
-/

namespace Concordance.Corpus

open Files

/-- Whether a place below the root is a document file: a regular file whose own name does not start
with a dot. -/
def isDocumentFile : Place × Node → Bool
  | (place, .file _ _) =>
    match place.getLast? with
    | some name => !(name.toList.head? == some '.')
    | none => false
  | _ => false

/-- The places of the document files among the entries below a root, in order. -/
def entries (below : List (Place × Node)) : List Place :=
  ((below.filter isDocumentFile).map Prod.fst).mergeSort notAfter

/-- The first folder at a root or below it whose names are not read, by its place below the root. -/
def unlisted? (t : Tree) (root : Place) : Option Place :=
  (([] :: (t.below root).map Prod.fst).filter fun p => t.isUnlisted (root ++ p)).mergeSort notAfter
    |>.head?

/-- The paths of the document files below a root. -/
def list (t : Tree) (root : String) : Except Fault (List String) :=
  match t.resolve true root with
  | .ok ⟨place, some .folder⟩ =>
    match unlisted? t place with
    | some folder => .error (.walk (joinAll root folder) .denied)
    | none => .ok ((entries (t.below place)).map (joinAll root))
  | _ => .error (.corpus (.notAFolder root))

/-- The documents at paths, whose ordinals count up from a first one.  The first file that cannot be
read ends the reading. -/
def read (t : Tree) : Nat → List String → Except Fault (List Document)
  | _, [] => .ok []
  | ordinal, path :: paths =>
    match t.readText path with
    | .error e => .error (.files e)
    | .ok text =>
      match read t (ordinal + 1) paths with
      | .error e => .error e
      | .ok documents => .ok (Markup.parse text ordinal :: documents)

/-- The documents of a corpus, with ordinals in the order of the listing. -/
def load (t : Tree) (root : String) : Except Fault (List Document) :=
  match list t root with
  | .error e => .error e
  | .ok paths => read t 0 paths

/-- The listing holds exactly the document files. -/
theorem mem_entries_iff {below : List (Place × Node)} {place : Place} :
    place ∈ entries below ↔
      ∃ node, (place, node) ∈ below ∧ isDocumentFile (place, node) = true := by
  simp [entries, List.mem_mergeSort]

end Concordance.Corpus
