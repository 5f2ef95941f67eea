import Concordance.Growth.Sheet

/-!
# Concordance.Growth.Files

The growth files of a run in a folder, one for each document.  The rows of a file pass through a
buffer, and any piece of them, or the empty line behind them, can be refused.  A failure names the
file it is about and leaves the files after it as they were.
-/

namespace Concordance.Growth

open Files

/-! ## one file -/

/-- The header of a growth file and the lines of its points. -/
def rows (points : List Point) : List Char := "ttl,unique\n".toList ++ points.flatMap renderPoint

/-- How many bytes may wait for a file. -/
def bufferSize : Nat := 8192

/-- Bytes as they come to a file: each time that as many wait as may, and what is
left at the end. -/
def pieces (bytes : List UInt8) : List (List UInt8) :=
  if bytes.length ≤ bufferSize then [bytes]
  else bytes.take bufferSize :: pieces (bytes.drop bufferSize)
termination_by bytes.length
decreasing_by
  simp only [bufferSize, List.length_drop] at *
  omega

/-- Write pieces to an open file, up to the first that is refused. -/
def appendPieces (t : Tree) (place : Place) : List (List UInt8) → Tree × Except Refusal Unit
  | [] => (t, .ok ())
  | piece :: rest =>
    match t.append place piece with
    | (t, .error e) => (t, .error e)
    | (t, .ok ()) => appendPieces t place rest

/-- Write the growth file of one document: the rows, and once they are in the
file the empty line. -/
def writeSheet (t : Tree) (path : String) (points : List Point) : Tree × Except Refusal Unit :=
  match t.create path with
  | .error e => (t, .error e)
  | .ok (place, t) =>
    match appendPieces t place (pieces (Tree.bytesOf (String.ofList (rows points)))) with
    | (t, .error e) => (t, .error e)
    | (t, .ok ()) => t.append place (Tree.bytesOf "\n")

/-! ## all files -/

/-- Write the growth files of the documents from an ordinal on; also their paths. -/
def writeFiles (t : Tree) (folder : String) :
    Nat → List (List Point) → Tree × Except Fault (List String)
  | _, [] => (t, .ok [])
  | document, points :: rest =>
    let path := join folder (fileName document)
    match writeSheet t path points with
    | (t, .error e) => (t, .error (.growth path (.refused e)))
    | (t, .ok ()) =>
      match writeFiles t folder (document + 1) rest with
      | (t, .error e) => (t, .error e)
      | (t, .ok paths) => (t, .ok (path :: paths))

/-- Write the growth of every document to a folder, which is made if needed; also the paths of the
files, by ordinal. -/
def Tracker.save (tracker : Tracker) (t : Tree) (folder : String) :
    Tree × Except Fault (List String) :=
  match t.makeFolders folder with
  | (t, .error e) => (t, .error (.growth folder (.refused e)))
  | (t, .ok ()) => writeFiles t folder 0 tracker.curves

/-- The points of a growth file.  A folder is read as a file without records. -/
def load (t : Tree) (path : String) : Except Fault (List Point) :=
  match t.readBytes path with
  | .error .isAFolder => .ok []
  | .error e => .error (.growth path (.refused e))
  | .ok bytes =>
    match read bytes with
    | .error e => .error (.growth path e)
    | .ok points => .ok points

end Concordance.Growth
