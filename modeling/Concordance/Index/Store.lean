import Concordance.Analyzer.Stored
import Concordance.Index.Basic
import Concordance.Index.Catalog
import Concordance.Workspace

/-!
# Concordance.Index.Store

Indexes in folders.  The folder holds a catalog of the published segments and the analyzer that the
documents were analyzed with, which wins over the one that the settings ask for.  An index with
documents is reused; one without is built anew.

While a writer is open on a folder, another writer there is refused.
-/

namespace Concordance

open Files

/-- An index that can be worked with, and the folder it is in unless it is in memory only. -/
structure OpenIndex where
  index : Index
  folder : Option Place := none
  deriving Repr

namespace OpenIndex

/-- How an index was found. -/
inductive Found
  /-- It holds no documents yet. -/
  | created
  /-- It holds documents. -/
  | existing
  deriving DecidableEq, Repr

/-- The name of the catalog file in the folder of an index. -/
def catalogName : String := "meta.json"

/-- The name of the file with the analyzer of an index. -/
def analyzerName : String := "termstat-analyzer.json"

/-- Whether a folder holds an index, perhaps an empty one. -/
def isPresent (t : Tree) (path : String) : Bool := t.isFile (join path catalogName)

/-- The path of a place. -/
def absolute (place : Place) : String := Tree.pathOf true place

/-- The segments in the catalog of a folder, which are mapped into memory. -/
def readCatalog (t : Tree) (folder : Place) : Except Fault (List Index.Segment) :=
  match t.readText (join (absolute folder) catalogName) with
  | .error _ => .error (.index .unusable)
  | .ok text =>
    match Index.Catalog.ofText? text with
    | none => .error (.index .unusable)
    | some segments =>
      if !segments.isEmpty && t.limits.unmapped.contains folder then .error (.index .unusable)
      else .ok segments

/-- Publish segments in the catalog of a folder, all of them or none. -/
def writeCatalog (segments : List Index.Segment) (folder : Place) (t : Tree) :
    Tree × Except Fault Unit :=
  match t.replace (join (absolute folder) catalogName)
      (Tree.bytesOf (Index.Catalog.toText segments)) with
  | (t, .ok ()) => (t, .ok ())
  | (t, .error _) => (t, .error (.index .unusable))

/-! ## opening -/

/-- The locks that are left when what a path names is removed. -/
def locksWithout (t : Tree) (path : String) (locks : List Place) : List Place :=
  match t.resolve false path with
  | .ok spot => locks.filter fun lock => !spot.place.isPrefixOf lock
  | .error _ => locks

/-- Remove the folder of an index with all in it, and the writers open there. -/
def removeIndex (path : String) : Job Unit := do
  let before ← get
  if before.files.isThere path then
    Job.alter fun t =>
      let (t, answer) := t.removeFolder path
      (t, Job.filesFault answer)
    modify fun w => { w with locks := locksWithout before.files path w.locks }

/-- The place of the folder of an index. -/
def folderAt (path : String) (t : Tree) : Except Fault Place :=
  match t.resolve true path with
  | .ok ⟨place, some .folder⟩ => .ok place
  | _ => .error (.indexFolder path)

/-- The segments of the catalog in a folder; an empty catalog is written where there is none. -/
def openCatalog (folder : Place) : Job (List Index.Segment) := do
  if (← get).files.isThere (join (absolute folder) catalogName) then
    Job.inspect fun t => readCatalog t folder
  else
    Job.alter (writeCatalog [] folder)
    return []

/-- The analyzer in the file beside an index. -/
def readAnalyzer (path : String) (t : Tree) : Except Fault Analyzer :=
  match t.readText path with
  | .error e => .error (.files e)
  | .ok text =>
    match Analyzer.ofText? text with
    | none => .error .json
    | some a => .ok a

/-- Write the file of an analyzer. -/
def writeAnalyzer (path : String) (a : Analyzer) (t : Tree) : Tree × Except Fault Unit :=
  let (t, answer) := t.write path (Tree.bytesOf a.toText)
  (t, Job.filesFault answer)

/-- The analyzer of an index: the one stored beside it if it has documents, or else the one that the
settings ask for, which is stored. -/
def openAnalyzer (c : Config) (found : Found) : Job Analyzer := do
  let path := join c.indexFolder analyzerName
  let wanted := Analyzer.ofConfig c
  if found = .existing ∧ (← get).files.isFile path = true then
    let stored ← Job.inspect (readAnalyzer path)
    if stored ≠ wanted then Job.warn .analyzerOfIndexUsed
    return stored
  else
    Job.alter (writeAnalyzer path wanted)
    return wanted

/-- Open the index in the folder that the settings name, making it if there is none.  With
`regenerate` what is there is removed first. -/
def openFolder (c : Config) : Job (OpenIndex × Found) := do
  if c.regenerate then removeIndex c.indexFolder
  Job.alter fun t =>
    let (t, answer) := t.makeFolders c.indexFolder
    (t, Job.filesFault answer)
  let folder ← Job.inspect (folderAt c.indexFolder)
  let segments ← openCatalog folder
  let found := if segments.isEmpty then Found.created else Found.existing
  let analyzer ← openAnalyzer c found
  let index : Index :=
    { analyzer := analyzer, writerMemory := c.writerMemory, stored := segments,
      published := segments }
  return ({ index := index, folder := some folder }, found)

/-- An empty index in memory. -/
def inMemory (c : Config) : OpenIndex := { index := Index.empty c }

/-! ## writing -/

/-- Give a folder's writer up. -/
def unlock (folder : Place) : Job Unit := modify fun w => { w with locks := w.locks.erase folder }

/-- Open a writer on a folder.  It publishes after what the catalog holds now. -/
def openWriter (i : Index) (folder : Place) : Job Index := do
  if (← get).locks.contains folder then throw (.index .locked)
  Job.ofExcept (Index.checkMemory i.writerMemory)
  let base ← Job.inspect fun t => readCatalog t folder
  modify fun w => { w with locks := folder :: w.locks }
  return { i with writer := some { base := base } }

/-- Add a document, opening a writer if needed. -/
def add (o : OpenIndex) (d : Document) : Job OpenIndex := do
  match o.folder, o.index.writer with
  | some folder, none =>
    let index ← openWriter o.index folder
    return { o with index := index.enqueue d }
  | _, _ =>
    let index ← Job.ofExcept (o.index.add d)
    return { o with index := index }

/-- Write what was added to the catalog of a folder and give the writer up. -/
def commitWriter (i : Index) (folder : Place) : Job Unit := do
  match i.writer with
  | none => return ()
  | some w =>
    unlock folder
    Job.alter (writeCatalog w.segments folder)

/-- The index as it is left by a commit that fails: without its writer. -/
def afterFailure (o : OpenIndex) : OpenIndex := { o with index := { o.index with writer := none } }

/-- Publish what was added.  Reads see the catalog as it is then. -/
def commit (o : OpenIndex) : Job OpenIndex := do
  match o.folder with
  | none => return { o with index := o.index.commit }
  | some folder =>
    commitWriter o.index folder
    let segments ← Job.inspect fun t => readCatalog t folder
    return { o with index := { o.index with stored := segments, writer := none }.reload }

/-- Leave an index; what was added and not published is lost. -/
def close (o : OpenIndex) : Job Unit := do
  match o.folder, o.index.writer with
  | some folder, some _ => unlock folder
  | _, _ => return ()

end OpenIndex

end Concordance
