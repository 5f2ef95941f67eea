import Concordance.CommandLine.Program

/-!
# Concordance.Main

The program.  The part of the disk that a run looks at is read into a tree of files, the run works
on the tree, and what it changed there is written back.  What a run does is said in
`CommandLine.Program`; here are only the calls of the operating system.
-/

namespace Concordance.Disk

open Files CommandLine

/-! ## reading the disk -/

/-- What stands at a place of the disk; links are not followed.  A link that leads nowhere is taken
for one to a name that nothing has, and a file that cannot be read for an empty one. -/
def look (place : Place) : IO (Option Node) := do
  let path := (← IO.currentDir) / Tree.pathOf true place
  let .ok about ← path.symlinkMetadata.toBaseIO | return none
  match about.type with
  | .dir => return some .folder
  | .symlink =>
    let .ok target ← (IO.FS.realPath path).toBaseIO | return some (.link "\x01")
    return some (.link (if (← path.pathExists) then target.toString else "\x01"))
  | .file =>
    let .ok content ← (IO.FS.readBinFile path).toBaseIO | return some (.file [] none)
    return some (.file content.toList none)
  | .other => return some (if place = ["dev", "full"] then .fullDevice else .file [] none)

/-- A tree with all that names lead through from a folder, and the place they lead to. -/
partial def follow (t : Tree) (here : Place) : List String → IO (Tree × Option Place)
  | [] => return (t, some here)
  | ".." :: rest => follow t here.dropLast rest
  | name :: rest => do
    let place := here ++ [name]
    match ← look place with
    | none => return (t, none)
    | some (.link target) =>
      let start := if isAbsolute target then [] else here
      let (t, reached) ← follow (t.put place (.link target)) start (names target)
      match reached with
      | none => return (t, none)
      | some reached => follow t reached rest
    | some node => follow (t.put place node) place rest

/-- A tree with what stands below a folder of the disk, at all depths if asked.  A folder that the
disk does not list is not listed in the tree either. -/
partial def lookBelow (deep : Bool) (t : Tree) (folder : Place) : IO Tree := do
  let path := (← IO.currentDir) / Tree.pathOf true folder
  let .ok entries ← path.readDir.toBaseIO
    | return { t with limits := { t.limits with unlisted := folder :: t.limits.unlisted } }
  let mut t := t
  for entry in entries do
    let place := folder ++ [entry.fileName]
    match ← look place with
    | none => pure ()
    | some node =>
      t := t.put place node
      if deep && node == .folder then t ← lookBelow deep t place
  return t

/-- A tree with what a path leads to, to an extent. -/
def load (t : Tree) (path : String) (extent : Extent) : IO Tree := do
  let (t, reached) ← follow t (if isAbsolute path then [] else t.home) (names path)
  match reached, extent with
  | some place, .children => lookBelow false t place
  | some place, .everything => lookBelow true t place
  | _, _ => return t

/-- The tree of the folder that the program is called in. -/
def start : IO Tree := do
  let home := names (← IO.currentDir).toString
  let (t, _) ← follow { home := home, nodes := [([], .folder)] } [] home
  return t

/-! ## writing the disk -/

/-- Remove what stands at a place of the disk. -/
def remove (place : Place) (node : Node) : IO Unit := do
  let path := (← IO.currentDir) / Tree.pathOf true place
  if node == .folder then IO.FS.removeDirAll path else IO.FS.removeFile path

/-- Put something at a place of the disk.  Runs make no links. -/
def put (place : Place) (node : Node) : IO Unit := do
  let path := (← IO.currentDir) / Tree.pathOf true place
  match node with
  | .folder => IO.FS.createDir path
  | .file content _ => IO.FS.writeBinFile path ⟨content.toArray⟩
  | _ => return ()

/-- Bring the disk from one tree to another. -/
def store (before after : Tree) : IO Unit := do
  for (place, node) in before.nodes.reverse do
    if (after.node? place).isNone then remove place node
  for (place, node) in after.nodes do
    if before.node? place != some node then put place node

end Concordance.Disk

open Concordance CommandLine in
/-- Run the program on the words of its command line. -/
def main (words : List String) : IO UInt32 := do
  let environment ← IO.getEnv environmentVariable
  let mut files ← Disk.start
  if let some path := settingsFile? environment words then
    files ← Disk.load files path .itself
  for (path, extent) in filesOf environment words files do
    files ← Disk.load files path extent
  let r := CommandLine.run environment words { files := files }
  let stored ← (Disk.store files r.workspace.files).toBaseIO
  (← IO.getStdout).putStr r.console
  for warning in r.warnings do
    (← IO.getStderr).putStr s!"WARN {warning.message}\n"
  (← IO.getStderr).putStr r.complaint
  match stored with
  | .ok () => return r.exitCode.toUInt32
  | .error e =>
    (← IO.getStderr).putStr s!"Error: {e}\n"
    return 1
