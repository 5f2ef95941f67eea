import Concordance.Files.Path
import Concordance.Files.Refusal

/-!
# Concordance.Files.Tree

A tree of folders, files and links as a value, and the operations on it.  Every operation resolves
its path the way a file system does: links are followed, `..` leads to the parent of the folder
reached so far, and a name that leads through a file is refused.

A file may have limited room, so that a write to it can fail after some bytes; a device takes no
bytes at all.  What is refused whatever stands at a place is said by the limits of the tree, which
no operation changes.
-/

namespace Concordance.Files

/-- What stands at a place. -/
inductive Node
  | folder
  /-- A file, and how many bytes it can hold where that is limited. -/
  | file (content : List UInt8) (room : Option Nat)
  | link (target : String)
  /-- A device that never has room for a byte. -/
  | fullDevice
  deriving DecidableEq, Repr

/-- What is refused whatever stands at a place. -/
structure Limits where
  /-- The folders in which nothing is made or removed. -/
  closed : List Place := []
  /-- The folders whose names are not read. -/
  unlisted : List Place := []
  /-- The folders whose files are not mapped into memory. -/
  unmapped : List Place := []
  /-- How many bytes a file can hold that is made at a place, where that is limited. -/
  rooms : List (Place × Nat) := []
  deriving DecidableEq, Repr

/-- A tree of files and the folder that relative paths start from. -/
structure Tree where
  home : Place
  nodes : List (Place × Node)
  limits : Limits := {}
  deriving DecidableEq, Repr

namespace Tree

/-- What stands at a place. -/
def node? (t : Tree) (place : Place) : Option Node := t.nodes.lookup place

/-- Entries with the one of a place replaced, or added at the end. -/
def putIn (place : Place) (node : Node) : List (Place × Node) → List (Place × Node)
  | [] => [(place, node)]
  | (p, n) :: rest => if p = place then (place, node) :: rest else (p, n) :: putIn place node rest

/-- The tree with something put at a place. -/
def put (t : Tree) (place : Place) (node : Node) : Tree :=
  { t with nodes := putIn place node t.nodes }

/-! ## limits -/

/-- Whether nothing is made or removed at a place. -/
def isClosed (t : Tree) (place : Place) : Bool := t.limits.closed.contains place.dropLast

/-- Whether a place has a folder whose names are not read. -/
def isUnlisted (t : Tree) (place : Place) : Bool :=
  t.node? place = some .folder && t.limits.unlisted.contains place

/-- How many bytes a file can hold that is made at a place, where that is limited. -/
def roomFor (t : Tree) (place : Place) : Option Nat := t.limits.rooms.lookup place

/-- Whether a place is not reached by removing: nothing is removed there, or it is in a folder whose
names are not read. -/
def isStuck (t : Tree) (place : Place) : Bool :=
  t.isClosed place ||
    t.limits.unlisted.any fun folder => folder.isPrefixOf place && t.isUnlisted folder

/-- Whether what stands at a place stays where it is to be removed: a folder stays with what stays
below it. -/
def stays (t : Tree) (place : Place) : Bool :=
  t.isStuck place ||
    (t.node? place = some .folder && t.nodes.any fun e => place.isPrefixOf e.1 && t.isStuck e.1)

/-- The tree without a place and all below it, as far as that can be removed. -/
def removeBelow (t : Tree) (place : Place) : Tree :=
  { t with nodes := t.nodes.filter fun e => !place.isPrefixOf e.1 || t.stays e.1 }

/-! ## resolving paths -/

/-- Where a path leads, and what stands there. -/
structure Spot where
  place : Place
  node : Option Node
  deriving Repr

/-- How many links a path may lead through. -/
def linkLimit : Nat := 40

/-- The most bytes that a name may have. -/
def nameLimit : Nat := 255

/-- Walk from a folder along names.  A link at the end is followed only if asked. -/
def walk (t : Tree) (followLast : Bool) (links : Nat) (here : Place) (path : List String) :
    Except Refusal Spot :=
  match path with
  | [] => .ok ⟨here, t.node? here⟩
  | name :: rest =>
    match t.node? here with
    | none => .error .notFound
    | some .folder =>
      if name = ".." then t.walk followLast links here.dropLast rest
      else if nameLimit < name.utf8ByteSize then .error .nameTooLong
      else
        match t.node? (here ++ [name]) with
        | some (.link target) =>
          if rest.isEmpty && !followLast then .ok ⟨here ++ [name], some (.link target)⟩
          else
            match links with
            | 0 => .error .tooManyLinks
            | left + 1 =>
              t.walk followLast left (if isAbsolute target then [] else here)
                (names target ++ rest)
        | _ => t.walk followLast links (here ++ [name]) rest
    | some _ => .error .notAFolder
termination_by (links, path.length)

/-- Where a path leads.  A path that ends in a slash must lead to a folder if it leads to
anything. -/
def resolve (t : Tree) (followLast : Bool) (path : String) : Except Refusal Spot :=
  if path.toList.contains '\x00' then .error .nulInPath
  else if path.isEmpty then .error .notFound
  else
    match t.walk (followLast || demandsFolder path) linkLimit
        (if isAbsolute path then [] else t.home) (names path) with
    | .error e => .error e
    | .ok spot =>
      match spot.node with
      | none => .ok spot
      | some .folder => .ok spot
      | some _ => if demandsFolder path then .error .notAFolder else .ok spot

/-- Whether a path leads to anything. -/
def isThere (t : Tree) (path : String) : Bool :=
  match t.resolve true path with
  | .ok ⟨_, some _⟩ => true
  | _ => false

/-- Whether a path leads to a folder. -/
def isFolder (t : Tree) (path : String) : Bool :=
  match t.resolve true path with
  | .ok ⟨_, some .folder⟩ => true
  | _ => false

/-- Whether a path leads to a regular file. -/
def isFile (t : Tree) (path : String) : Bool :=
  match t.resolve true path with
  | .ok ⟨_, some (.file _ _)⟩ => true
  | _ => false

/-! ## reading -/

/-- The bytes of a file. -/
def readBytes (t : Tree) (path : String) : Except Refusal (List UInt8) :=
  match t.resolve true path with
  | .error e => .error e
  | .ok ⟨_, none⟩ => .error .notFound
  | .ok ⟨_, some .folder⟩ => .error .isAFolder
  | .ok ⟨_, some (.file content _)⟩ => .ok content
  | .ok ⟨_, some _⟩ => .ok []

/-- The text of bytes in UTF-8. -/
def textOf? (bytes : List UInt8) : Option String := String.fromUTF8? ⟨bytes.toArray⟩

/-- The bytes of a text in UTF-8. -/
def bytesOf (text : String) : List UInt8 := text.toUTF8.data.toList

/-- The text of a file. -/
def readText (t : Tree) (path : String) : Except Refusal String :=
  match t.readBytes path with
  | .error e => .error e
  | .ok bytes =>
    match textOf? bytes with
    | none => .error .notText
    | some text => .ok text

/-- The names in a folder. -/
def namesIn (t : Tree) (path : String) : Except Refusal (List String) :=
  match t.resolve true path with
  | .error e => .error e
  | .ok ⟨_, none⟩ => .error .notFound
  | .ok ⟨place, some .folder⟩ =>
    if t.isUnlisted place then .error .denied
    else
      .ok (t.nodes.filterMap fun (p, _) =>
        match p.getLast? with
        | some name => if p.dropLast = place then some name else none
        | none => none)
  | .ok ⟨_, some _⟩ => .error .notAFolder

/-- Everything below a folder, by its place relative to the folder. -/
def below (t : Tree) (folder : Place) : List (Place × Node) :=
  t.nodes.filterMap fun (p, n) =>
    if folder.isPrefixOf p && p != folder then some (p.drop folder.length, n) else none

/-! ## writing -/

/-- Open a file for writing: it is created, or emptied if it is there.  Answers the place that
writes go to. -/
def create (t : Tree) (path : String) : Except Refusal (Place × Tree) :=
  match t.resolve true path with
  | .error e => .error e
  | .ok ⟨place, none⟩ =>
    if demandsFolder path then .error .isAFolder
    else if t.isClosed place then .error .denied
    else .ok (place, t.put place (.file [] (t.roomFor place)))
  | .ok ⟨_, some .folder⟩ => .error .isAFolder
  | .ok ⟨place, some (.file _ room)⟩ => .ok (place, t.put place (.file [] room))
  | .ok ⟨place, some _⟩ => .ok (place, t)

/-- Write bytes at the end of an open file.  Where the room ends, what fits is written and the rest
is refused. -/
def append (t : Tree) (place : Place) (bytes : List UInt8) : Tree × Except Refusal Unit :=
  match t.node? place with
  | some (.file content none) => (t.put place (.file (content ++ bytes) none), .ok ())
  | some (.file content (some room)) =>
    let all := content ++ bytes
    (t.put place (.file (all.take room) (some room)),
      if all.length ≤ room then .ok () else .error .noSpace)
  | some .fullDevice => (t, if bytes.isEmpty then .ok () else .error .noSpace)
  | _ => (t, .error .notFound)

/-- Replace the content of a file, creating it if needed. -/
def write (t : Tree) (path : String) (bytes : List UInt8) : Tree × Except Refusal Unit :=
  match t.create path with
  | .error e => (t, .error e)
  | .ok (place, t) => t.append place bytes

/-- Put a new file where a path leads.  It is there in full, or what was there stays. -/
def replace (t : Tree) (path : String) (bytes : List UInt8) : Tree × Except Refusal Unit :=
  match t.resolve false path with
  | .error e => (t, .error e)
  | .ok ⟨place, node⟩ =>
    if demandsFolder path || node = some .folder then (t, .error .isAFolder)
    else if t.isClosed place then (t, .error .denied)
    else if (t.roomFor place).any (· < bytes.length) then (t, .error .noSpace)
    else (t.put place (.file bytes (t.roomFor place)), .ok ())

/-! ## folders -/

/-- Make one folder. -/
def makeFolder (t : Tree) (path : String) : Except Refusal Tree :=
  match t.resolve false path with
  | .error e => .error e
  | .ok ⟨place, none⟩ => if t.isClosed place then .error .denied else .ok (t.put place .folder)
  | .ok ⟨_, some _⟩ => .error .alreadyExists

/-- The path of names from the root or from home. -/
def pathOf (absolute : Bool) (path : List String) : String :=
  (if absolute then "/" else "") ++ "/".intercalate path

/-- Make a folder unless it is there. -/
def ensureFolder (t : Tree) (path : String) : Tree × Except Refusal Unit :=
  match t.makeFolder path with
  | .ok t => (t, .ok ())
  | .error e => (t, if t.isFolder path then .ok () else .error e)

/-- Make the folder at names given from the last one to the first, and those above it that are
missing.  What was made before a refusal stays. -/
def makeFoldersUp (t : Tree) (absolute : Bool) : List String → Tree × Except Refusal Unit
  | [] => (t, .ok ())
  | name :: above =>
    let path := pathOf absolute (name :: above).reverse
    match t.makeFolder path with
    | .ok t => (t, .ok ())
    | .error .notFound =>
      match t.makeFoldersUp absolute above with
      | (t, .error e) => (t, .error e)
      | (t, .ok ()) => t.ensureFolder path
    | .error e => (t, if t.isFolder path then .ok () else .error e)

/-- Make a folder and those above it that are missing.  A folder that is there is left alone. -/
def makeFolders (t : Tree) (path : String) : Tree × Except Refusal Unit :=
  if path.toList.contains '\x00' then (t, .error .nulInPath)
  else t.makeFoldersUp (isAbsolute path) (names path).reverse

/-- Remove a folder with all in it.  A link is removed itself; a folder that is named by a single
dot is emptied and stays.  What cannot be removed stays, and then the rest is
removed all the same. -/
def removeFolder (t : Tree) (path : String) : Tree × Except Refusal Unit :=
  match t.resolve false path with
  | .error e => (t, .error e)
  | .ok ⟨_, none⟩ => (t, .error .notFound)
  | .ok ⟨place, some .folder⟩ =>
    if t.stays place then (t.removeBelow place, .error .denied)
    else if (path.toList.splitOn '/').getLast? = some ['.'] then
      ((t.removeBelow place).put place .folder, .error .invalidPath)
    else (t.removeBelow place, .ok ())
  | .ok ⟨place, some (.link _)⟩ =>
    (t.removeBelow place, if t.stays place then .error .denied else .ok ())
  | .ok ⟨_, some _⟩ => (t, .error .notAFolder)

/-- Put a link at a path. -/
def makeLink (t : Tree) (path target : String) : Except Refusal Tree :=
  match t.resolve false path with
  | .error e => .error e
  | .ok ⟨place, none⟩ =>
    if t.isClosed place then .error .denied else .ok (t.put place (.link target))
  | .ok ⟨_, some _⟩ => .error .alreadyExists

end Tree

end Concordance.Files
