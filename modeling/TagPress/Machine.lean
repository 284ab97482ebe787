import TagPress.FileTree
import TagPress.Path
import TagPress.Text.Split

/-!
# Machines

A machine is what the program sees of its surroundings: a file tree, the working directory and the
variable that names a configuration file. Paths are looked up as the operating system does: every
name on the way has to be a directory, `..` goes to the parent, symbolic links are followed up to a
limit, and a slash at the end asks for a directory. The working directory may have been removed;
then it is empty and has no path, and its parents can still be reached from it.
-/

namespace TagPress

/-- A directory on the way of a look-up. -/
structure Place where
  /-- The names from the root to the directory. -/
  path : List String := []
  /-- How many of the last names belong to directories that were removed. -/
  lost : Nat := 0
  deriving DecidableEq

/-- The parent directory; the root is its own parent. -/
def Place.up (p : Place) : Place :=
  ⟨p.path.dropLast, p.lost - 1⟩

/-- How far a path leads without following links. -/
inductive Reach where
  /-- To the regular file with this name in the directory. -/
  | file (place : Place) (name : String) (content : ByteArray) (modified : Instant)
  /-- To the special file with this name in the directory. -/
  | special (place : Place) (name : String) (output : Output) (modified : Instant)
  /-- To a directory. -/
  | folder (place : Place)
  /-- To a symbolic link in the directory, with names left after it. -/
  | link (place : Place) (target : String) (rest : List String)
  /-- Not to the end. -/
  | failed (e : ReadError)

/-- What a path leads to. -/
inductive Node where
  /-- The regular file with this name in the directory. -/
  | file (place : Place) (name : String) (content : ByteArray) (modified : Instant)
  /-- The special file with this name in the directory. -/
  | special (place : Place) (name : String) (output : Output) (modified : Instant)
  /-- A directory. -/
  | folder (place : Place)

namespace Folder

/-- The longest name of a file, in bytes. -/
def maxNameBytes : Nat := 255

/-- The longest path, in bytes. -/
def maxPathBytes : Nat := 4095

/-- How many links are followed in one look-up. -/
def maxLinks : Nat := 40

/-- Follows names from a directory up to the first symbolic link. -/
def advance (root : Folder) : Place → List String → Reach
  | place, [] => .folder place
  | place, name :: rest =>
    -- Dots work in a removed directory, too; names do not.
    if name == "." then root.advance place rest
    else if name == ".." then root.advance place.up rest
    else if 0 < place.lost then .failed .notFound
    else if maxNameBytes < name.utf8ByteSize then .failed .nameTooLong
    else
      match (root.folderAt? place.path).bind (·.child? name) with
      | none => .failed .notFound
      | some (.file content modified) =>
        if rest.isEmpty then .file place name content modified else .failed .notADirectory
      | some (.special output modified) =>
        if rest.isEmpty then .special place name output modified else .failed .notADirectory
      | some (.folder _ _) => root.advance ⟨place.path ++ [name], 0⟩ rest
      -- A link at the end of a path is reported as well, since every look-up follows it.
      | some (.link target) => .link place target rest

/-- The names that a path asks for; a slash at the end asks for the directory itself. -/
def steps (p : String) : List String :=
  ((Path.segments p).filter (!·.isEmpty)).map String.ofList
    ++ (if p.toList.getLast? == some '/' then ["."] else [])

/-- Follows names from a directory and at most `links` symbolic links. -/
def follow (root : Folder) : Nat → Place → List String → Except ReadError Node
  | links, place, names =>
    match root.advance place names with
    | .file place name content modified => .ok (.file place name content modified)
    | .special place name output modified => .ok (.special place name output modified)
    | .folder place => .ok (.folder place)
    | .failed e => .error e
    | .link place target rest =>
      match links with
      | 0 => .error .tooManyLinks
      | links + 1 =>
        -- The names behind the link are taken from where it leads, not from where it stands.
        root.follow links (if Path.isAbsolute target then {} else place) (steps target ++ rest)

end Folder

/-- What the program sees of its surroundings. -/
structure Machine where
  /-- The content of the root directory. -/
  root : Folder := .empty
  /-- When the root directory was modified. -/
  rootModified : Instant := ⟨0⟩
  /-- The working directory. -/
  workingPlace : Place := {}
  /-- When a removed directory that the working directory lies in was modified, by the number of
  removed directories down to it. -/
  lostModified : Nat → Instant := fun _ => ⟨0⟩
  /-- The value of the variable that names a configuration file. -/
  configVariable : Option String := none

namespace Machine

/-- The path of the working directory, unless it was removed. -/
def workingDir (m : Machine) : Option String :=
  if m.workingPlace.lost == 0 then some ("/" ++ Text.joinWith "/" m.workingPlace.path) else none

/-- What a path leads to. -/
def lookup (m : Machine) (p : String) : Except ReadError Node :=
  if p.toList.contains '\x00' then .error .nulInPath
  else if p.isEmpty then .error .notFound
  else if Folder.maxPathBytes < p.utf8ByteSize then .error .nameTooLong
  else
    let start := if Path.isAbsolute p then {} else m.workingPlace
    m.root.follow Folder.maxLinks start (Folder.steps p)

/-- Whether a path leads to a regular file. -/
def isFile (m : Machine) (p : String) : Bool :=
  match m.lookup p with
  | .ok (.file ..) => true
  | _ => false

/-- When a file or a directory was modified. -/
def modifiedOf (m : Machine) : Node → Instant
  | .file _ _ _ modified => modified
  | .special _ _ _ modified => modified
  | .folder place =>
    if 0 < place.lost then m.lostModified place.lost
    else
      match m.root.entryAt? (place.path.map .text) with
      | some (.folder modified _) => modified
      -- The root has no entry of its own.
      | _ => m.rootModified

/-- When what a path leads to was modified. -/
def modified? (m : Machine) (p : String) : Option Instant :=
  match m.lookup p with
  | .ok node => some (m.modifiedOf node)
  | .error _ => none

/-- The bytes of the file that a path leads to. -/
def readBytes (m : Machine) (p : String) : Output :=
  match m.lookup p with
  | .error e => .error e
  | .ok (.folder _) => .error .isADirectory
  | .ok (.special _ _ output _) => output
  | .ok (.file _ _ content _) => .ok content

/-- The text of the file that a path leads to. -/
def read (m : Machine) (p : String) : Except ReadError String :=
  match m.readBytes p with
  | .error e => .error e
  | .ok content =>
    match String.fromUTF8? content with
    | some text => .ok text
    | none => .error .notText

/-- The content of the directory that a path leads to. -/
def folder? (m : Machine) (p : String) : Option Folder :=
  match m.lookup p with
  -- A directory that was removed can still be reached, but it has no content.
  | .ok (.folder place) => if place.lost == 0 then m.root.folderAt? place.path else none
  | _ => none

/-! ## Changes -/

/-- Makes the directories of a list of names below a place, where they do not exist. Gives the place
of the last one. -/
def makeFolders (root : Folder) (modified : Instant) : Place → List String → Folder × Place
  | place, [] => (root, place)
  | place, name :: names =>
    match root.follow Folder.maxLinks place [name] with
    | .ok (.folder inner) => makeFolders root modified inner names
    | _ =>
      -- Whatever else stands under the name is replaced.
      makeFolders (root.editAt (·.set name (.folder modified .empty)) place.path) modified
        ⟨place.path ++ [name], 0⟩ names

/-- The names of a path and its last name. -/
def splitLast (p : String) : Option (List String × String) :=
  let names := ((Path.segments p).filter (!·.isEmpty)).map String.ofList
  names.getLast?.map fun last => (names.dropLast, last)

/-- Where a file is written that is given by a directory and a name: through symbolic links, at most
`links` of them, at the end of the last one. -/
def writePlace (root : Folder) : Nat → Place → String → Place × String
  | 0, place, name => (place, name)
  | links + 1, place, name =>
    match (root.folderAt? place.path).bind (·.child? name) with
    | some (.link target) =>
      match splitLast target with
      | none => (place, name)
      | some (parents, last) =>
        let start := if Path.isAbsolute target then {} else place
        match root.follow Folder.maxLinks start parents with
        | .ok (.folder inner) => writePlace root links inner last
        | _ => (place, name)
    | _ => (place, name)

/-- Puts an entry at a path from the root; directories on the way are made. A file that is written
through a symbolic link goes where the link leads. -/
def write (m : Machine) (p : String) (entry : Entry) (made : Instant) : Machine :=
  match splitLast p with
  | none => m
  | some (parents, last) =>
    let (root, place) := makeFolders m.root made {} parents
    let (place, last) :=
      match entry with
      -- Only files are written through links. Any other entry replaces what is there.
      | .file .. => writePlace root Folder.maxLinks place last
      | _ => (place, last)
    { m with root := root.editAt (·.set last entry) place.path }

/-- Makes a directory at a path from the root, where it does not exist. -/
def makeFolder (m : Machine) (p : String) (made : Instant) : Machine :=
  match splitLast p with
  | none => m
  | some (parents, last) => { m with root := (makeFolders m.root made {} (parents ++ [last])).1 }

/-- Makes a directory the working directory. -/
def enter (m : Machine) (p : String) : Machine :=
  match m.lookup p with
  | .ok (.folder place) => { m with workingPlace := place }
  | _ => m

/-- Sets the modification time of what a path leads to. -/
def touch (m : Machine) (p : String) (modified : Instant) : Machine :=
  match m.lookup p with
  | .ok (.file place name content _) =>
    { m with root := m.root.editAt (·.set name (.file content modified)) place.path }
  | .ok (.special place name output _) =>
    { m with root := m.root.editAt (·.set name (.special output modified)) place.path }
  | .ok (.folder place) =>
    if 0 < place.lost then
      { m with lostModified := fun n => if n == place.lost then modified else m.lostModified n }
    else
      match m.root.folderAt? place.path, place.path.getLast? with
      | some inside, some name =>
        { m with root := m.root.editAt (·.set name (.folder modified inside)) place.path.dropLast }
      | _, _ => { m with rootModified := modified }
  | .error _ => m

/-- Removes the entry at a path from the root. If the working directory lies below it, it is lost.
-/
def remove (m : Machine) (p : String) : Machine :=
  match splitLast p with
  | none => m
  | some (parents, last) =>
    match m.root.follow Folder.maxLinks {} parents with
    | .ok (.folder place) =>
      let removed := place.path ++ [last]
      let here := m.workingPlace
      let isFolder :=
        match m.root.entryAt? (removed.map .text) with
        | some (.folder ..) => true
        | _ => false
      let lost :=
        -- What was lost before cannot be removed again.
        if isFolder && removed.isPrefixOf (here.path.take (here.path.length - here.lost)) then
          here.path.length - place.path.length
        else here.lost
      { m with root := m.root.editAt (·.erase last) place.path, workingPlace := { here with lost } }
    | _ => m

end Machine

end TagPress
