import TagPress.NativeText

/-!
# File trees

A `Folder` is the content of a directory: named files, symbolic links, directories, each with a
content of its own, and special files such as pipes, sockets and devices. Names are looked up one
after the other, so the first entry of a name counts.
-/

namespace TagPress

/-- A point in time, in billionths of a second since the start of 1970. -/
structure Instant where
  /-- The billionths of a second. -/
  nanoseconds : Int
  deriving DecidableEq

/-- The whole seconds of a point in time, rounded down. -/
def Instant.seconds (t : Instant) : Int :=
  t.nanoseconds.fdiv 1000000000

/-- Why something cannot be read. -/
inductive ReadError where
  /-- There is no such file. -/
  | notFound
  /-- A name on the way is no directory. -/
  | notADirectory
  /-- A directory is read as a file. -/
  | isADirectory
  /-- A name or the path is too long. -/
  | nameTooLong
  /-- Too many symbolic links are on the way. -/
  | tooManyLinks
  /-- The path contains the character NUL. -/
  | nulInPath
  /-- The content is not encoded as UTF-8. -/
  | notText
  /-- Anything else, in words. -/
  | other (text : String)
  deriving DecidableEq

/-- The wording of a read error. -/
def ReadError.message : ReadError → String
  | notFound => "No such file or directory (os error 2)"
  | notADirectory => "Not a directory (os error 20)"
  | isADirectory => "Is a directory (os error 21)"
  | nameTooLong => "File name too long (os error 36)"
  | tooManyLinks => "Too many levels of symbolic links (os error 40)"
  | nulInPath => "file name contained an unexpected NUL byte"
  | notText => "stream did not contain valid UTF-8"
  | other text => text

/-- What reading a special file gives: bytes, or a failure. -/
abbrev Output := Except ReadError ByteArray

/-- The content of a directory. -/
inductive Folder where
  /-- Nothing. -/
  | empty
  /-- A regular file and the rest. -/
  | file (name : NativeText) (content : ByteArray) (modified : Instant) (rest : Folder)
  /-- A symbolic link and the rest. -/
  | link (name : NativeText) (target : String) (rest : Folder)
  /-- A special file and the rest. -/
  | special (name : NativeText) (output : Output) (modified : Instant) (rest : Folder)
  /-- A directory and the rest. -/
  | folder (name : NativeText) (modified : Instant) (inside : Folder) (rest : Folder)

instance : Inhabited Folder := ⟨.empty⟩

/-- What a name in a directory stands for. -/
inductive Entry where
  /-- A regular file. -/
  | file (content : ByteArray) (modified : Instant)
  /-- A symbolic link. -/
  | link (target : String)
  /-- A special file. -/
  | special (output : Output) (modified : Instant)
  /-- A directory. -/
  | folder (modified : Instant) (inside : Folder)

namespace Folder

/-- The entry of a name. -/
def child? (name : NativeText) : Folder → Option Entry
  | empty => none
  | file n content modified rest =>
    if n == name then some (.file content modified) else rest.child? name
  | link n target rest => if n == name then some (.link target) else rest.child? name
  | special n output modified rest =>
    if n == name then some (.special output modified) else rest.child? name
  | folder n modified inside rest =>
    if n == name then some (.folder modified inside) else rest.child? name

/-- The content with an entry in front. -/
def cons (name : NativeText) (entry : Entry) (rest : Folder) : Folder :=
  match entry with
  | .file content modified => file name content modified rest
  | .link target => link name target rest
  | .special output modified => special name output modified rest
  | .folder modified inside => folder name modified inside rest

/-- The content without the entries of a name. -/
def erase (name : NativeText) : Folder → Folder
  | empty => empty
  | file n content modified rest =>
    if n == name then rest.erase name else file n content modified (rest.erase name)
  | link n target rest => if n == name then rest.erase name else link n target (rest.erase name)
  | special n output modified rest =>
    if n == name then rest.erase name else special n output modified (rest.erase name)
  | folder n modified inside rest =>
    if n == name then rest.erase name else folder n modified inside (rest.erase name)

/-- The content in which a name stands for the entry. -/
def set (name : NativeText) (entry : Entry) (content : Folder) : Folder :=
  cons name entry (content.erase name)

/-- The content of the directory at the end of a path. -/
def folderAt? : List String → Folder → Option Folder
  | [], content => some content
  | name :: path, content =>
    match content.child? name with
    | some (.folder _ inside) => folderAt? path inside
    | _ => none

/-- The entry at the end of a path. -/
def entryAt? : List NativeText → Folder → Option Entry
  | [], _ => none
  -- The last entry may be of any kind; those before it are directories.
  | [name], content => content.child? name
  | name :: path, content =>
    match content.child? name with
    | some (.folder _ inside) => entryAt? path inside
    | _ => none

/-- Edits the content of the directory at the end of a path, if there is one. -/
def editAt (edit : Folder → Folder) : List String → Folder → Folder
  | [], content => edit content
  | name :: path, content =>
    match content.child? name with
    | some (.folder modified inside) =>
      content.set name (.folder modified (editAt edit path inside))
    | _ => content

/-- Whether a content holds no symbolic link at any depth. -/
def isLinkFree : Folder → Bool
  | empty => true
  | file _ _ _ rest => rest.isLinkFree
  | link _ _ _ => false
  | special _ _ _ rest => rest.isLinkFree
  | folder _ _ inside rest => inside.isLinkFree && rest.isLinkFree

/-- The names of a content in order. -/
def names : Folder → List NativeText
  | empty => []
  | file n _ _ rest => n :: rest.names
  | link n _ rest => n :: rest.names
  | special n _ _ rest => n :: rest.names
  | folder n _ _ rest => n :: rest.names

end Folder

end TagPress
