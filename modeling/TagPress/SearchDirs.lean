import TagPress.OrderedMap
import TagPress.Path
import TagPress.Text.Numeral
import TagPress.Text.Split

/-!
# Search directories

Search directories are kept in order. A directory is added without a name, and then has the next
number as its key, or under a name; adding a name again replaces its directory in place. They are
stored canonical with one slash at the end.
-/

namespace TagPress

/-- The key of a search directory. -/
inductive DirKey where
  /-- The key of the `n`-th directory that was added without a name. -/
  | index (n : Nat)
  /-- The key of a directory with a name. -/
  | name (text : String)
  deriving DecidableEq

/-- The written form of a key. -/
def DirKey.render : DirKey → String
  | index n => Text.showNat n
  | name text => text

/-- Directories in search order. -/
structure SearchDirs where
  /-- The stored directories by key. -/
  entries : OrderedMap DirKey String := .empty
  /-- How many directories were added without a name. -/
  unnamed : Nat := 0
  deriving DecidableEq

namespace SearchDirs

/-- The stored form of a directory, seen from the working directory. -/
def prepare (workingDir : Option String) (dir : String) : String :=
  Path.withTrailingSeparator (Path.absolute workingDir dir)

/-- Adds a directory without a name. -/
def push (s : SearchDirs) (workingDir : Option String) (dir : String) : SearchDirs :=
  ⟨s.entries.insert (.index s.unnamed) (prepare workingDir dir), s.unnamed + 1⟩

/-- Adds a directory under a name. -/
def insertNamed (s : SearchDirs) (workingDir : Option String) (name dir : String) : SearchDirs :=
  { s with entries := s.entries.insert (.name name) (prepare workingDir dir) }

/-- The directory with a key. -/
def get? (s : SearchDirs) (key : DirKey) : Option String :=
  s.entries.get? key

/-- The directories in search order. -/
def dirs (s : SearchDirs) : List String :=
  s.entries.values

/-- All directories in one text, with a number sign between them. -/
def joined (s : SearchDirs) : String :=
  Text.joinWith "#" s.dirs

/-- The directory that a token refers to: the one with that name, else the one with that number,
else the one at that place. -/
def resolveToken? (s : SearchDirs) (token : String) : Option String :=
  match s.get? (.name token) with
  | some dir => some dir
  | none =>
    match Text.readNat? token.toList with
    | none => none
    | some n =>
      match s.get? (.index n) with
      | some dir => some dir
      -- Named directories have a place, too, although they have no number.
      | none => s.dirs[n]?

end SearchDirs

end TagPress
