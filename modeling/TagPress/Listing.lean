import TagPress.Engine
import TagPress.Machine

/-!
# Listing templates

The listing of a directory names the regular files below it, depth first and in the order of the
bytes of their names. Directories whose name starts with a dot are passed over, and so are symbolic
links and special files. Below a directory whose path is too long to be opened nothing is listed.
-/

namespace TagPress

/-- Whether a directory is passed over. Only texts are asked how they start. -/
def isHiddenName : NativeText → Bool
  | .text name => name.toList.head? == some '.'
  | .raw _ _ => false

namespace Folder

/-- Puts what each name contributes in the order of the names, one after the other. -/
def inNameOrder {α : Type} (parts : List (NativeText × List α)) : List α :=
  -- Less or equal, so that the sort is stable.
  (parts.mergeSort fun a b => !decide (b.1.bytes < a.1.bytes)).flatMap (·.2)

/-- For each file and each directory that is entered, the paths of the files it contributes. The
directory that the entries are in is opened by a path, which is `used` bytes long with the slash
behind it. -/
def contributions : Nat → Folder → List (NativeText × List (List NativeText))
  | _, empty => []
  | used, file name _ _ rest => (name, [[name]]) :: rest.contributions used
  | used, link _ _ rest => rest.contributions used
  | used, special _ _ _ rest => rest.contributions used
  | used, folder name _ inside rest =>
    -- The path that would be opened has no slash behind it.
    if isHiddenName name || decide (maxPathBytes < used + name.size) then rest.contributions used
    else
      (name, (inNameOrder (inside.contributions (used + name.size + 1))).map (name :: ·)) ::
        rest.contributions used

/-- The paths of the files below a directory with a path of this length, in order. -/
def filePaths (used : Nat) (content : Folder) : List (List NativeText) :=
  inNameOrder (content.contributions used)

end Folder

/-- A template that can be resolved through a search directory. -/
structure ListEntry where
  /-- The key of the search directory. -/
  key : DirKey
  /-- What is shown of the names below the search directory. -/
  name : String
  /-- The path of the file. -/
  path : NativeText
  deriving DecidableEq

/-- The template at the end of a path below a search directory. -/
def ListEntry.below (key : DirKey) (dir : String) (path : List NativeText) : ListEntry :=
  ⟨key, Text.joinWith "/" (path.map (·.shown)), .text dir ++ .joined path⟩

/-- The templates below one search directory. -/
def listDir (m : Machine) (key : DirKey) (dir : String) : List ListEntry :=
  match m.folder? dir with
  | none => []
  | some content => (content.filePaths dir.utf8ByteSize).map (.below key dir)

/-- The templates below the search directories, in search order. -/
def listIn (m : Machine) (dirs : SearchDirs) : List ListEntry :=
  dirs.entries.entries.flatMap fun (key, dir) => listDir m key dir

/-- The templates that an engine can resolve through its search directories. -/
def listTemplates (m : Machine) (engine : Engine) : List ListEntry :=
  listIn m engine.templateDirs

end TagPress
