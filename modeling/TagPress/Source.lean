import TagPress.Path
import TagPress.Text.Split

/-!
# Source records

A source record says what is known about a template or configuration source: its name and kind, and,
once it was found, its path, cache identity and modification time. Only sources of the kinds `file`
and `extends` live on the file system.
-/

namespace TagPress

/-- The kind of a resource, as written before the colon of an identifier. -/
inductive ResourceKind where
  /-- A file. -/
  | file
  /-- A file that extends another template. -/
  | extending
  /-- A template given as text. -/
  | string
  /-- A template given as text that is compiled every time. -/
  | eval
  /-- Any other kind. -/
  | custom (name : String)
  deriving DecidableEq

namespace ResourceKind

/-- The kind with the given name. -/
def ofName (name : String) : ResourceKind :=
  if name == "file" then .file
  else if name == "extends" then .extending
  else if name == "string" then .string
  else if name == "eval" then .eval
  else .custom name

/-- The name of a kind. -/
def name : ResourceKind → String
  | file => "file"
  | extending => "extends"
  | string => "string"
  | eval => "eval"
  | custom name => name

/-- Whether resources of this kind live on the file system. -/
def isFileBacked : ResourceKind → Bool
  | file => true
  | extending => true
  | _ => false

end ResourceKind

/-- What a source is for. -/
inductive ResourceClass where
  /-- A template. -/
  | template
  /-- A configuration file. -/
  | config
  deriving DecidableEq

/-- The name of a class. -/
def ResourceClass.name : ResourceClass → String
  | template => "template"
  | config => "config"

/-- Why a resource cannot be had. -/
inductive ResourceError where
  /-- The content cannot be read. -/
  | unreadable (sort : ResourceClass) (kind name : String)
  /-- The parent of a relative name is no file. -/
  | incompatibleParent (name kind : String)
  /-- The policy does not trust the directory. -/
  | untrustedDirectory (path : String)
  /-- The kind does not live on the file system. -/
  | unsupportedKind (kind : String)
  deriving DecidableEq

/-- The wording of a resource error. -/
def ResourceError.message : ResourceError → String
  | unreadable sort kind name =>
    "Unable to read " ++ sort.name ++ " " ++ kind ++ " '" ++ name ++ "'"
  | incompatibleParent name kind =>
    "Template '" ++ name ++ "' cannot be relative to template of resource type '" ++ kind ++ "'"
  | untrustedDirectory path => "directory '" ++ path ++ "' not allowed by security setting"
  | unsupportedKind kind => "Resource type '" ++ kind ++ "' cannot be resolved on the file system"

/-- What is known about a source. -/
structure SourceRecord where
  /-- The name without its kind. -/
  name : String
  /-- The kind of the resource. -/
  kind : ResourceKind := .file
  /-- What the source is for. -/
  sort : ResourceClass := .template
  /-- Where the source was found. -/
  filepath : Option String := none
  /-- Whether the source was found. -/
  present : Bool := false
  /-- The cache identity of a found source. -/
  uid : String := ""
  /-- The modification time of a found source, in seconds. -/
  timestamp : Option Int := none
  deriving DecidableEq

namespace SourceRecord

/-- The record of an identifier. The text before the first colon is the kind if it has at least two
characters, all of them ASCII letters or digits. -/
def parse (resource : String) (sort : ResourceClass) : SourceRecord :=
  match Text.splitOnce [':'] resource.toList with
  | some (kind, name) =>
    -- One character would be a drive letter.
    if 1 < kind.length && kind.all Char.isAlphanum then
      { name := String.ofList name, kind := .ofName (String.ofList kind), sort }
    else { name := resource, sort }
  | none => { name := resource, sort }

/-- Records where the source was found. -/
def markFound (r : SourceRecord) (filepath uid : String) (timestamp : Int) : SourceRecord :=
  { r with filepath := some filepath, uid, timestamp := some timestamp, present := true }

/-- Records that the source was not found. -/
def markMissing (r : SourceRecord) : SourceRecord :=
  { r with filepath := none, uid := "", timestamp := none, present := false }

/-- The directory that names relative to this source start from. -/
def directory? (r : SourceRecord) : Option String :=
  r.filepath.bind Path.parent?

/-- The last component of the path. -/
def basename? (r : SourceRecord) : Option String :=
  r.filepath.bind Path.fileName?

end SourceRecord

end TagPress
