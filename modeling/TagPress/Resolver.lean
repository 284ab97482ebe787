import TagPress.Digest
import TagPress.Engine
import TagPress.Machine
import TagPress.Text.Blank

/-!
# Resolving sources

An identifier gives a list of candidate paths, and the first that leads to a regular file is taken.
An absolute name is its own and only candidate. A name that starts with `./` or `../` and comes from
another template is taken from that template's directory. Any other name is tried in the search
directories and then in the working directory, or, with a list of directories in brackets in front,
in those directories only.
-/

namespace TagPress

/-- A path to try, and the path that is recorded if it leads to a file. -/
structure Candidate where
  /-- The path to try. -/
  probe : String
  /-- The path to record. -/
  stored : String
  deriving DecidableEq

/-- A candidate that is recorded as it is tried. -/
def Candidate.same (path : String) : Candidate :=
  ⟨path, path⟩

/-- A single candidate that is stored as it is probed is found if it is a file. -/
theorem Candidate.find?_same (m : Machine) (path : String) :
    ([same path].find? fun c => m.isFile c.probe).map (·.stored) =
      if m.isFile path then some path else none := by
  by_cases hfile : m.isFile path = true
  · simp [same, hfile]
  · simp [same, hfile]

namespace Resolver

/-- Whether a name asks for the directory of the requesting template. -/
def isParentRelative (name : String) : Bool :=
  match name.toList with
  | '.' :: '/' :: _ => true
  | '.' :: '\\' :: _ => true
  | '.' :: '.' :: '/' :: _ => true
  | '.' :: '.' :: '\\' :: _ => true
  | _ => false

/-- The directory tokens and the file of a name of the form `[token,token]file`. There has to be
something between the brackets, and a file on one line behind them. -/
def bracketed? (file : String) : Option (List String × String) :=
  match file.toList with
  | '[' :: cs =>
    let inside := cs.takeWhile (· != ']')
    match cs.dropWhile (· != ']') with
    | ']' :: rest =>
      if inside.isEmpty || rest.isEmpty || rest.contains '\n' then none
      else some ((inside.splitOn ',').map fun token => String.ofList (Text.trim token),
        String.ofList rest)
    | _ => none
  | _ => none

/-- The candidate in a search directory. -/
def candidateIn (file dir : String) : Candidate :=
  let path := dir ++ file
  -- The path is probed as it is. What is recorded is tidied if a dot stands before a slash.
  ⟨path, if Path.hasDotSlash path then Path.normalize path else path⟩

/-- The candidates of a name that is looked up in the search directories. -/
def searchCandidates (dirs : SearchDirs) (workingDir : Option String) (name : String) :
    List Candidate :=
  let file := Path.unify name
  match bracketed? file with
  -- Tokens that refer to no directory are passed over, and the working directory is not tried.
  | some (tokens, file) => (tokens.filterMap dirs.resolveToken?).map (candidateIn file)
  | none => dirs.dirs.map (candidateIn file) ++ [.same (Path.absolute workingDir file)]

/-- The candidate of a name relative to the requesting template. The template has to be a file; one
that was not found gives no candidate. -/
def parentCandidates (parent : SourceRecord) (name : String) :
    Except ResourceError (List Candidate) :=
  if !parent.kind.isFileBacked then .error (.incompatibleParent name parent.kind.name)
  else
    match parent.directory? with
    | some dir => .ok [.same (Path.normalize (Path.join dir (Path.unify name)))]
    | none => .ok []

/-- The candidates of a record that was asked for by `parent`, best first. -/
def candidates (engine : Engine) (workingDir : Option String) (record : SourceRecord)
    (parent : Option SourceRecord) : Except ResourceError (List Candidate) :=
  if Path.isAbsoluteIdentifier record.name then
    -- The requesting template does not count.
    .ok [.same (Path.normalize (Path.unify record.name))]
  else
    match parent with
    | some p =>
      if isParentRelative record.name then parentCandidates p record.name
      else .ok (searchCandidates (engine.dirsFor record.sort) workingDir record.name)
    | none => .ok (searchCandidates (engine.dirsFor record.sort) workingDir record.name)

/-- The path to record for the first candidate that leads to a regular file. -/
def locate (m : Machine) (engine : Engine) (record : SourceRecord) (parent : Option SourceRecord) :
    Except ResourceError (Option String) :=
  match candidates engine m.workingDir record parent with
  | .error e => .error e
  | .ok paths => .ok ((paths.find? fun c => m.isFile c.probe).map (·.stored))

/-- The paths that looking a record up consults. -/
def consulted (m : Machine) (engine : Engine) (record : SourceRecord)
    (parent : Option SourceRecord) : List String :=
  match candidates engine m.workingDir record parent with
  | .error _ => []
  | .ok paths => paths.flatMap fun c => [c.probe, c.stored]

/-- The bytes that a cache identity is the digest of: class, path and search directories, with a
zero byte between them. -/
def identityBytes (sort : ResourceClass) (filepath : String) (dirs : SearchDirs) : List UInt8 :=
  sort.name.toUTF8.toList ++ 0 :: filepath.toUTF8.toList ++ 0 :: dirs.joined.toUTF8.toList

/-- The cache identity of a found source. -/
def identity (engine : Engine) (sort : ResourceClass) (filepath : String) : String :=
  Digest.sha256Hex (identityBytes sort filepath (engine.dirsFor sort))

/-- Refuses a path that the engine's gate does not trust. -/
def checkTrust (engine : Engine) (filepath : String) (sort : ResourceClass) :
    Except ResourceError Unit :=
  match engine.gate with
  | some gate => gate.checkPath filepath sort
  | none => .ok ()

/-- Looks a record up. Gives the outcome and the record after it. Only kinds that live on the file
system can be looked up, and a path that is not trusted is refused before anything is recorded. -/
def lookUp (m : Machine) (engine : Engine) (record : SourceRecord)
    (parent : Option SourceRecord) : Except ResourceError Unit × SourceRecord :=
  if !record.kind.isFileBacked then (.error (.unsupportedKind record.kind.name), record)
  else
    match locate m engine record parent with
    | .error e => (.error e, record)
    | .ok none => (.ok (), record.markMissing)
    | .ok (some filepath) =>
      match checkTrust engine filepath record.sort with
      | .error e => (.error e, record)
      | .ok () =>
        -- The recorded path need not lead where the probed one did, since `..` is taken away by its
        -- text.
        match m.modified? filepath with
        | some modified =>
          (.ok (),
            record.markFound filepath (identity engine record.sort filepath) modified.seconds)
        | none => (.ok (), record.markMissing)

/-- The record after a look-up that does not fail. -/
def populate (m : Machine) (engine : Engine) (record : SourceRecord)
    (parent : Option SourceRecord) : Except ResourceError SourceRecord :=
  match lookUp m engine record parent with
  | (.ok (), found) => .ok found
  | (.error e, _) => .error e

/-- Brings the modification time of a record up to date; a record whose path is gone is cleared. -/
def refresh (m : Machine) (record : SourceRecord) : SourceRecord :=
  match record.filepath with
  | none => record
  | some filepath =>
    -- For a source that was found, anything with a time will do; otherwise it has to be a file.
    if record.present || m.isFile filepath then
      match m.modified? filepath with
      | some modified => { record with timestamp := some modified.seconds, present := true }
      | none => record.markMissing
    else record.markMissing

/-- The text of a found source. -/
def content (m : Machine) (record : SourceRecord) : Except ResourceError String :=
  let unreadable := .error (.unreadable record.sort record.kind.name record.name)
  match record.filepath, record.present with
  | some filepath, true =>
    match m.read filepath with
    | .ok text => .ok text
    | .error _ => unreadable
  | _, _ => unreadable

/-- Resolves an identifier; `parent` is the identifier of the requesting template. -/
def resolve (m : Machine) (engine : Engine) (resource : String) (sort : ResourceClass)
    (parent : Option String) : Except ResourceError SourceRecord :=
  match parent with
  | none => populate m engine (.parse resource sort) none
  | some parentName =>
    match populate m engine (.parse parentName .template) none with
    | .error e => .error e
    | .ok parentRecord => populate m engine (.parse resource sort) (some parentRecord)

end Resolver

end TagPress
