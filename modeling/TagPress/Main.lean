import TagPress.CommandLine

/-!
# The program

The program takes from the file system what a request consults, and runs the request on that. Files
that are only looked for are taken without their content.
-/

namespace TagPress.Main

/-- The point in time of a file's modification. -/
def instantOf (data : IO.FS.Metadata) : Instant :=
  ⟨data.modified.sec * 1000000000 + data.modified.nsec.toNat⟩

/-- The path of a list of names from the root. -/
def fullPath (names : List String) : String :=
  "/" ++ Text.joinWith "/" names

/-- What the file system knows about a path, links not followed. -/
def inspect? (path : String) : IO (Option IO.FS.Metadata) := do
  try
    let here ← IO.FS.realPath "/"
    return some (← (here / path).symlinkMetadata)
  catch _ => return none

/-- The names of the path that a link leads to. -/
def destination? (path : String) : IO (Option (List String)) := do
  try return some (Folder.steps (← IO.FS.realPath path).toString)
  catch _ => return none

/-- Takes in what lies on the way along some names, and what it leads to. Gives the directory at the
end, if it is one. -/
partial def takeNames (withContent : Bool) (m : Machine) (place : List String) :
    List String → IO (Machine × Option (List String))
  | [] => return (m, some place)
  | "." :: rest => takeNames withContent m place rest
  | ".." :: rest => takeNames withContent m place.dropLast rest
  | name :: rest => do
    let here := place ++ [name]
    let path := fullPath here
    match ← inspect? path with
    | none => return (m, none)
    | some data =>
      let modified := instantOf data
      match data.type with
      | .dir => takeNames withContent ((m.makeFolder path modified).touch path modified) here rest
      | .symlink =>
        match ← destination? path with
        | none => return (m, none)
        | some names =>
          let m := m.write path (.link (fullPath names)) modified
          takeNames withContent m [] (names ++ rest)
      | .file =>
        let content ← if withContent then IO.FS.readBinFile path else pure .empty
        return (m.write path (.file content modified) modified, none)
      | .other => return (m, none)

/-- Takes in what a path leads to. -/
def takePath (withContent : Bool) (m : Machine) (path : String) :
    IO (Machine × Option (List String)) :=
  takeNames withContent m (if Path.isAbsolute path then [] else m.workingPlace.path)
    (Folder.steps path)

/-- Takes in the files below a directory that is given by its names. -/
partial def takeTree (m : Machine) (place : List String) : IO Machine := do
  let here ← IO.FS.realPath (fullPath place)
  let entries ← try here.readDir catch _ => pure #[]
  entries.foldlM (fun m entry => do
    let inner := place ++ [entry.fileName]
    let path := fullPath inner
    match ← inspect? path with
    | none => return m
    | some data =>
      let modified := instantOf data
      match data.type with
      | .dir =>
        if isHiddenName entry.fileName then return m
        else takeTree (m.makeFolder path modified) inner
      | .file => return m.write path (.file .empty modified) modified
      | _ => return m) m

/-- Takes in the files that a search for a record consults. -/
def takeCandidates (m : Machine) (engine : Engine) (record : SourceRecord)
    (parent : Option SourceRecord) : IO Machine :=
  (Resolver.consulted m engine record parent).foldlM
    (fun m path => return (← takePath false m path).1) m

/-- Takes in what a command consults. -/
def takeFor (m : Machine) (engine : Engine) : CommandLine.Command → IO Machine
  | .resolve name sort none => takeCandidates m engine (.parse name sort) none
  | .resolve name sort (some parentName) => do
    let m ← takeCandidates m engine (.parse parentName .template) none
    match Resolver.populate m engine (.parse parentName .template) none with
    | .ok parent => takeCandidates m engine (.parse name sort) (some parent)
    | .error _ => return m
  | .compile stream _ => return (← takePath true m stream).1
  | .list =>
    engine.templateDirs.dirs.foldlM (fun m dir => do
      match ← takePath false m dir with
      | (m, some place) => takeTree m place
      | (m, none) => return m) m

/-- A machine that knows the working directory and the variable, and no files yet. -/
def surroundings : IO Machine := do
  let configVariable ← IO.getEnv configVariableName
  try
    let here ← IO.currentDir
    let m : Machine := { workingPlace := ⟨Folder.steps here.toString, 0⟩, configVariable }
    return (← takePath false m here.toString).1
  -- The directory was removed, so there is no name to be known; any name will do.
  catch _ => return { workingPlace := ⟨["removed"], 1⟩, configVariable }

/-- Runs a request on what it consults. -/
def runRequest (request : CommandLine.Request) : IO CommandLine.Outcome := do
  let m ← surroundings
  let m ← (Settings.places m request.configFile).foldlM
    (fun m path => return (← takePath true m path).1) m
  match CommandLine.findEngine m request.configFile with
  | .error f => return CommandLine.failed f
  | .ok engine => return CommandLine.runRequest (← takeFor m engine request.command) request

/-- The outcome of a run; an error of the file system ends it. -/
def outcomeOf (args : List String) : IO CommandLine.Outcome := do
  match CommandLine.read args with
  | .error stop => return stop.outcome
  | .ok request =>
    try runRequest request
    catch e => return CommandLine.failed (.reading (.other (toString e)))

end TagPress.Main

/-- Runs the program: prints what the run leaves and ends with its exit code. -/
def main (args : List String) : IO UInt32 := do
  let outcome ← TagPress.Main.outcomeOf args
  IO.print outcome.output
  IO.eprint outcome.diagnostics
  return outcome.exit.toUInt32
