import TagPress.Settings
import TagPress.TagStream

/-!
# Finding and loading files

The configuration file is the one that is given, else the one that the variable names, else the
first `stencil.toml` in the working directory and the directories above it.
-/

namespace TagPress

namespace Settings

/-- Loads a configuration file. -/
def load (m : Machine) (path : String) : Except Failure Settings :=
  match m.read path with
  | .error .notFound => .error (.config (.fileNotFound path))
  | .error e => .error (.reading e)
  | .ok text =>
    match parse text with
    | .error e => .error (.config (.unparsable path e))
    | .ok settings =>
      .ok { settings with baseDir := Path.absolute m.workingDir ((Path.parent? path).getD ".") }

/-- The places of a configuration file from a directory upward, nearest first. -/
def placesFrom (start : String) : List String :=
  (Path.ancestors start).map (Path.join · configFileName)

/-- The paths at which a configuration file is looked for. -/
def places (m : Machine) (given : Option String) : List String :=
  match given.or m.configVariable with
  | some path => [path]
  | none => (m.workingDir.map placesFrom).getD []

/-- Loads the nearest configuration file from a directory upward. -/
def discoverFrom (m : Machine) (start : String) : Except Failure Settings :=
  match (placesFrom start).find? m.isFile with
  | some path => load m path
  | none => .error (.config (.nothingFound start))

/-- Loads the configuration file that is given, named by the variable, or found upward from the
working directory. -/
def discover (m : Machine) (given : Option String) : Except Failure Settings :=
  match given, m.configVariable with
  | some path, _ => load m path
  | none, some path =>
    -- What the variable names has to be a file. A path that is given is just loaded.
    if m.isFile path then load m path else .error (.config (.variableWithoutFile path))
  | none, none =>
    match m.workingDir with
    | some start => discoverFrom m start
    | none => .error (.reading .notFound)

end Settings

/-- Loads the tags of a stream. -/
def loadStream (m : Machine) (path : String) : Except Failure (List Tag) :=
  match m.read path with
  | .error .notFound => .error (.config (.streamNotFound path))
  | .error e => .error (.reading e)
  | .ok text => (parseStream text).mapError .stream

end TagPress
