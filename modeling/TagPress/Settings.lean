import TagPress.Engine
import TagPress.Failure
import TagPress.Toml.Decode

/-!
# Settings

The settings are the content of a configuration file: search directories, the security policy,
modifiers, callbacks and functions. Relative directories count from the directory of the file.
-/

namespace TagPress

open Toml

/-- A search directory of the settings. -/
inductive DirEntry where
  /-- A directory that is numbered. -/
  | numbered (path : String)
  /-- A directory with a name. -/
  | named (key path : String)
  deriving DecidableEq

/-- The security section of the settings. -/
structure SecuritySettings where
  /-- Whether there is a security policy. -/
  enabled : Bool := false
  /-- Directories that are trusted besides the search directories. -/
  secureDirs : List String := []
  /-- If not empty, the only modifiers that are trusted. -/
  allowedModifiers : List String := []
  /-- Modifiers that are never trusted. -/
  disabledModifiers : List String := []
  deriving DecidableEq

/-- The content of a configuration file. -/
structure Settings where
  /-- Where templates are searched. -/
  templateDirs : List DirEntry := []
  /-- Where configuration files are searched. -/
  configDirs : List DirEntry := []
  /-- The security section. -/
  security : SecuritySettings := {}
  /-- Legacy modifiers and their call targets. -/
  modifiers : List (String × String) := []
  /-- Names of run-time callbacks. -/
  callbacks : List String := []
  /-- Functions, and whether their output may be cached. -/
  functions : List (String × Bool) := []
  /-- The directory that relative directories count from. -/
  baseDir : String := ""
  deriving DecidableEq

/-! ## Decoding -/

/-- A search directory: a path, or a table with a key and a path. -/
def decodeDirEntry : Decoder DirEntry := fun v =>
  let misfit : Except Misfit DirEntry := .error ⟨.noVariant "DirEntry", none⟩
  match v.view with
  | .text path => .ok (.numbered path)
  | .mapping entries =>
    match entries.lookup "key", entries.lookup "path" with
    | some ⟨_, .string key⟩, some ⟨_, .string path⟩ => .ok (.named key path)
    | _, _ => misfit
  | _ => misfit

/-- The security section. -/
def decodeSecurity : Decoder SecuritySettings :=
  decodeRecord "struct SecurityConfig"
    [.make "enabled" decodeBool fun s enabled => { s with enabled },
      .make "secure_dirs" (decodeList decodePath) fun s secureDirs => { s with secureDirs },
      .make "allowed_modifiers" (decodeList decodeText)
        fun s allowedModifiers => { s with allowedModifiers },
      .make "disabled_modifiers" (decodeList decodeText)
        fun s disabledModifiers => { s with disabledModifiers }]
    {}

/-- The names of the callbacks. -/
def decodeCallbacks : Decoder (List String) :=
  decodeRecord "struct ModifierCallbacks"
    [.make "names" (decodeList decodeText) fun _ names => names] []

/-- Whether the output of a function may be cached. -/
def decodeFunction : Decoder Bool :=
  decodeRecord "struct FunctionConfig"
    [.make "cacheable" decodeBool fun _ cacheable => cacheable] true

namespace Settings

/-- The sections of a configuration file. -/
def fields : List (RecordField Settings) :=
  [.make "template_dirs" (decodeList decodeDirEntry)
      fun s templateDirs => { s with templateDirs },
    .make "config_dirs" (decodeList decodeDirEntry) fun s configDirs => { s with configDirs },
    .make "security" decodeSecurity fun s security => { s with security },
    .make "modifiers" (decodeMap decodeText) fun s modifiers => { s with modifiers },
    .make "modifier_callbacks" decodeCallbacks fun s callbacks => { s with callbacks },
    .make "functions" (decodeMap decodeFunction) fun s functions => { s with functions }]

/-- The settings in a text. An unknown section is refused. -/
def parse : String → Except Toml.Error Settings :=
  decodeDocument fields true {}

/-! ## The engine -/

/-- The absolute path of a directory of the settings. -/
def resolveDir (s : Settings) (workingDir : Option String) (dir : String) : String :=
  Path.absolute workingDir (Path.join s.baseDir dir)

/-- The search directories of a list of entries. -/
def searchDirs (s : Settings) (workingDir : Option String) (entries : List DirEntry) : SearchDirs :=
  entries.foldl (fun dirs entry =>
    match entry with
    | .numbered path => dirs.push workingDir (s.resolveDir workingDir path)
    | .named key path => dirs.insertNamed workingDir key (s.resolveDir workingDir path)) {}

/-- Registers the legacy modifiers in order, up to the first malformed target. -/
def addModifiers : List (String × String) → Registry → Except ConfigFault Registry
  | [], registry => .ok registry
  | (name, text) :: modifiers, registry =>
    match CallTarget.parse text with
    | .ok target =>
      addModifiers modifiers (registry.registerPlugin .modifier name (.callable target))
    | .error e => .error (.invalidTarget name e)

/-- The registry with the callbacks and functions of the settings. -/
def baseRegistry (s : Settings) : Registry :=
  -- The modifiers are added last, since a malformed target ends the registration.
  let withCallbacks := s.callbacks.foldl Registry.registerCallback .builtins
  s.functions.foldl (fun r (name, cacheable) => r.registerFunction name ⟨cacheable⟩) withCallbacks

/-- The security policy of the settings; the search directories are trusted. -/
def policy? (s : Settings) (workingDir : Option String) (templateDirs configDirs : SearchDirs) :
    Option Policy :=
  if s.security.enabled then
    some
      { templateDirs := templateDirs.dirs
        configDirs := configDirs.dirs
        secureDirs := s.security.secureDirs.map (s.resolveDir workingDir)
        allowedModifiers := s.security.allowedModifiers
        disabledModifiers := s.security.disabledModifiers }
  else none

/-- The engine that the settings describe. -/
def toEngine (s : Settings) (workingDir : Option String) : Except ConfigFault Engine :=
  let templateDirs := s.searchDirs workingDir s.templateDirs
  let configDirs := s.searchDirs workingDir s.configDirs
  (addModifiers s.modifiers s.baseRegistry).map fun registry =>
    { registry, templateDirs, configDirs
      gate := (s.policy? workingDir templateDirs configDirs).map Policy.gate }

end Settings

end TagPress
