import TagPress.Discovery
import TagPress.Report
import TagPress.Resolver

/-!
# The command line

A run reads its arguments, finds the configuration, and resolves an identifier, compiles a tag
stream or lists the templates. Options are written `--name value` or `--name=value`, with a short
form also `-nvalue` and `-n=value`; a value of its own does not begin with a dash, and `--` makes
all that follows words. No option may be repeated. The configuration file can be given before and
after the command; then the later one counts.
-/

namespace TagPress.CommandLine

/-! ## Reading arguments -/

/-- Why reading arguments ends early. -/
inductive Stop where
  /-- The version was asked for. -/
  | version
  /-- Help was asked for. -/
  | help
  /-- The arguments are not understood. -/
  | refused
  deriving DecidableEq

/-- What an option does. -/
inductive Effect where
  /-- Ends reading. -/
  | stops (reason : Stop)
  /-- Is there or not. -/
  | flag
  /-- Has a value, which may be empty or not. -/
  | value (mayBeEmpty : Bool)
  deriving DecidableEq

/-- An option. -/
structure Opt where
  /-- The name after two dashes. -/
  long : String
  /-- The letter after one dash. -/
  short : Option Char := none
  /-- What it does. -/
  effect : Effect
  deriving DecidableEq

/-- The form of an argument. -/
inductive Form where
  /-- Two dashes. -/
  | divider
  /-- A long option and the value attached to it. -/
  | long (name : String) (attached : Option String)
  /-- A short option and the value attached to it. -/
  | short (letter : Char) (attached : Option String)
  /-- Anything else. -/
  | word
  deriving DecidableEq

/-- The value after an equals sign, and the text before it. -/
def splitAttached (cs : List Char) : String × Option String :=
  match Text.splitOnce ['='] cs with
  | some (name, value) => (String.ofList name, some (String.ofList value))
  | none => (String.ofList cs, none)

/-- The value attached to a short option; an equals sign in front of it is left out. -/
def shortAttached : List Char → Option String
  | [] => none
  | '=' :: cs => some (String.ofList cs)
  | cs => some (String.ofList cs)

/-- The form of an argument. -/
def formOf (arg : String) : Form :=
  match arg.toList with
  | ['-', '-'] => .divider
  | '-' :: '-' :: cs => let (name, attached) := splitAttached cs; .long name attached
  | '-' :: letter :: cs => .short letter (shortAttached cs)
  -- A dash alone is a word, and so is the empty text.
  | _ => .word

/-- The arguments that were understood: options with their values, and words. -/
structure Given where
  /-- The options by their long names; a flag has an empty value. -/
  options : List (String × String) := []
  /-- The words in order. -/
  words : List String := []
  deriving DecidableEq

/-- The value of an option. -/
def Given.value? (g : Given) (name : String) : Option String :=
  g.options.lookup name

/-- Adds an option that was not given before. -/
def Given.store (g : Given) (opt : Opt) (value : String) (mayBeEmpty : Bool) : Except Stop Given :=
  if (g.value? opt.long).isSome || (value.isEmpty && !mayBeEmpty) then .error .refused
  else .ok { g with options := (opt.long, value) :: g.options }

/-- Understands one option. The answer says whether the next argument is its value. -/
def readOption (opt : Opt) (attached : Option String) (isLong : Bool) (next : Option String)
    (g : Given) : Except Stop (Given × Bool) :=
  match opt.effect, attached with
  -- What follows the letter of a short option is not looked at any more.
  | .stops reason, some _ => .error (if isLong then .refused else reason)
  | .stops reason, none => .error reason
  | .flag, some _ => .error .refused
  | .flag, none => (g.store opt "" true).map (·, false)
  | .value mayBeEmpty, some value => (g.store opt value mayBeEmpty).map (·, false)
  | .value mayBeEmpty, none =>
    match next with
    | some value =>
      -- A value that begins with a dash has to be attached.
      if formOf value == .word then (g.store opt value mayBeEmpty).map (·, true)
      else .error .refused
    | none => .error .refused

/-- Understands an argument that begins with a dash. -/
def readDashed (options : List Opt) (form : Form) (next : Option String) (g : Given) :
    Except Stop (Given × Bool) :=
  match form with
  | .long name attached =>
    match options.find? (·.long == name) with
    | some opt => readOption opt attached true next g
    | none => .error .refused
  | .short letter attached =>
    match options.find? (·.short == some letter) with
    | some opt => readOption opt attached false next g
    | none => .error .refused
  | _ => .error .refused

/-- A command and what it takes. -/
structure Verb where
  /-- The name. -/
  name : String
  /-- The options. -/
  options : List Opt
  /-- For each word that is taken, whether it may be empty. -/
  words : List Bool
  deriving DecidableEq

/-- Adds a word, if the command takes one more. -/
def Verb.addWord (v : Verb) (g : Given) (word : String) : Except Stop Given :=
  match v.words[g.words.length]? with
  | some mayBeEmpty =>
    if word.isEmpty && !mayBeEmpty then .error .refused
    else .ok { g with words := g.words ++ [word] }
  | none => .error .refused

/-- Adds words up to the end. -/
def Verb.addWords (v : Verb) : List String → Given → Except Stop Given
  | [], g => .ok g
  | word :: words, g =>
    match v.addWord g word with
    | .ok g => v.addWords words g
    | .error stop => .error stop

/-- Understands the arguments after a command. -/
def Verb.read (v : Verb) : List String → Given → Except Stop Given
  | [], g => .ok g
  | arg :: args, g =>
    match formOf arg with
    | .divider => v.addWords args g
    | .word =>
      match v.addWord g arg with
      | .ok g => v.read args g
      | .error stop => .error stop
    | form =>
      match readDashed v.options form args.head? g with
      | .error stop => .error stop
      | .ok (g, false) => v.read args g
      | .ok (g, true) =>
        match args with
        | [] => .ok g
        | _ :: args => v.read args g

/-! ## Requests -/

/-- What to do. -/
inductive Command where
  /-- Resolve an identifier. -/
  | resolve (name : String) (sort : ResourceClass) (parent : Option String)
  /-- Compile a tag stream. -/
  | compile (stream : String) (template : Option String)
  /-- List the templates. -/
  | list
  deriving DecidableEq

/-- What to do with which configuration. -/
structure Request where
  /-- The configuration file, if it is given. -/
  configFile : Option String := none
  /-- What to do. -/
  command : Command
  deriving DecidableEq

/-- The option for help. -/
def helpOption : Opt := ⟨"help", some 'h', .stops .help⟩

/-- The option for the configuration file. -/
def configFileOption : Opt := { long := "config-file", effect := .value false }

/-- The options before the command. -/
def rootOptions : List Opt :=
  [configFileOption, helpOption, ⟨"version", some 'V', .stops .version⟩]

/-- The command that resolves an identifier. -/
def resolveVerb : Verb where
  name := "resolve"
  options := [configFileOption, helpOption, { long := "config", effect := .flag },
    { long := "parent", effect := .value false }]
  words := [true]

/-- The command that compiles a tag stream. -/
def compileVerb : Verb where
  name := "compile"
  options := [configFileOption, helpOption, ⟨"template", some 't', .value true⟩]
  words := [false]

/-- The command that lists the templates. -/
def listVerb : Verb where
  name := "list"
  options := [configFileOption, helpOption]
  words := []

/-- The commands. -/
def verbs : List Verb := [resolveVerb, compileVerb, listVerb]

/-- The command of a verb and its arguments, unless a word is missing. -/
def commandOf (v : Verb) (g : Given) : Except Stop Command :=
  match g.words with
  | [] => if v == listVerb then .ok .list else .error .refused
  | word :: _ =>
    if v == resolveVerb then
      .ok (.resolve word (if (g.value? "config").isSome then .config else .template)
        (g.value? "parent"))
    else .ok (.compile word (g.value? "template"))

/-- Understands a command and the arguments after it. -/
def readVerb (before : Given) (name : String) (args : List String) : Except Stop Request :=
  match verbs.find? (·.name == name) with
  | none =>
    if name == "help" && (args.all fun arg => ("help" :: verbs.map (·.name)).contains arg)
      && args.length ≤ 1 then .error .help
    else .error .refused
  | some verb =>
    match verb.read args {} with
    | .error stop => .error stop
    | .ok given =>
      (commandOf verb given).map fun command =>
        { configFile := (given.value? "config-file").or (before.value? "config-file"), command }

/-- Understands the arguments from the given ones on. -/
def readFrom : List String → Given → Except Stop Request
  | [], _ => .error .refused
  | arg :: args, g =>
    match formOf arg with
    | .divider => .error .refused
    | .word => readVerb g arg args
    | form =>
      match readDashed rootOptions form args.head? g with
      | .error stop => .error stop
      | .ok (g, false) => readFrom args g
      | .ok (g, true) =>
        match args with
        | [] => .error .refused
        | _ :: args => readFrom args g

/-- Understands the arguments of a run. -/
def read (args : List String) : Except Stop Request :=
  readFrom args {}

/-! ## Runs -/

/-- What a run leaves. -/
structure Outcome where
  /-- The exit code. -/
  exit : Nat
  /-- The text on standard output. -/
  output : String := ""
  /-- The text on standard error. -/
  diagnostics : String := ""
  /-- Whether the arguments were not understood. -/
  misused : Bool := false
  deriving DecidableEq

/-- The version line. -/
def versionText : String := "stencil 0.1.0\n"

/-- The help text. -/
def helpText : String :=
  "Template tag compiler and resource resolver\n\n"
    ++ "Usage: stencil [OPTIONS] <COMMAND>\n\n"
    ++ "Commands:\n"
    ++ "  resolve  Resolve a template or config identifier to its source file\n"
    ++ "  compile  Compile a TOML tag stream into code fragments\n"
    ++ "  list     List the templates reachable through the template directories\n"
    ++ "  help     Print this message or the help of the given subcommand(s)\n\n"
    ++ "Options:\n"
    ++ "      --config-file <PATH>  "
    ++ "Configuration file (default: STENCIL_CONFIG, then the nearest stencil.toml)\n"
    ++ "  -h, --help                Print help\n"
    ++ "  -V, --version             Print version\n"

/-- The outcome of arguments that do not lead to a command. -/
def Stop.outcome : Stop → Outcome
  | version => { exit := 0, output := versionText }
  | help => { exit := 0, output := helpText }
  | refused =>
    { exit := 2
      diagnostics :=
        "error: the arguments are not understood\n\nFor more information, try '--help'.\n"
      misused := true }

/-- The outcome of a failed run. -/
def failed (f : Failure) : Outcome :=
  { exit := f.exitCode, diagnostics := "Error: " ++ f.advice ++ "\n" }

/-- The engine of the configuration that is found. -/
def findEngine (m : Machine) (configFile : Option String) : Except Failure Engine :=
  match Settings.discover m configFile with
  | .error f => .error f
  | .ok settings => (settings.toEngine m.workingDir).mapError .config

/-- The text that a command prints. -/
def perform (m : Machine) (engine : Engine) : Command → Except Failure String
  | .resolve name sort parent =>
    match Resolver.resolve m engine name sort parent with
    | .ok record => .ok record.report
    | .error e => .error (.resource e)
  | .compile stream template =>
    match loadStream m stream with
    | .error f => .error f
    | .ok tags =>
      match compile engine template tags with
      | .ok compiled => .ok (Text.stripEnd (reportFragments compiled.fragments) ++ "\n")
      | .error e => .error (.compile e)
  | .list => .ok (Text.stripEnd (reportListing (listTemplates m engine)) ++ "\n")

/-- Runs a request. -/
def runRequest (m : Machine) (request : Request) : Outcome :=
  match findEngine m request.configFile with
  | .error f => failed f
  | .ok engine =>
    match perform m engine request.command with
    | .ok output => { exit := 0, output }
    | .error f => failed f

/-- Runs the program with its arguments. -/
def run (m : Machine) (args : List String) : Outcome :=
  match read args with
  | .error stop => stop.outcome
  | .ok request => runRequest m request

end TagPress.CommandLine
