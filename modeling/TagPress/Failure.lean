import TagPress.CallTarget
import TagPress.Fault
import TagPress.Machine
import TagPress.Source
import TagPress.Toml.Decode

/-!
# Failures

What can go wrong in a whole run: compiling, looking a source up, finding or understanding the
configuration, reading a file, or understanding a tag stream. Each failure has a wording, an exit
code and, where something can be done about it, suggestions.
-/

namespace TagPress

/-- The name of the configuration file that is looked for. -/
def configFileName : String := "stencil.toml"

/-- The name of the variable that names a configuration file. -/
def configVariableName : String := "STENCIL_CONFIG"

/-- What can be wrong with the configuration. -/
inductive ConfigFault where
  /-- The configuration file does not exist. -/
  | fileNotFound (path : String)
  /-- The configuration file does not hold a configuration. -/
  | unparsable (path : String) (e : Toml.Error)
  /-- The variable names no file. -/
  | variableWithoutFile (path : String)
  /-- No directory from `start` upward has a configuration file. -/
  | nothingFound (start : String)
  /-- The call target of a modifier is malformed. -/
  | invalidTarget (modifier : String) (e : InvalidCallable)
  /-- The tag stream does not exist. -/
  | streamNotFound (path : String)
  /-- Anything else, in words. -/
  | other (text : String)
  deriving DecidableEq

/-- The wording of a configuration fault. -/
def ConfigFault.message : ConfigFault → String
  | fileNotFound path => "Config file not found: " ++ path
  | unparsable path e => "Failed to parse " ++ path ++ ": " ++ e.message
  | variableWithoutFile path =>
    configVariableName ++ " is set to '" ++ path ++ "' but no such file exists"
  | nothingFound start => "No " ++ configFileName ++ " found from " ++ start
  | invalidTarget modifier e =>
    "Invalid target for modifier '" ++ modifier ++ "': " ++ e.message
  | streamNotFound path => "Tag stream not found: " ++ path
  | other text => text

/-- Why a run ends without a result. -/
inductive Failure where
  /-- The tags cannot be compiled. -/
  | compile (e : CompileError)
  /-- A source cannot be had. -/
  | resource (e : ResourceError)
  /-- The configuration is wrong. -/
  | config (fault : ConfigFault)
  /-- A file cannot be read. -/
  | reading (e : ReadError)
  /-- A tag stream cannot be understood. -/
  | stream (e : Toml.Error)
  deriving DecidableEq

namespace Failure

/-- The wording of a failure. -/
def message : Failure → String
  | compile e => e.message
  | resource e => e.message
  | config fault => "Configuration error: " ++ fault.message
  | reading e => "IO error: " ++ e.message
  | stream e => "TOML deserialization error: " ++ e.message

/-- The exit code of a failed run. -/
def exitCode : Failure → Nat
  | compile _ => 3
  | resource _ => 4
  | config _ => 2
  | reading _ => 1
  | stream _ => 2

/-- A text followed by a list of suggestions. -/
def suggesting (text : String) (suggestions : List String) : String :=
  text ++ "\n\nSuggestions:" ++ String.join (suggestions.map ("\n• " ++ ·))

/-- What to do about blocks that do not nest. -/
def balanceAdvice : List String :=
  ["Every \x7bif\x7d needs a matching \x7b/if\x7d",
    "\x7belse\x7d and \x7belseif\x7d may only follow \x7bif\x7d or \x7belseif\x7d"]

/-- What to do about a compile fault. -/
def faultAdvice : Fault → List String
  | .unknownModifier name =>
    ["Declare it under [modifiers] in stencil.toml (e.g., " ++ name ++ " = \"my_fn\")",
      "Register it as a runtime callback under [modifier_callbacks]",
      "Check that the security policy does not disable it"]
  | .unknownFunction name =>
    ["Declare the function under [functions] in stencil.toml",
      "Check the spelling of '" ++ name ++ "' (tag names are case-sensitive)"]
  | .unclosedTag _ => balanceAdvice
  | .unbalanced _ _ => balanceAdvice
  | _ => []

/-- The wording of a failure with suggestions, if there are any. A configuration fault that reports
the missing file is shown without its heading. -/
def advice (f : Failure) : String :=
  match f with
  | compile e =>
    match faultAdvice e.fault with
    | [] => f.message
    | suggestions => suggesting f.message suggestions
  | resource (.untrustedDirectory _) =>
    suggesting f.message
      ["Add the directory to template_dirs or config_dirs", "List it under [security] secure_dirs"]
  | config fault =>
    -- The wording decides, not the kind of the fault.
    if Text.occurs ("No " ++ configFileName).toList fault.message.toList then
      suggesting fault.message
        ["Create a stencil.toml with a template_dirs entry", "Pass --config-file <PATH>",
          "Set STENCIL_CONFIG to the configuration file"]
    else f.message
  | _ => f.message

end Failure

end TagPress
