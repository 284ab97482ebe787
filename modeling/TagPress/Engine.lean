import TagPress.Invocation
import TagPress.Policy
import TagPress.Registry
import TagPress.SearchDirs

/-!
# Engines

An engine holds everything that templates are compiled and sources are looked up with. It never
changes while it is used.
-/

namespace TagPress

/-- What templates are compiled and sources are looked up with. -/
structure Engine where
  /-- The known tags, functions and modifiers. -/
  registry : Registry := .builtins
  /-- The security gate; without one everything is trusted. -/
  gate : Option Gate := none
  /-- Where templates are searched. -/
  templateDirs : SearchDirs := {}
  /-- Where configuration files are searched. -/
  configDirs : SearchDirs := {}

namespace Engine

/-- The directories that are searched for a class of sources. -/
def dirsFor (e : Engine) : ResourceClass → SearchDirs
  | .template => e.templateDirs
  | .config => e.configDirs

/-- Whether a modifier may be used in a context. -/
def trustsModifier (e : Engine) (ctx : Context) (name : String) : Bool :=
  match e.gate with
  | some gate => gate.trustsModifier ctx name
  | none => true

/-- Applies a chain of modifiers to an expression, left to right. A step that is not trusted in the
context leaves the expression as it is; otherwise its name has to be known. -/
def applyModifiers (e : Engine) (ctx : Context) : List Invocation → String → Except Fault String
  | [], value => .ok value
  | step :: steps, value =>
    -- Trust comes first, so a name that is neither trusted nor known is no fault.
    if !e.trustsModifier ctx step.name then e.applyModifiers ctx steps value
    else
      match e.registry.resolveModifier? step.name with
      | none => .error (.unknownModifier step.name)
      | some handler =>
        match handler.apply step.name (step.argsWith value) with
        | .ok code => e.applyModifiers ctx steps code
        | .error fault => .error fault

end Engine

/-- Applies a chain of modifiers to an expression, which counts as code from the beginning. -/
def Context.applyModifiers (ctx : Context) (engine : Engine) (steps : List Invocation)
    (value : String) : Step String :=
  ((engine.applyModifiers { ctx with hasCode := true } steps value).mapError ctx.failure,
    { ctx with hasCode := true })

end TagPress
