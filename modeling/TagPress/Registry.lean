import TagPress.CallTarget
import TagPress.Code
import TagPress.Context
import TagPress.OrderedMap

/-!
# The registry

The registry knows the tags, functions and modifiers of an engine. A tag is compiled in one of the
built-in ways or by a compiler of one's own. A modifier name is looked up in four places, and the
first that knows it decides how a step is compiled: inline modifiers, run-time callbacks, legacy
compilers and legacy call targets. The last two are asked of the default handler, whose answer
counts only if it is of the kind that was asked for.
-/

namespace TagPress

/-- The built-in ways to compile a tag. -/
inductive TagCompiler where
  /-- Opens a conditional. -/
  | ifOpen
  /-- Adds a condition to a conditional. -/
  | elseIf
  /-- Starts the last branch of a conditional. -/
  | elseBranch
  /-- Closes a conditional. -/
  | ifClose
  /-- Turns caching off. -/
  | nocacheOpen
  /-- Turns caching back to what it was. -/
  | nocacheClose
  /-- Prints an expression. -/
  | print
  /-- Calls the function with the tag's name. -/
  | functionCall
  deriving DecidableEq

/-- What a compiler of one's own does with a tag. It works on the context, and it can have an
expression piped through modifiers or a function called. If that fails, the compiler fails too: one
that went on could tell which names the engine knows. -/
inductive TagProgram where
  /-- Ends with code or an error. -/
  | done (result : Except CompileError String) (ctx : Context)
  /-- Pipes an expression through modifiers and goes on with the code. -/
  | pipe (ctx : Context) (steps : List Invocation) (value : String)
    (next : String → Context → TagProgram)
  /-- Calls a function with the arguments and modifiers of a tag and goes on with the code. -/
  | call (ctx : Context) (function : String) (tag : Tag) (next : String → Context → TagProgram)

/-- How a tag is compiled. -/
inductive TagHandler where
  /-- In one of the built-in ways. -/
  | builtIn (compiler : TagCompiler)
  /-- By a compiler of one's own. -/
  | custom (rule : Tag → Context → TagProgram)

/-- A modifier that writes its own code for the argument list. -/
abbrev InlineModifier := List String → Except Fault String

/-- A function that templates can call. -/
structure FunctionHandler where
  /-- Whether its output may be cached. -/
  cacheable : Bool := true
  deriving DecidableEq

/-- What the default handler is asked for. -/
inductive PluginKind where
  /-- A legacy modifier that is called at run time. -/
  | modifier
  /-- A legacy modifier that writes code. -/
  | modifierCompiler
  deriving DecidableEq

/-- What the default handler can answer. -/
inductive DefaultPlugin where
  /-- A function from the argument list to code. -/
  | compiler (rule : List String → String)
  /-- A target to call. -/
  | callable (target : CallTarget)

/-- A description of a plugin for diagnostics. -/
def DefaultPlugin.describe : DefaultPlugin → String
  | compiler _ => "ModifierCompiler(..)"
  | callable target => "Callable(" ++ target.describe ++ ")"

/-- How a modifier step is compiled. -/
inductive ModifierHandler where
  /-- By an inline modifier. -/
  | inline (rule : InlineModifier)
  /-- As the call of a callback that is looked up at run time. -/
  | callback
  /-- By a legacy compiler. -/
  | adapter (rule : List String → String)
  /-- As the call of a target. -/
  | callable (target : CallTarget)

/-- The call of a callback that is looked up at run time. -/
def callbackCall (name : String) (args : List String) : String :=
  "$_tpl->getModifierCallback(" ++ Code.quote name ++ ")(" ++ Text.joinWith "," args ++ ")"

namespace ModifierHandler

/-- A description of a handler for diagnostics. -/
def describe : ModifierHandler → String
  | inline _ => "Inline(..)"
  | callback => "Callback"
  | adapter _ => "Adapter(..)"
  | callable target => "Callable(" ++ target.describe ++ ")"

/-- The code of a step with the given argument list, the piped value first. -/
def apply (h : ModifierHandler) (name : String) (args : List String) : Except Fault String :=
  match h with
  | inline rule => rule args
  | callback => .ok (callbackCall name args)
  | adapter rule => .ok (rule args)
  | callable target => .ok (target.call (Text.joinWith "," args))

end ModifierHandler

/-- Joins the arguments with the concatenation operator. -/
def concatModifier : InlineModifier := fun args =>
  .ok ("(" ++ Text.joinWith " . " args ++ ")")

/-- Takes the argument, or the empty text, where the value is null. -/
def defaultModifier : InlineModifier
  | [value] => .ok ("(" ++ value ++ " ?? '')")
  | [value, fallback] => .ok ("(" ++ value ++ " ?? " ++ fallback ++ ")")
  -- The piped value is always there, so there are too many arguments.
  | _ => .error (.invalid "modifier 'default' takes at most one argument")

/-- The tags, functions and modifiers of an engine. -/
structure Registry where
  /-- How tags are compiled. -/
  tags : OrderedMap String TagHandler := .empty
  /-- Modifiers that write their own code. -/
  inlineModifiers : OrderedMap String InlineModifier := .empty
  /-- Names of run-time callbacks. -/
  callbacks : List String := []
  /-- Functions that templates can call. -/
  functions : OrderedMap String FunctionHandler := .empty
  /-- The answers of the default handler. -/
  plugins : OrderedMap (PluginKind × String) DefaultPlugin := .empty

namespace Registry

/-- The registry of the built-in tags and modifiers. -/
def builtins : Registry where
  tags := .ofList [("if", .builtIn .ifOpen), ("elseif", .builtIn .elseIf),
    ("else", .builtIn .elseBranch), ("/if", .builtIn .ifClose), ("nocache", .builtIn .nocacheOpen),
    ("/nocache", .builtIn .nocacheClose), ("print", .builtIn .print)]
  inlineModifiers := .ofList [("cat", concatModifier), ("default", defaultModifier)]

/-- Registers a way to compile a tag. -/
def registerTag (r : Registry) (name : String) (handler : TagHandler) : Registry :=
  { r with tags := r.tags.insert name handler }

/-- Registers an inline modifier. -/
def registerInline (r : Registry) (name : String) (rule : InlineModifier) : Registry :=
  { r with inlineModifiers := r.inlineModifiers.insert name rule }

/-- Registers a run-time callback. -/
def registerCallback (r : Registry) (name : String) : Registry :=
  { r with callbacks := r.callbacks ++ [name] }

/-- Registers a function. -/
def registerFunction (r : Registry) (name : String) (handler : FunctionHandler) : Registry :=
  { r with functions := r.functions.insert name handler }

/-- Registers an answer of the default handler. -/
def registerPlugin (r : Registry) (kind : PluginKind) (name : String) (plugin : DefaultPlugin) :
    Registry :=
  { r with plugins := r.plugins.insert (kind, name) plugin }

/-- Whether a name is a run-time callback. -/
def hasCallback (r : Registry) (name : String) : Bool :=
  r.callbacks.contains name

/-- The answer of the default handler. -/
def defaultPlugin? (r : Registry) (name : String) (kind : PluginKind) : Option DefaultPlugin :=
  r.plugins.get? (kind, name)

/-- How a modifier is compiled, if its name is known. -/
def resolveModifier? (r : Registry) (name : String) : Option ModifierHandler :=
  match r.inlineModifiers.get? name with
  | some rule => some (.inline rule)
  | none =>
    if r.hasCallback name then some .callback
    else
      match r.defaultPlugin? name .modifierCompiler with
      | some (.compiler rule) => some (.adapter rule)
      -- An answer of the other kind counts as none, and the next place is asked.
      | _ =>
        match r.defaultPlugin? name .modifier with
        | some (.callable target) => some (.callable target)
        | _ => none

end Registry

end TagPress
