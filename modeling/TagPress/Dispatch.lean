import TagPress.Engine

/-!
# Compiling tags

Each way to compile a tag resolves the tag's arguments first and then changes the open blocks. A
conditional becomes nested `if` statements: every `elseif` opens one more, and the closing tag
closes them all.
-/

namespace TagPress

/-- Tags with a condition. -/
def conditionSchema : Schema := { required := ["condition"], shorthand := ["condition"] }

/-- Tags without arguments. -/
def bareSchema : Schema := {}

/-- The tag that prints a value. -/
def valueSchema : Schema := { required := ["value"], shorthand := ["value"] }

/-- Function calls take any named argument and up to three positional ones. -/
def functionSchema : Schema :=
  { optional := [anyAttribute], shorthand := ["var1", "var2", "var3"] }

/-- The families of frames that belong to a conditional. -/
def conditionalFamilies : List String := ["if", "elseif", "else"]

/-- The value of an attribute that the schema requires. -/
def valueOf (attrs : Attributes) (name : String) : String :=
  (attrs.get? name).getD ""

/-- The call of a function handler with resolved attributes. -/
def handlerCall (function : String) (attrs : Attributes) : String :=
  "$_tpl->getFunctionHandler(" ++ Code.quote function ++ ")->handle("
    ++ Code.paramsArray attrs ++ ", $_tpl)"

/-- The call of a function with the tag's arguments and modifiers. -/
def compileCall (engine : Engine) (function : String) (tag : Tag) (ctx : Context) : Step String :=
  -- A name that is not known is reported before the arguments are looked at.
  match engine.registry.functions.get? function with
  | none => (.error (ctx.failure (.unknownFunction function)), ctx)
  | some handler =>
    (ctx.resolve functionSchema tag).andThen fun attrs ctx =>
      let ctx := { ctx with tagNocache := ctx.tagNocache || !handler.cacheable }
      let code := handlerCall function attrs
      if tag.modifiers.isEmpty then (.ok code, ctx)
      else ctx.applyModifiers engine tag.modifiers code

/-- Opens a conditional. -/
def compileIf (tag : Tag) (ctx : Context) : Step String :=
  (ctx.resolve conditionSchema tag).andThen fun attrs ctx =>
    (.ok ("if (" ++ valueOf attrs "condition" ++ ") \x7b"), ctx.openTag "if")

/-- Adds a condition to the innermost conditional. -/
def compileElseIf (tag : Tag) (ctx : Context) : Step String :=
  (ctx.resolve conditionSchema tag).andThen fun attrs ctx =>
    -- The frame of the conditional stays below the new one.
    match ctx.scopes.checkTop "elseif" ["if", "elseif"] with
    | .error fault => (.error (ctx.failure fault), ctx)
    | .ok () =>
      (.ok ("\x7d else \x7b if (" ++ valueOf attrs "condition" ++ ") \x7b"), ctx.openTag "elseif")

/-- Starts the last branch of the innermost conditional. -/
def compileElse (tag : Tag) (ctx : Context) : Step String :=
  (ctx.resolve bareSchema tag).andThen fun _ ctx =>
    -- No frame is added, since no statement is opened: the branch ends where the conditional does.
    match ctx.scopes.replaceTop "else" ["if", "elseif"] ⟨"else", ctx.nocache, ctx.line⟩ with
    | .error fault => (.error (ctx.failure fault), ctx)
    | .ok scopes => (.ok "\x7d else \x7b", { ctx with scopes })

/-- Closes the innermost conditional. Its last fragment is not cached when caching is off inside or
was off where one of its blocks was opened. -/
def compileIfClose (tag : Tag) (ctx : Context) : Step String :=
  (ctx.resolve bareSchema tag).andThen fun _ ctx =>
    -- Recorded before the blocks are closed, so that it stays if closing them fails.
    let ctx := { ctx with tagNocache := ctx.tagNocache || ctx.nocache }
    (ctx.closeTag "/if" conditionalFamilies).andThen fun (nesting, nocache) ctx =>
      (.ok (String.ofList (List.replicate nesting '\x7d')),
        { ctx with tagNocache := ctx.tagNocache || nocache })

/-- Turns caching off for a block. -/
def compileNocache (tag : Tag) (ctx : Context) : Step String :=
  (ctx.resolve bareSchema tag).andThen fun _ ctx =>
    (.ok "", { ctx.openTag "nocache" with nocache := true })

/-- Ends a block without caching. -/
def compileNocacheClose (tag : Tag) (ctx : Context) : Step String :=
  (ctx.resolve bareSchema tag).andThen fun _ ctx =>
    match ctx.scopes.pop "/nocache" ["nocache"] with
    | .error fault => (.error (ctx.failure fault), ctx)
    | .ok (frame, scopes) => (.ok "", { ctx with scopes, nocache := frame.nocache })

/-- Prints the value with its modifiers applied. -/
def compilePrint (engine : Engine) (tag : Tag) (ctx : Context) : Step String :=
  (ctx.resolve valueSchema tag).andThen fun attrs ctx =>
    (ctx.applyModifiers engine tag.modifiers (valueOf attrs "value")).andThen fun code ctx =>
      (.ok ("echo " ++ code ++ ";"), ctx)

/-- Compiles a tag in one of the built-in ways. -/
def TagCompiler.compile (compiler : TagCompiler) (engine : Engine) (tag : Tag) (ctx : Context) :
    Step String :=
  match compiler with
  | ifOpen => compileIf tag ctx
  | elseIf => compileElseIf tag ctx
  | elseBranch => compileElse tag ctx
  | ifClose => compileIfClose tag ctx
  | nocacheOpen => compileNocache tag ctx
  | nocacheClose => compileNocacheClose tag ctx
  | print => compilePrint engine tag ctx
  | functionCall => compileCall engine tag.name tag ctx

/-- Runs a compiler of one's own. -/
def TagProgram.run (engine : Engine) : TagProgram → Step String
  | done result ctx => (result, ctx)
  | pipe ctx steps value next =>
    (ctx.applyModifiers engine steps value).andThen fun code ctx => (next code ctx).run engine
  | call ctx function tag next =>
    (compileCall engine function tag ctx).andThen fun code ctx => (next code ctx).run engine

/-- Compiles a tag. -/
def TagHandler.compile (handler : TagHandler) (engine : Engine) (tag : Tag) (ctx : Context) :
    Step String :=
  match handler with
  | builtIn compiler => compiler.compile engine tag ctx
  | custom rule => (rule tag ctx).run engine

/-- How a tag is compiled: as registered, otherwise as a function call. -/
def Engine.handlerOf (engine : Engine) (tag : Tag) : TagHandler :=
  (engine.registry.tags.get? tag.name).getD (.builtIn .functionCall)

/-- Compiles a tag at its line. Errors get the place and the name of the tag. -/
def dispatch (engine : Engine) (tag : Tag) (ctx : Context) : Step String :=
  match (engine.handlerOf tag).compile engine tag { ctx with line := tag.line } with
  | (.ok code, ctx) => (.ok code, ctx)
  | (.error e, ctx) => (.error ((ctx.locate e).inTag tag.name), ctx)

end TagPress
