import TagPress.Schema
import TagPress.Scope

/-!
# Compile contexts

A context is the state of one compile unit: the open blocks, the caching flags and the place that
errors are reported at. An operation on a context gives a result or an error together with the next
context, so that what it did before an error is kept.
-/

namespace TagPress

/-- The state of one compile unit. -/
structure Context where
  /-- The template that is compiled. -/
  template : Option String := none
  /-- The line of the tag that is compiled. -/
  line : Option Nat := none
  /-- Whether caching is off for the block. -/
  nocache : Bool := false
  /-- Whether the tag that is compiled must not be cached. -/
  tagNocache : Bool := false
  /-- Whether the unit has emitted code. -/
  hasCode : Bool := false
  /-- The open blocks. -/
  scopes : ScopeStack := {}
  deriving DecidableEq

/-- A result or an error, and the context after it. -/
abbrev Step (α : Type) := Except CompileError α × Context

/-- Goes on with the result; an error is final. -/
def Step.andThen {α β : Type} (step : Step α) (next : α → Context → Step β) : Step β :=
  match step with
  | (.ok a, ctx) => next a ctx
  | (.error e, ctx) => (.error e, ctx)

namespace Context

/-- An error at the place of the context, unless it has a place. -/
def locate (ctx : Context) (e : CompileError) : CompileError :=
  e.placedAt ctx.template ctx.line

/-- The error of a fault at the place of the context. -/
def failure (ctx : Context) (fault : Fault) : CompileError :=
  ctx.locate { fault }

/-- Resolves the arguments of a tag. What they ask about caching is recorded, also when they are
refused. -/
def resolve (ctx : Context) (schema : Schema) (tag : Tag) : Step Attributes :=
  let resolution := schema.resolve tag
  (resolution.outcome.mapError ctx.failure,
    { ctx with tagNocache := ctx.tagNocache || resolution.asksNocache })

/-- Opens a block of a family at the current line. -/
def openTag (ctx : Context) (family : String) : Context :=
  { ctx with scopes := ctx.scopes.push ⟨family, ctx.nocache, ctx.line⟩ }

/-- Closes the run of innermost blocks of the expected families. Gives their number and whether
caching is off afterwards. -/
def closeTag (ctx : Context) (tag : String) (expected : List String) : Step (Nat × Bool) :=
  match ctx.scopes.close tag expected with
  | .error fault => (.error (ctx.failure fault), ctx)
  | .ok closed =>
    -- Caching never comes back on here, even if it was on before the first block.
    let nocache := ctx.nocache || closed.nocache
    (.ok (closed.count, nocache), { ctx with scopes := closed.remaining, nocache })

/-- Checks that no block is open at the end of the unit. -/
def finish (ctx : Context) : Except CompileError Unit :=
  ctx.scopes.ensureEmpty.mapError fun e => e.placedAt ctx.template e.line

end Context

end TagPress
