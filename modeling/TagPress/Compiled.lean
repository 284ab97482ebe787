import TagPress.Dispatch

/-!
# Compiled templates

A compile unit is the list of a template's tags. Every tag that emits code gives one fragment, which
is marked when it has to run at render time. The unit fails at its first tag that fails, or at its
end if a block is still open.
-/

namespace TagPress

/-- A piece of emitted code. -/
structure Fragment where
  /-- The code. -/
  code : String
  /-- Whether it has to run at render time. -/
  nocache : Bool
  /-- The line of its tag. -/
  line : Option Nat
  deriving DecidableEq

/-- The code of a template. -/
structure Compiled where
  /-- The fragments in order. -/
  fragments : List Fragment := []
  /-- Whether a fragment has to run at render time. -/
  hasNocacheCode : Bool := false
  /-- Whether code was emitted. -/
  hasCode : Bool := false
  deriving DecidableEq

/-- The code of all fragments. -/
def Compiled.code (c : Compiled) : String :=
  String.join (c.fragments.map (·.code))

/-- Adds a fragment at the end. -/
def Compiled.push (c : Compiled) (fragment : Fragment) : Compiled :=
  { c with
    fragments := c.fragments ++ [fragment]
    hasNocacheCode := c.hasNocacheCode || fragment.nocache }

/-- Compiles tags one after the other, beginning in the given context, and adds their fragments to
what there is. -/
def Compiled.extend (engine : Engine) :
    List Tag → Compiled → Context → Except CompileError (Compiled × Context)
  | [], compiled, ctx => .ok (compiled, ctx)
  | tag :: tags, compiled, ctx =>
    match dispatch engine tag { ctx with tagNocache := false } with
    | (.error e, _) => .error e
    | (.ok code, ctx) =>
      -- A tag without code gives no fragment, but what it did to the context stays.
      if code.isEmpty then extend engine tags compiled ctx
      else
        extend engine tags (compiled.push ⟨code, ctx.tagNocache || ctx.nocache, tag.line⟩)
          { ctx with hasCode := true }

/-- Compiles the tags of a template. -/
def compile (engine : Engine) (template : Option String) (tags : List Tag) :
    Except CompileError Compiled :=
  match Compiled.extend engine tags {} { template } with
  | .error e => .error e
  | .ok (compiled, ctx) =>
    match ctx.finish with
    | .error e => .error e
    -- Applying modifiers sets the flag as well, with or without a fragment.
    | .ok () => .ok { compiled with hasCode := ctx.hasCode }

end TagPress
