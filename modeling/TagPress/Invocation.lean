import TagPress.Text.Alphanumeric
import TagPress.Text.Blank
import TagPress.Text.Split

/-!
# Modifier invocations

An invocation is one step of a modifier chain, written `name:argument:argument`. Colons inside
quotes belong to their argument. The first argument is the slot of the piped value, which a written
invocation leaves empty; `Invocation.render` writes the name and the arguments after the slot.
-/

namespace TagPress

/-- One step of a modifier chain. -/
structure Invocation where
  /-- The modifier's name. -/
  name : String
  /-- The slot of the piped value, then the further arguments. -/
  args : List String
  deriving DecidableEq

/-- A text that is no modifier invocation. -/
structure InvalidModifier where
  /-- The text as it was given. -/
  text : String
  deriving DecidableEq

/-- The wording of a rejected modifier. -/
def InvalidModifier.message (e : InvalidModifier) : String :=
  "Invalid modifier: '" ++ e.text ++ "'"

namespace Invocation

/-- The invocation written as `text`. The pieces between unquoted colons are trimmed, and the first
has to be a word. -/
def parse (text : String) : Except InvalidModifier Invocation :=
  match (Text.splitUnquoted ':' none (Text.trim text.toList)).map Text.trim with
  | name :: args =>
    -- The slot comes first and is filled when the step is applied.
    if Text.isWord name then .ok ⟨String.ofList name, "" :: args.map String.ofList⟩
    else .error ⟨text⟩
  | [] => .error ⟨text⟩

/-- The written form of an invocation. -/
def render (m : Invocation) : String :=
  m.name ++ String.join ((m.args.drop 1).map (":" ++ ·))

/-- The steps of a chain written with a bar between steps. Bars always separate, blank steps are
dropped, and the first step that is no invocation is reported. -/
def parseChain (text : String) : Except InvalidModifier (List Invocation) :=
  ((text.toList.splitOn '|').filter fun step => !(Text.trim step).isEmpty).mapM
    fun step => parse (String.ofList step)

/-- The arguments with the piped value in the slot. -/
def argsWith (m : Invocation) (value : String) : List String :=
  value :: m.args.drop 1

end Invocation

end TagPress
