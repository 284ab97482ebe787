import TagPress.Invocation
import TagPress.OrderedMap

/-!
# Tags

A template is compiled from the list of its tags. A tag has a name, the line it stands on, named and
positional arguments and a chain of modifiers.
-/

namespace TagPress

/-- One tag of a template. -/
structure Tag where
  /-- The name, such as `if`, `/if` or the name of a function. -/
  name : String
  /-- The line of the template, when it is known. -/
  line : Option Nat := none
  /-- The named arguments in order. -/
  attributes : OrderedMap String String := .empty
  /-- The arguments without a name, left to right. -/
  positional : List String := []
  /-- The modifier steps, applied left to right. -/
  modifiers : List Invocation := []
  deriving DecidableEq

end TagPress
