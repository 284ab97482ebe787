import TagPress.Text.Numeral

/-!
# Compile errors

A `Fault` says what is wrong with a tag; a `CompileError` is a fault with the place where it was
found. Places are filled in from the inside out: a template, line or tag that is already recorded is
never replaced.
-/

namespace TagPress

/-- What can be wrong with a tag or a tag stream. -/
inductive Fault where
  /-- The tag is neither a known tag nor a known function. -/
  | unknownFunction (name : String)
  /-- No modifier has this name. -/
  | unknownModifier (name : String)
  /-- The tag does not fit the innermost open block. -/
  | unbalanced (tag : String) (innermost : Option String)
  /-- A block is still open at the end. -/
  | unclosedTag (family : String)
  /-- A required attribute has no value. -/
  | missingAttribute (name : String)
  /-- The tag does not take this attribute. -/
  | unexpectedAttribute (name : String)
  /-- There are more positional values than names for them. -/
  | tooManyPositional
  /-- An attribute is given both by position and by name. -/
  | duplicateAttribute (name : String)
  /-- Anything else, in words. -/
  | invalid (text : String)
  deriving DecidableEq

/-- The wording of a fault. -/
def Fault.message : Fault → String
  | unknownFunction name => "Cannot compile unknown function " ++ name ++ "."
  | unknownModifier name => "unknown modifier '" ++ name ++ "'"
  | unbalanced tag none => "unexpected tag \x7b" ++ tag ++ "\x7d"
  | unbalanced tag (some family) =>
    "unexpected tag \x7b" ++ tag ++ "\x7d, \x7b" ++ family ++ "\x7d is still open"
  | unclosedTag family => "unclosed \x7b" ++ family ++ "\x7d tag"
  | missingAttribute name => "missing '" ++ name ++ "' attribute"
  | unexpectedAttribute name => "unexpected '" ++ name ++ "' attribute"
  | tooManyPositional => "too many shorthand attributes"
  | duplicateAttribute name => "duplicate attribute '" ++ name ++ "'"
  | invalid text => text

/-- A fault and the place where it was found. -/
structure CompileError where
  /-- What is wrong. -/
  fault : Fault
  /-- The tag that was being compiled. -/
  tag : Option String := none
  /-- The line it stands on. -/
  line : Option Nat := none
  /-- The template that was being compiled. -/
  template : Option String := none
  deriving DecidableEq

namespace CompileError

/-- Records the tag, unless one is recorded. -/
def inTag (e : CompileError) (tag : String) : CompileError :=
  { e with tag := e.tag.or (some tag) }

/-- Records template and line, each unless one is recorded. -/
def placedAt (e : CompileError) (template : Option String) (line : Option Nat) : CompileError :=
  { e with template := e.template.or template, line := e.line.or line }

/-- The wording of an error with its place. -/
def message (e : CompileError) : String :=
  "Syntax error"
    ++ (match e.template with | some t => " in template \"" ++ t ++ "\"" | none => "")
    ++ (match e.line with | some n => " on line " ++ Text.showNat n | none => "")
    ++ (match e.tag with | some t => " in \x7b" ++ t ++ "\x7d" | none => "")
    ++ ": " ++ e.fault.message

end CompileError

end TagPress
