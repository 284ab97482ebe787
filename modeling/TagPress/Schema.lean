import TagPress.Fault
import TagPress.Tag
import TagPress.Text.Blank

/-!
# Attribute schemas

A schema says which attributes a tag takes and which names its positional values get. The word
`nocache` is reserved: as a positional value or as a named attribute with a truthy value it asks for
a fragment that is not cached, and it is never among the resolved attributes that come from names.
-/

namespace TagPress

/-- Resolved attributes: names with their values, positional ones first. -/
abbrev Attributes := OrderedMap String String

/-- The optional name that stands for every name. -/
def anyAttribute : String := "_any"

/-- The reserved attribute. -/
def nocacheAttribute : String := "nocache"

/-- The values that count as false, trimmed and in lower case: the empty text, `false`, `0`, `null`
and the two empty literals. -/
def falseValues : List String := ["", "false", "0", "null", "''", "\"\""]

/-- Whether an attribute value counts as true. -/
def isTruthy (value : String) : Bool :=
  !falseValues.contains (String.ofList ((Text.trim value.toList).map Char.toLower))

/-- The attributes that a tag takes. -/
structure Schema where
  /-- Names that need a value. -/
  required : List String := []
  /-- Names that may have a value; `_any` allows every name. -/
  optional : List String := []
  /-- Names of the positional values, left to right. -/
  shorthand : List String := []
  deriving DecidableEq

/-- What became of a tag's arguments. -/
structure Resolution where
  /-- Whether the arguments that were read ask for no caching. -/
  asksNocache : Bool
  /-- The resolved attributes or the first fault. -/
  outcome : Except Fault Attributes

namespace Schema

/-- Whether a named attribute is allowed. -/
def accepts (s : Schema) (name : String) : Bool :=
  s.required.contains name || s.optional.any fun n => n == name || n == anyAttribute

/-- Gives the positional values the names of `names` in order. -/
def bindPositional : List String → List String → Attributes → Bool → Resolution
  | _, [], attrs, asks => ⟨asks, .ok attrs⟩
  | names, value :: values, attrs, asks =>
    -- The reserved word takes no name and does not count as one of the values.
    if Text.strip value == nocacheAttribute then bindPositional names values attrs true
    else
      match names with
      | [] => ⟨asks, .error .tooManyPositional⟩
      | name :: names => bindPositional names values (attrs.insert name value) asks

/-- Adds the named attributes in order; a name that is not allowed or already has a value is a
fault. -/
def bindNamed (s : Schema) : List (String × String) → Attributes → Bool → Resolution
  | [], attrs, asks => ⟨asks, .ok attrs⟩
  | (name, value) :: rest, attrs, asks =>
    -- A value that counts as false does not take back what was asked for.
    if name == nocacheAttribute then s.bindNamed rest attrs (asks || isTruthy value)
    else if !s.accepts name then ⟨asks, .error (.unexpectedAttribute name)⟩
    else if attrs.contains name then ⟨asks, .error (.duplicateAttribute name)⟩
    else s.bindNamed rest (attrs.insert name value) asks

/-- Checks that every required name has a value. -/
def checkRequired (s : Schema) (attrs : Attributes) : Except Fault Attributes :=
  match s.required.find? fun name => !attrs.contains name with
  | some name => .error (.missingAttribute name)
  | none => .ok attrs

/-- Resolves the arguments of a tag: positional values, then named ones, then the required names. -/
def resolve (s : Schema) (tag : Tag) : Resolution :=
  match bindPositional s.shorthand tag.positional .empty false with
  | ⟨asks, .error fault⟩ => ⟨asks, .error fault⟩
  | ⟨asks, .ok attrs⟩ =>
    match s.bindNamed tag.attributes.entries attrs asks with
    | ⟨asks, .error fault⟩ => ⟨asks, .error fault⟩
    | ⟨asks, .ok attrs⟩ => ⟨asks, s.checkRequired attrs⟩

end Schema

end TagPress
