import TagPress.Text.Alphanumeric
import TagPress.Text.Blank
import TagPress.Text.Quoted
import TagPress.Text.Split

/-!
# Call targets

A call target names what emitted code calls: a plain function, a method of an object or a static
method of a class. `parse` accepts exactly the written forms `f`, `$o->m` and `C::m` of valid words,
with blanks around them.
-/

namespace TagPress

/-- What a call in emitted code refers to. -/
inductive CallTarget where
  /-- A plain function. -/
  | function (name : String)
  /-- A method of the object that a variable holds; the variable keeps its dollar sign. -/
  | method (object name : String)
  /-- A static method. -/
  | static (owner name : String)
  deriving DecidableEq

/-- A text that is no call target, without the blanks around it. -/
structure InvalidCallable where
  /-- The trimmed text. -/
  text : String
  deriving DecidableEq

/-- The wording of a rejected call target. -/
def InvalidCallable.message (e : InvalidCallable) : String :=
  "Invalid callable: '" ++ e.text ++ "'"

namespace CallTarget

/-- Whether a character may stand in a part of a call target. -/
def isPartChar (c : Char) : Bool :=
  Text.isWordChar c || c == '\\'

/-- Whether a text is a part of a call target: not empty, and alphanumeric characters, underscores
and backslashes only. -/
def isPart (cs : List Char) : Bool :=
  !cs.isEmpty && cs.all isPartChar

/-- Whether a text is a variable: a dollar sign and a part. -/
def isVariable : List Char → Bool
  | '$' :: cs => isPart cs
  | _ => false

/-- The target with the given trimmed characters. An arrow makes it a method, otherwise a double
colon makes it static. -/
def parseChars (cs : List Char) : Option CallTarget :=
  match Text.splitOnce ['-', '>'] cs with
  | some (object, name) =>
    -- With an arrow there is no second try as a static method.
    if isVariable object && isPart name then
      some (.method (String.ofList object) (String.ofList name))
    else none
  | none =>
    match Text.splitOnce [':', ':'] cs with
    | some (owner, name) =>
      if isPart owner && isPart name then
        some (.static (String.ofList owner) (String.ofList name))
      else none
    | none => if isPart cs then some (.function (String.ofList cs)) else none

/-- The call target written as `text`. -/
def parse (text : String) : Except InvalidCallable CallTarget :=
  match parseChars (Text.trim text.toList) with
  | some target => .ok target
  | none => .error ⟨Text.strip text⟩

/-- The written form of a target. -/
def render : CallTarget → String
  | .function name => name
  | .method object name => object ++ "->" ++ name
  | .static owner name => owner ++ "::" ++ name

/-- The call of a target with a parameter text. -/
def call (target : CallTarget) (params : String) : String :=
  match target with
  | .function name => name ++ "(" ++ params ++ ")"
  | .method object name => object ++ "->" ++ name ++ "(" ++ params ++ ")"
  | .static owner name => owner ++ "::" ++ name ++ "(" ++ params ++ ")"

/-- A call is the written target with the parameters in parentheses behind it. -/
theorem call_eq (target : CallTarget) (params : String) :
    target.call params = target.render ++ "(" ++ params ++ ")" := by
  cases target with
  | function name => rfl
  | method object name => rfl
  | static owner name => rfl

/-- A description of the target for diagnostics. -/
def describe : CallTarget → String
  | .function name => "Function(" ++ Text.quoted name ++ ")"
  | .method object name =>
    "Method \x7b object: " ++ Text.quoted object ++ ", method: " ++ Text.quoted name ++ " \x7d"
  | .static owner name =>
    "Static \x7b class: " ++ Text.quoted owner ++ ", method: " ++ Text.quoted name ++ " \x7d"

end CallTarget

end TagPress
