import TagPress.Text.Split

/-!
# Places in a document

A reader goes forward through the characters of a document, so a place is known by how many
characters are left from there. Errors are shown with the line of their place. The end of a document
belongs to its last character: after a line end that is the line before.
-/

namespace TagPress.Toml

/-- A place in a document: the number of characters left. -/
abbrev Spot := Nat

/-- Something with the place where it starts. -/
structure Located (α : Type) where
  /-- The place. -/
  spot : Spot
  /-- What stands there. -/
  content : α
  deriving DecidableEq

/-- A line of a document. -/
structure SourceLine where
  /-- The number of the line, from one. -/
  number : Nat
  /-- The characters of the line. -/
  text : String
  deriving DecidableEq

/-- The lines of a text. -/
def lines : List Char → List (List Char)
  | [] => [[]]
  | c :: cs => if c == '\n' then [] :: lines cs else Text.consFirst c (lines cs)

/-- The line of a place in a text. -/
def sourceLine (text : String) (spot : Spot) : SourceLine :=
  let cs := text.toList
  -- The end of the text counts as the place of its last character.
  let passed := min (cs.length - spot) (cs.length - 1)
  let above := (cs.take passed).count '\n'
  ⟨above + 1, String.ofList ((lines cs).getD above [])⟩

/-- Why a text is no document. -/
inductive SyntaxError where
  /-- The characters follow no rule of the format. -/
  | unreadable
  /-- A key is given twice; `table` is the path of its table where that is told. -/
  | duplicateKey (key : String) (table : Option (List String))
  /-- A key leads through a value that is not a table. -/
  | notATable (path : List String) (kind : String)
  deriving DecidableEq

/-- A name between backquotes. -/
def backquoted (name : String) : String :=
  "`" ++ name ++ "`"

/-- The wording of a syntax error. -/
def SyntaxError.message : SyntaxError → String
  | unreadable => "the text is not a valid document"
  | duplicateKey key none => "duplicate key " ++ backquoted key
  | duplicateKey key (some []) => "duplicate key " ++ backquoted key ++ " in document root"
  | duplicateKey key (some table) =>
    "duplicate key " ++ backquoted key ++ " in table " ++ backquoted (Text.joinWith "." table)
  | notATable path kind =>
    "dotted key " ++ backquoted (Text.joinWith "." path) ++ " attempted to extend non-table type ("
      ++ kind ++ ")"

/-- What is read from the front of a text, and what remains. -/
abbrev Scan (α : Type) := List Char → Option (α × List Char)

/-- What is read from the front of a text, and what remains; else the place where reading stops. -/
abbrev Reading (α : Type) := List Char → Except (Located SyntaxError) (α × List Char)

/-- The error of a text that cannot be read on. -/
def refuse {α : Type} (cs : List Char) : Except (Located SyntaxError) α :=
  .error ⟨cs.length, .unreadable⟩

/-- Reads what `scan` finds; if there is nothing, reading stops where it started. -/
def Scan.reading {α : Type} (scan : Scan α) : Reading α := fun cs =>
  match scan cs with
  | some result => .ok result
  | none => refuse cs

end TagPress.Toml
