import TagPress.Toml.Spot

/-!
# Blanks, comments and line ends of a document

Within a line only spaces and tabs are blank. A comment runs to the end of its line and may hold any
character but the control characters other than the tab. A line ends with a line feed; a carriage
return right before it belongs to the line end.
-/

namespace TagPress.Toml

/-- Whether a character may stand in comments and texts as itself. -/
def isPlain (c : Char) : Bool :=
  c == '\t' || (0x20 ≤ c.toNat && c.toNat != 0x7f)

/-- Whether a character is a blank within a line. -/
def isLineBlank (c : Char) : Bool :=
  c == ' ' || c == '\t'

/-- Drops the blanks at the front. -/
def skipBlanks (cs : List Char) : List Char :=
  cs.dropWhile isLineBlank

/-- What follows the line end at the front. -/
def newline? : List Char → Option (List Char)
  | '\n' :: cs => some cs
  | '\r' :: '\n' :: cs => some cs
  | _ => none

/-- Drops blanks and line ends at the front. -/
def skipBreaks : List Char → List Char
  | [] => []
  | '\r' :: '\n' :: cs => skipBreaks cs
  | c :: cs => if isLineBlank c || c == '\n' then skipBreaks cs else c :: cs

/-- Drops the comment at the front, if there is one. -/
def skipComment : List Char → List Char
  | '#' :: cs => cs.dropWhile isPlain
  | cs => cs

/-- What follows the rest of a line that holds blanks and a comment only. -/
def lineEnd? (cs : List Char) : Option (List Char) :=
  match skipComment (skipBlanks cs) with
  | [] => some []
  | rest => newline? rest

/-- Drops blanks, line ends and at most `limit` comments at the front. A comment has to end with a
line end, and a carriage return has to belong to one. -/
def skipLinesUpTo : Nat → List Char → Except (Located SyntaxError) (List Char)
  | 0, cs => .ok (skipBreaks cs)
  | limit + 1, cs =>
    match skipBreaks cs with
    | '#' :: cs =>
      let rest := cs.dropWhile isPlain
      match newline? rest with
      | some cs => skipLinesUpTo limit cs
      | none => refuse rest
    | '\r' :: cs => refuse ('\r' :: cs)
    | cs => .ok cs

/-- Drops blanks, comments and line ends at the front. -/
def skipLines (cs : List Char) : Except (Located SyntaxError) (List Char) :=
  skipLinesUpTo cs.length cs

end TagPress.Toml
