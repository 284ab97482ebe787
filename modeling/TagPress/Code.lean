import TagPress.OrderedMap
import TagPress.Text.Split

/-!
# Pieces of emitted code

Emitted code names functions, callbacks and attributes by single-quoted literals. Inside a literal a
backslash and a quote are escaped with a backslash, so that the literal ends at its last character.
-/

namespace TagPress.Code

/-- The escaped characters of a literal's inside. -/
def escape : List Char → List Char
  | [] => []
  | c :: cs => if c == '\\' || c == '\x27' then '\\' :: c :: escape cs else c :: escape cs

/-- The single-quoted literal of a text. -/
def quote (s : String) : String :=
  String.ofList ('\x27' :: escape s.toList ++ ['\x27'])

/-- A literal is the escaped text between two quotes. -/
theorem toList_quote (s : String) :
    (quote s).toList = '\x27' :: (escape s.toList ++ ['\x27']) := by
  rw [quote, String.toList_ofList, List.cons_append]

/-- Reads the inside of a single-quoted literal: a backslash before a backslash or a quote stands
for that character, any other backslash for itself, and the first other quote ends the literal.
Gives the text and what follows the literal. -/
def readInside : List Char → Option (List Char × List Char)
  | [] => none
  | '\\' :: '\\' :: cs => (readInside cs).map fun (text, rest) => ('\\' :: text, rest)
  | '\\' :: '\x27' :: cs => (readInside cs).map fun (text, rest) => ('\x27' :: text, rest)
  | c :: cs =>
    if c == '\x27' then some ([], cs)
    else (readInside cs).map fun (text, rest) => (c :: text, rest)

/-- Reads a single-quoted literal at the front of a text. -/
def readLiteral : List Char → Option (List Char × List Char)
  | '\x27' :: cs => readInside cs
  | _ => none

/-- The array literal of named parameters: names are quoted, values are code. -/
def paramsArray (attributes : OrderedMap String String) : String :=
  "array(" ++ Text.joinWith "," (attributes.entries.map fun (name, value) =>
    quote name ++ "=>" ++ value) ++ ")"

end TagPress.Code
