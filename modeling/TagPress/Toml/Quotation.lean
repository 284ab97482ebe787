import TagPress.Text.Numeral
import TagPress.Toml.Layout
import TagPress.Toml.Value

/-!
# Quoted texts of a document

Basic texts stand in double quotes and know escapes; literal texts stand in single quotes and mean
what they show. Three quotes make a text of several lines: a line end right after them is dropped,
every line end inside is read as a line feed, and one or two quotes may stand before the closing
three.
-/

namespace TagPress.Toml

/-- The character of a hexadecimal escape with `count` digits. -/
def scanCodePoint (count : Nat) : Scan Char := fun cs =>
  let digits := cs.take count
  if digits.length == count then
    match Text.readDigits? 16 0 digits with
    | some n =>
      if n < 0xd800 || (0xdfff < n && n < 0x110000) then some (Char.ofNat n, cs.drop count)
      else none
    | none => none
  else none

/-- The character of an escape, read after its backslash. Reading stops behind a character that is
no escape. -/
def readEscape : Reading Char
  | 'b' :: cs => .ok ('\x08', cs)
  | 't' :: cs => .ok ('\t', cs)
  | 'n' :: cs => .ok ('\n', cs)
  | 'f' :: cs => .ok ('\x0c', cs)
  | 'r' :: cs => .ok ('\r', cs)
  | '\x22' :: cs => .ok ('\x22', cs)
  | '\\' :: cs => .ok ('\\', cs)
  | 'u' :: cs => (scanCodePoint 4).reading cs
  | 'U' :: cs => (scanCodePoint 8).reading cs
  | _ :: cs => refuse cs
  | [] => refuse []

/-- The inside of a basic text of at most `limit` characters, up to its closing quote. -/
def readBasicUpTo : Nat → Reading (List Char)
  | 0, cs => refuse cs
  | _, [] => refuse []
  | limit + 1, c :: cs =>
    if c == '\x22' then .ok ([], cs)
    else if c == '\\' then do
      let (d, cs) ← readEscape cs
      let (text, cs) ← readBasicUpTo limit cs
      .ok (d :: text, cs)
    else if isPlain c then do
      let (text, cs) ← readBasicUpTo limit cs
      .ok (c :: text, cs)
    else refuse (c :: cs)

/-- The inside of a literal text, up to its closing quote. -/
def readLiteral : Reading (List Char) := fun cs =>
  let isInside := fun c => isPlain c && c != '\x27'
  match cs.dropWhile isInside with
  | '\x27' :: rest => .ok (cs.takeWhile isInside, rest)
  | rest => refuse rest

/-- One or two quotes before three closing ones, read after the first three of a run. -/
def scanClosing (quote : Char) (cs : List Char) : List Char × List Char :=
  match [quote, quote].isPrefixOf? cs with
  | some rest => ([quote, quote], rest)
  | none =>
    match [quote].isPrefixOf? cs with
    | some rest => ([quote], rest)
    | none => ([], cs)

/-- The inside of a text of several lines with at most `limit` characters. Escapes are read if the
quote is the double one; there a backslash at the end of a line joins it with the next text. -/
def readLongUpTo (quote : Char) : Nat → Reading (List Char)
  | 0, cs => refuse cs
  | limit + 1, cs =>
    match [quote, quote, quote].isPrefixOf? cs, newline? cs with
    | some rest, _ => .ok (scanClosing quote rest)
    | none, some rest => do
      let (text, rest) ← readLongUpTo quote limit rest
      .ok ('\n' :: text, rest)
    | none, none =>
      match cs with
      | [] => refuse []
      | c :: rest =>
        if c == '\\' && quote == '\x22' then
          -- The line end and all blanks and line ends behind it are left out.
          match newline? (skipBlanks rest) with
          | some rest => readLongUpTo quote limit (skipBreaks rest)
          | none => do
            let (d, rest) ← readEscape rest
            let (text, rest) ← readLongUpTo quote limit rest
            .ok (d :: text, rest)
        else if isPlain c then do
          let (text, rest) ← readLongUpTo quote limit rest
          .ok (c :: text, rest)
        else refuse cs

/-- A text of several lines, read after its opening quotes. -/
def readLong (quote : Char) : Reading String := fun cs => do
  let inside := (newline? cs).getD cs
  let (text, rest) ← readLongUpTo quote (inside.length + 1) inside
  .ok (String.ofList text, rest)

/-- A quoted text on one line. -/
def readLineText : Reading String
  | '\x22' :: cs => do
    let (text, rest) ← readBasicUpTo (cs.length + 1) cs
    .ok (String.ofList text, rest)
  | '\x27' :: cs => do
    let (text, rest) ← readLiteral cs
    .ok (String.ofList text, rest)
  | cs => refuse cs

/-- A quoted text. -/
def readText : Reading String
  | '\x22' :: '\x22' :: '\x22' :: cs => readLong '\x22' cs
  | '\x27' :: '\x27' :: '\x27' :: cs => readLong '\x27' cs
  | cs => readLineText cs

end TagPress.Toml
