import TagPress.Toml.Number
import TagPress.Toml.Quotation

/-!
# TOML documents

A document is a sequence of lines: entries `key = value`, headers `[table]` and `[[list of
tables]]`, comments and empty lines. Keys may be dotted. A key is given once, and a table has one
header; a table that only arose as the parent of another may still get its header, and then moves
behind the tables that already stand beside it. Lists and inline tables nest to a fixed depth, and
keys have a fixed number of parts.
-/

namespace TagPress.Toml

/-! ## Keys -/

/-- Whether a character may stand in a key without quotes. -/
def isBareKeyChar (c : Char) : Bool :=
  c.isAlphanum || c == '_' || c == '-'

/-- Whether a key starts at the front. -/
def startsKey : List Char → Bool
  | c :: _ => isBareKeyChar c || c == '\x22' || c == '\x27'
  | [] => false

/-- One part of a key. -/
def readKeyPart : Reading String := fun cs =>
  match cs with
  | '\x22' :: _ => readLineText cs
  | '\x27' :: _ => readLineText cs
  | _ =>
    let part := cs.takeWhile isBareKeyChar
    if part.isEmpty then refuse cs else .ok (String.ofList part, cs.dropWhile isBareKeyChar)

/-- A key of at most `limit` parts with dots between them; blanks around the parts are skipped. -/
def readKeyUpTo : Nat → Reading (List String)
  | 0, cs => refuse cs
  | limit + 1, cs => do
    let (part, cs) ← readKeyPart (skipBlanks cs)
    match skipBlanks cs with
    | '.' :: cs => do
      let (parts, cs) ← readKeyUpTo limit cs
      .ok (part :: parts, cs)
    | cs => .ok ([part], cs)

/-- How deep values nest, and how many parts keys have. -/
def nestingLimit : Nat := 79

/-- A key. -/
def readKey : Reading (List String) :=
  readKeyUpTo nestingLimit

/-! ## Tables under construction -/

/-- How the path to a table is written. -/
inductive PathStyle where
  /-- In a header. -/
  | header
  /-- In a dotted key on a line of its own. -/
  | line
  /-- In a dotted key inside an inline table. -/
  | field
  deriving DecidableEq

/-- Replaces the content under a key. -/
def replaceEntry (key : String) (value : Value) : Entries → Entries
  | [] => []
  | (k, v) :: rest =>
    if k == key then (k, { v with content := value }) :: rest
    else (k, v) :: replaceEntry key value rest

/-- Takes the entry of a key away. -/
def eraseEntry (key : String) (entries : Entries) : Entries :=
  entries.filter fun (k, _) => k != key

/-- Edits the table at the end of a path; tables on the way that do not exist are made, and start at
`spot`. Through a list of tables the path goes into the last one. A dotted key may not enter a table
with a header, and no path enters an inline table. -/
def descend (style : PathStyle) (spot : Spot)
    (edit : Origin → Entries → Except SyntaxError Entries) (walked : List String) :
    List String → Origin → Entries → Except SyntaxError Entries
  | [], origin, entries => edit origin entries
  | key :: path, _, entries =>
    let walked := walked ++ [key]
    match (entries.lookup key).map (·.content) with
    | none => do
      let origin := if style == .header then .implied else .dotted
      let inner ← descend style spot edit walked path origin []
      .ok (entries ++ [(key, ⟨spot, .table origin inner⟩)])
    | some (.table origin inner) =>
      -- An inline table is complete. Inside another one it is reported as a key that is given
      -- twice.
      if origin == .inline && style != .field then
        .error (.notATable walked (Value.table origin inner).kind)
      else if origin == .inline || (origin == .header && style != .header) then
        .error (.duplicateKey key none)
      else do
        let inner ← descend style spot edit walked path origin inner
        .ok (replaceEntry key (.table origin inner) entries)
    | some (.array true items) =>
      match items.getLast? with
      | some ⟨start, .table origin inner⟩ => do
        let inner ← descend style spot edit walked path origin inner
        let items := items.dropLast ++ [⟨start, .table origin inner⟩]
        .ok (replaceEntry key (.array true items) entries)
      | _ => .error .unreadable
    | some value => .error (.notATable walked value.kind)

/-- Adds an entry at a dotted key. The parents of the key have to come from dotted keys, and the
last part has to be new; `table` is the table that a second entry is reported for. -/
def addEntry (style : PathStyle) (table : Option (List String)) (path : List String) (key : String)
    (value : Located Value) : Origin → Entries → Except SyntaxError Entries :=
  descend style value.spot (fun origin entries =>
    -- A dotted key goes on in tables that came from dotted keys, and a plain one in the others.
    if (origin == .dotted) == path.isEmpty then .error (.duplicateKey key none)
    else if (entries.lookup key).isSome then .error (.duplicateKey key table)
    else .ok (entries ++ [(key, value)])) [] path

/-- The parents and the last part of a key. -/
def splitKey (parts : List String) : List String × String :=
  (parts.dropLast, parts.getLastD "")

/-! ## Values -/

/-- A value that holds no other values. -/
def readScalar : Reading Value := fun cs =>
  match cs with
  | '\x22' :: _ => do
    let (text, rest) ← readText cs
    .ok (.string text, rest)
  | '\x27' :: _ => do
    let (text, rest) ← readText cs
    .ok (.string text, rest)
  | 't' :: 'r' :: 'u' :: 'e' :: rest => .ok (.boolean true, rest)
  | 'f' :: 'a' :: 'l' :: 's' :: 'e' :: rest => .ok (.boolean false, rest)
  | _ => Scan.reading scanNumber cs

/-- A value with its place. -/
def readLocated (item : Reading Value) : Reading (Located Value) := fun cs => do
  let (value, rest) ← item cs
  .ok (⟨cs.length, value⟩, rest)

/-- The items of a list of at most `limit` items, read after its bracket or a comma. A comma may
stand behind the last item. What follows an item up to the comma belongs to it: if that cannot be
read, reading stops at the item. -/
def readItemsUpTo (item : Reading Value) : Nat → Reading (List (Located Value))
  | 0, cs => refuse cs
  | limit + 1, cs => do
    let cs ← skipLines cs
    match cs with
    | ']' :: rest => .ok ([], rest)
    | cs => do
      let (value, after) ← readLocated item cs
      match skipLines after with
      | .ok (',' :: rest) => do
        let (values, rest) ← readItemsUpTo item limit rest
        .ok (value :: values, rest)
      | .ok (']' :: rest) => .ok ([value], rest)
      | .ok rest => refuse rest
      | .error _ => refuse cs

/-- An entry `key = value`. -/
def readEntry (item : Reading Value) : Reading (List String × Located Value) := fun cs => do
  let (key, cs) ← readKey cs
  match cs with
  | '=' :: cs => do
    let (value, rest) ← readLocated item (skipBlanks cs)
    .ok ((key, value), rest)
  | cs => refuse cs

/-- The entries of an inline table with at most `limit` entries. A comma that no key follows is left
unread. -/
def readFieldsUpTo (item : Reading Value) : Nat → Reading (List (List String × Located Value))
  | 0, cs => refuse cs
  | limit + 1, cs => do
    let (field, cs) ← readEntry item cs
    match skipBlanks cs with
    | ',' :: rest =>
      if startsKey (skipBlanks rest) then do
        let (fields, rest) ← readFieldsUpTo item limit rest
        .ok (field :: fields, rest)
      else .ok ([field], ',' :: rest)
    | rest => .ok ([field], rest)

/-- The entries of an inline table in order. -/
def gatherFields (fields : List (List String × Located Value)) : Except SyntaxError Entries :=
  fields.foldlM (fun entries (key, value) =>
    let (path, last) := splitKey key
    addEntry .field none path last value .header entries) []

/-- An inline table, read after its brace. A key that is given twice is reported at the front. -/
def readInlineTable (item : Reading Value) : Reading Value := fun cs => do
  let inside := skipBlanks cs
  let (fields, rest) ←
    if startsKey inside then readFieldsUpTo item (inside.length + 1) inside else .ok ([], inside)
  match gatherFields fields, rest with
  | .error cause, _ => .error ⟨cs.length, cause⟩
  | .ok entries, '\x7d' :: rest => .ok (.table .inline entries, rest)
  | .ok _, rest => refuse rest

/-- A value with at most `depth` levels of lists and inline tables. -/
def readValue : Nat → Reading Value
  | 0, cs => readScalar cs
  | depth + 1, cs =>
    match cs with
    | '[' :: rest => do
      let (items, rest) ← readItemsUpTo (readValue depth) (rest.length + 1) rest
      .ok (.array false items, rest)
    | '\x7b' :: rest => readInlineTable (readValue depth) rest
    | cs => readScalar cs

/-! ## Lines -/

/-- A document as far as it is read. -/
structure Draft where
  /-- The entries of the document. -/
  root : Entries := []
  /-- The path of the table that entries are added to. -/
  here : List String := []

namespace Draft

/-- Adds an entry to the current table. -/
def add (d : Draft) (key : List String) (value : Located Value) : Except SyntaxError Draft := do
  let (path, last) := splitKey key
  let edit := addEntry .line (some d.here) path last value
  let root ← descend .header value.spot edit [] d.here .header d.root
  .ok { d with root }

/-- Starts a table by its header. -/
def openTable (d : Draft) (spot : Spot) (key : List String) : Except SyntaxError Draft := do
  let (path, last) := splitKey key
  let edit := fun (_ : Origin) (entries : Entries) =>
    match (entries.lookup last).map (·.content) with
    | none => Except.ok (entries ++ [(last, ⟨spot, .table .header []⟩)])
    -- The table gets its header now and moves to the end.
    | some (.table .implied inner) =>
      .ok (eraseEntry last entries ++ [(last, ⟨spot, .table .header inner⟩)])
    | some _ => .error (.duplicateKey last (some path))
  let root ← descend .header spot edit [] path .header d.root
  .ok ⟨root, key⟩

/-- Starts the next table of a list of tables by its header. -/
def openListTable (d : Draft) (spot : Spot) (key : List String) : Except SyntaxError Draft := do
  let (path, last) := splitKey key
  let next : Located Value := ⟨spot, .table .header []⟩
  let edit := fun (_ : Origin) (entries : Entries) =>
    match (entries.lookup last).map (·.content) with
    | none => Except.ok (entries ++ [(last, ⟨spot, .array true [next]⟩)])
    | some (.array true items) => .ok (replaceEntry last (.array true (items ++ [next])) entries)
    | some _ => .error (.duplicateKey last (some path))
  let root ← descend .header spot edit [] path .header d.root
  .ok ⟨root, key⟩

end Draft

/-- The line at the front after its header or entry was taken in: an error is reported where the
line starts. -/
def takeLine (start : List Char) (d : Except SyntaxError Draft) (rest : List Char) :
    Except (Located SyntaxError) (Draft × List Char) :=
  match d with
  | .ok d => .ok (d, rest)
  | .error cause => .error ⟨start.length, cause⟩

/-- Reads one line that is not empty. -/
def readLine (d : Draft) : Reading Draft := fun cs =>
  match cs with
  | '[' :: '[' :: inside => do
    let (key, rest) ← readKey inside
    match ([']', ']'].isPrefixOf? rest).bind lineEnd? with
    | some rest => takeLine cs (d.openListTable cs.length key) rest
    | none => refuse rest
  | '[' :: inside => do
    let (key, rest) ← readKey inside
    match ([']'].isPrefixOf? rest).bind lineEnd? with
    | some rest => takeLine cs (d.openTable cs.length key) rest
    | none => refuse rest
  | _ => do
    let ((key, value), rest) ← readEntry (readValue nestingLimit) cs
    match lineEnd? rest with
    | some rest => takeLine cs (d.add key value) rest
    | none => refuse rest

/-- Reads at most `limit` lines. -/
def readLinesUpTo : Nat → Draft → List Char → Except (Located SyntaxError) Draft
  | 0, d, cs => if cs.isEmpty then .ok d else refuse cs
  | limit + 1, d, cs =>
    match lineEnd? cs, skipBlanks cs with
    -- A blank line without a line end is the end of the document.
    | some [], _ => .ok d
    | some rest, _ => readLinesUpTo limit d rest
    | none, cs => do
      let (d, rest) ← readLine d cs
      readLinesUpTo limit d rest

/-- A text without the byte order mark at its front. -/
def skipMark : List Char → List Char
  | c :: cs => if c.toNat == 0xfeff then cs else c :: cs
  | [] => []

/-- The entries of a document, or where and why the text is no document. -/
def parse (text : String) : Except (Located SyntaxError) Entries := do
  let cs := skipMark text.toList
  let d ← readLinesUpTo (cs.length + 1) {} cs
  .ok d.root

end TagPress.Toml
