import TagPress.Text.Quoted
import TagPress.Text.Split
import TagPress.Toml.Document

/-!
# Decoding TOML values

Decoders turn the values of a document into the data that is asked for. A value is viewed by its
shape: a moment is seen as a table with one entry. The first error in document order is reported; a
missing entry is reported after the entries that are there.
-/

namespace TagPress.Toml

/-- Why a document does not hold what is asked for. -/
inductive DataError where
  /-- A value has another shape than expected. -/
  | invalidType (found expected : String)
  /-- A value has the right shape and is out of range. -/
  | invalidValue (found expected : String)
  /-- A list has too few items. -/
  | invalidLength (found : Nat) (expected : String)
  /-- A table lacks an entry. -/
  | missingField (name : String)
  /-- A table has an entry that is not known. -/
  | unknownField (name : String) (known : List String)
  /-- A value fits none of the alternatives. -/
  | noVariant (name : String)
  /-- Anything else, in words. -/
  | custom (text : String)
  deriving DecidableEq

/-- The wording of a data error. -/
def DataError.message : DataError → String
  | invalidType found expected => "invalid type: " ++ found ++ ", expected " ++ expected
  | invalidValue found expected => "invalid value: " ++ found ++ ", expected " ++ expected
  | invalidLength found expected =>
    "invalid length " ++ Text.showNat found ++ ", expected " ++ expected
  | missingField name => "missing field " ++ backquoted name
  | unknownField name known =>
    "unknown field " ++ backquoted name ++ ", expected one of "
      ++ Text.joinWith ", " (known.map backquoted)
  | noVariant name => "data did not match any variant of untagged enum " ++ name
  | custom text => text

/-- A data error, with its place once that is known. -/
structure Misfit where
  /-- What is wrong. -/
  cause : DataError
  /-- Where it is wrong. -/
  spot : Option Spot := none
  deriving DecidableEq

/-- A data error inside a value: it is placed at the value unless it has a place already. -/
def Misfit.within (e : Misfit) (spot : Spot) : Misfit :=
  { e with spot := some (e.spot.getD spot) }

/-- Why a text does not give the data that is asked for. -/
inductive Error where
  /-- The text is no document. -/
  | malformed (line : SourceLine) (cause : SyntaxError)
  /-- The document holds other data. -/
  | data (line : SourceLine) (cause : DataError)
  deriving DecidableEq

/-- An error text below the line that it is about. -/
def SourceLine.explain (line : SourceLine) (text : String) : String :=
  let number := Text.showNat line.number
  let margin := String.ofList (List.replicate number.length ' ') ++ " |\n"
  "TOML parse error at line " ++ number ++ "\n" ++ margin ++ number ++ " | " ++ line.text ++ "\n"
    ++ margin ++ text ++ "\n"

/-- The wording of an error. -/
def Error.message : Error → String
  | malformed line cause => line.explain cause.message
  | data line cause => line.explain cause.message

/-- A decoder of values. -/
abbrev Decoder (α : Type) := Located Value → Except Misfit α

/-- The shape of a value. -/
inductive View where
  /-- A text. -/
  | text (s : String)
  /-- An integer. -/
  | integer (n : Int)
  /-- A floating-point number. -/
  | float (x : Binary64)
  /-- A truth value. -/
  | boolean (b : Bool)
  /-- A list. -/
  | sequence (items : List (Located Value))
  /-- A table. -/
  | mapping (entries : Entries)

/-- The shape in which a value is seen. -/
def Located.view (v : Located Value) : View :=
  match v.content with
  | .string s => .text s
  | .integer n => .integer n
  | .float x => .float x
  | .boolean b => .boolean b
  -- Readers that know nothing of moments see a table with one entry.
  | .moment m => .mapping [(Moment.entryKey, ⟨v.spot, .string m.render⟩)]
  | .array _ items => .sequence items
  | .table _ entries => .mapping entries

/-- What a value is called in messages. -/
def View.describe : View → String
  | text s => "string " ++ Text.quoted s
  | integer n => "integer " ++ backquoted (Text.showInt n)
  | float x => "floating point " ++ backquoted x.render
  | boolean b => "boolean " ++ backquoted (if b then "true" else "false")
  | sequence _ => "sequence"
  | mapping _ => "map"

/-- The error of a value of another shape. -/
def Located.mismatch {α : Type} (v : Located Value) (expected : String) : Except Misfit α :=
  .error ⟨.invalidType v.view.describe expected, some v.spot⟩

/-- A text; `expected` is what messages call it. -/
def decodeTextAs (expected : String) : Decoder String := fun v =>
  match v.view with
  | .text s => .ok s
  | _ => v.mismatch expected

/-- A text. -/
def decodeText : Decoder String :=
  decodeTextAs "a string"

/-- A path. -/
def decodePath : Decoder String :=
  decodeTextAs "path string"

/-- A truth value. -/
def decodeBool : Decoder Bool := fun v =>
  match v.view with
  | .boolean b => .ok b
  | _ => v.mismatch "a boolean"

/-- A number of 32 bits without sign. -/
def decodeWord : Decoder Nat := fun v =>
  match v.view with
  | .integer n =>
    if 0 ≤ n && n < 0x100000000 then .ok n.toNat
    else .error ⟨.invalidValue v.view.describe "u32", some v.spot⟩
  | _ => v.mismatch "u32"

/-- A list. -/
def decodeList {α : Type} (item : Decoder α) : Decoder (List α) := fun v =>
  match v.view with
  | .sequence items => (items.mapM item).mapError (·.within v.spot)
  | _ => v.mismatch "a sequence"

/-- A table of values of one kind, in order. -/
def decodeMap {α : Type} (item : Decoder α) : Decoder (List (String × α)) := fun v =>
  match v.view with
  | .mapping entries =>
    entries.mapM fun (key, value) =>
      ((item value).map fun a => (key, a)).mapError (·.within value.spot)
  | _ => v.mismatch "a map"

/-- A field of a record: the key under which it stands and how its value changes the record. -/
structure RecordField (ρ : Type) where
  /-- The key of the field. -/
  name : String
  /-- The record with the field's value. -/
  store : ρ → Decoder ρ

/-- A field with a decoder for its value. -/
def RecordField.make {ρ α : Type} (name : String) (decode : Decoder α) (set : ρ → α → ρ) :
    RecordField ρ :=
  ⟨name, fun record value => (decode value).map (set record)⟩

/-- Stores the entries of a table in order. An unknown key is refused if `strict`, else ignored. -/
def storeEntries {ρ : Type} (fields : List (RecordField ρ)) (strict : Bool) :
    Entries → ρ → Except Misfit ρ
  | [], record => .ok record
  | (key, value) :: entries, record =>
    match fields.find? (·.name == key) with
    | some field =>
      match field.store record value with
      | .ok record => storeEntries fields strict entries record
      | .error e => .error (e.within value.spot)
    | none =>
      if strict then .error ⟨.unknownField key (fields.map (·.name)), some value.spot⟩
      else storeEntries fields strict entries record

/-- Stores the items of a list in the fields in order; items without a field are ignored. -/
def storeItems {ρ : Type} :
    List (RecordField ρ) → List (Located Value) → ρ → Except Misfit ρ
  | field :: fields, value :: values, record =>
    match field.store record value with
    | .ok record => storeItems fields values record
    | .error e => .error e
  | _, _, record => .ok record

/-- A record, written as a table or as the list of its fields; `expected` is what messages call it.
-/
def decodeRecord {ρ : Type} (expected : String) (fields : List (RecordField ρ)) (initial : ρ) :
    Decoder ρ :=
  fun v =>
    match v.view with
    | .mapping entries =>
      (storeEntries fields false entries initial).mapError (·.within v.spot)
    | .sequence items => (storeItems fields items initial).mapError (·.within v.spot)
    | _ => v.mismatch expected

/-- The record in a document. An unknown key is refused if `strict`, else ignored. -/
def decodeDocument {ρ : Type} (fields : List (RecordField ρ)) (strict : Bool) (initial : ρ)
    (text : String) : Except Error ρ :=
  match parse text with
  | .error e => .error (.malformed (sourceLine text e.spot) e.content)
  | .ok entries =>
    (storeEntries fields strict entries initial).mapError fun e =>
      -- An error without a place is reported at the front.
      .data (sourceLine text (e.spot.getD text.length)) e.cause

end TagPress.Toml
