import TagPress.Binary64
import TagPress.Toml.Moment
import TagPress.Toml.Spot

/-!
# TOML values

The values of a document. Tables keep their entries in order and remember how they came about, since
that decides what later lines may add to them. Items and entries remember where they start: a table
with a header at the header, a table without one where it is first mentioned. A key stands on the
line on which its value starts.
-/

namespace TagPress.Toml

/-- How a table came about. -/
inductive Origin where
  /-- By a header of its own. -/
  | header
  /-- As the parent in a longer header. -/
  | implied
  /-- As the parent in a dotted key. -/
  | dotted
  /-- Written in braces, and complete. -/
  | inline
  deriving DecidableEq

/-- A value of a document. -/
inductive Value where
  /-- A text. -/
  | string (text : String)
  /-- A number of 64 bits with sign. -/
  | integer (n : Int)
  /-- A floating-point number. -/
  | float (x : Binary64)
  /-- A truth value. -/
  | boolean (b : Bool)
  /-- A date, a time or both. -/
  | moment (m : Moment)
  /-- A list; `ofTables` if it was made by headers. -/
  | array (ofTables : Bool) (items : List (Located Value))
  /-- A table with its entries in order. -/
  | table (origin : Origin) (entries : List (String × Located Value))

instance : Inhabited Value := ⟨.boolean false⟩

/-- The entries of a table. -/
abbrev Entries := List (String × Located Value)

/-- What a value is called when a key leads through it. -/
def Value.kind : Value → String
  | string _ => "string"
  | integer _ => "integer"
  | float _ => "float"
  | boolean _ => "boolean"
  | moment _ => "datetime"
  | array _ _ => "array"
  | table _ _ => "inline table"

end TagPress.Toml
