import TagPress.Text.Lossy
import TagPress.Text.Split

/-!
# Names and paths of the operating system

The operating system keeps names and paths as bytes. Nearly all of them are the UTF-8 form of a
text, and no others are spelt by the paths that the program makes from texts. Listing a directory
can meet any name, and a name that is no text is shown with replacement characters.
-/

namespace TagPress

/-- A name or a path as the operating system keeps it. -/
inductive NativeText where
  /-- The bytes of a text. -/
  | text (value : String)
  /-- Bytes that are no text. -/
  | raw (bytes : List UInt8) (notText : String.fromUTF8? ⟨bytes.toArray⟩ = none)
  deriving DecidableEq

namespace NativeText

instance : Coe String NativeText := ⟨text⟩

/-- The bytes of a name. -/
def bytes : NativeText → List UInt8
  | text value => value.toList.flatMap String.utf8EncodeChar
  | raw bytes _ => bytes

/-- How many bytes a name has. -/
def size : NativeText → Nat
  | text value => value.utf8ByteSize
  | raw bytes _ => bytes.length

/-- What is shown of a name. -/
def shown : NativeText → String
  | text value => value
  | raw bytes _ => String.ofList (Text.readLossy none bytes)

/-- The name with these bytes. -/
def ofBytes (bytes : List UInt8) : NativeText :=
  match h : String.fromUTF8? ⟨bytes.toArray⟩ with
  | some value => text value
  | none => raw bytes h

instance : Append NativeText where
  append
    | text a, text b => text (a ++ b)
    -- Bytes that are no text can still be one together.
    | a, b => ofBytes (a.bytes ++ b.bytes)

/-- The path over some names, with a slash between them. -/
def joined : List NativeText → NativeText
  | [] => text ""
  | [name] => name
  | name :: names => name ++ text "/" ++ joined names

end NativeText

end TagPress
