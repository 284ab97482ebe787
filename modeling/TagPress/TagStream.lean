import TagPress.Tag
import TagPress.Toml.Decode

/-!
# Tag streams

A tag stream is a TOML document whose `tag` entry lists tags. Every tag has a name; its line, named
and positional arguments and modifiers may be left out, and other entries are ignored.
-/

namespace TagPress

open Toml

/-- A modifier in its written form. -/
def decodeInvocation : Decoder Invocation := fun v =>
  match decodeText v with
  | .ok text => (Invocation.parse text).mapError fun e => ⟨.custom e.message, none⟩
  | .error e => .error e

/-- A tag whose name may still be unknown. -/
structure TagDraft where
  /-- The name, once it is known. -/
  name : Option String := none
  /-- The other parts. -/
  parts : Tag := { name := "" }

namespace TagDraft

/-- The fields of a tag, in the order of a tag that is written as a list. -/
def fields : List (RecordField TagDraft) :=
  [.make "name" decodeText fun d name => { d with name := some name },
    .make "line" decodeWord fun d line => { d with parts := { d.parts with line := some line } },
    .make "attributes" (decodeMap decodeText) fun d entries =>
      { d with parts := { d.parts with attributes := .ofList entries } },
    .make "positional" (decodeList decodeText) fun d positional =>
      { d with parts := { d.parts with positional } },
    .make "modifiers" (decodeList decodeInvocation) fun d modifiers =>
      { d with parts := { d.parts with modifiers } }]

/-- The finished tag, or the error for a tag without a name. -/
def finish (d : TagDraft) (unnamed : Misfit) : Except Misfit Tag :=
  match d.name with
  | some name => .ok { d.parts with name }
  | none => .error unnamed

end TagDraft

/-- A tag, written as a table or as the list of its fields. -/
def decodeTag : Decoder Tag := fun v =>
  match decodeRecord "struct TagNode" TagDraft.fields {} v with
  | .error e => .error e
  | .ok draft =>
    draft.finish
      { cause :=
          match v.view with
          -- The name comes first, so a list without it is empty.
          | .sequence _ => .invalidLength 0 "struct TagNode with 5 elements"
          | _ => .missingField "name"
        spot := some v.spot }

/-- The tags of a stream. -/
def parseStream : String → Except Toml.Error (List Tag) :=
  decodeDocument [.make "tag" (decodeList decodeTag) fun _ tags => tags] false []

end TagPress
