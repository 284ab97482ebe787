import TagPress.Calendar
import TagPress.Compiled
import TagPress.Listing

/-!
# Reports

The texts in which records, compiled templates and listings are shown.
-/

namespace TagPress

/-- A line of a record report: the label fills eleven columns. -/
def reportLine (label value : String) : String :=
  label ++ value ++ "\n"

/-- What is known about a source, one fact a line. -/
def SourceRecord.report (r : SourceRecord) : String :=
  reportLine "name:      " r.name
    ++ reportLine "kind:      " r.kind.name
    ++ reportLine "class:     " r.sort.name
    ++ reportLine "exists:    " (if r.present then "true" else "false")
    ++ (match r.filepath with | some path => reportLine "filepath:  " path | none => "")
    ++ (if r.present then reportLine "uid:       " r.uid else "")
    ++ (match r.timestamp.bind renderTimestamp? with
        | some date => reportLine "modified:  " date
        | none => "")

/-- A fragment with its line and whether it is cached. -/
def Fragment.report (f : Fragment) : String :=
  (match f.line with | some line => Text.padLeft 4 (Text.showNat line) | none => "    ") ++ "  "
    ++ (if f.nocache then "nocache" else "cached ") ++ "  " ++ f.code ++ "\n"

/-- The fragments, one a line. -/
def reportFragments (fragments : List Fragment) : String :=
  if fragments.isEmpty then "No code emitted" else String.join (fragments.map Fragment.report)

/-- Templates with the keys of their directories, one a line. -/
def reportTemplates (entries : List (DirKey × String)) : String :=
  if entries.isEmpty then "No templates found"
  else String.join (entries.map fun (key, name) => "[" ++ key.render ++ "]" ++ name ++ "\n")

/-- A listing, one template a line. -/
def reportListing (entries : List ListEntry) : String :=
  reportTemplates (entries.map fun e => (e.key, e.name))

end TagPress
