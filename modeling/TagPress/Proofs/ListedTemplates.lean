import TagPress.Listing
import TagPress.Proofs.DirectorySearch
import TagPress.Proofs.StoredDirectories
import TagPress.Proofs.UnquotedCuts
import TagPress.Report

/-!
# Listed templates

The listing shows each template below the search directories as an identifier, with the key of its
directory in brackets in front. Reading the listing and resolving an identifier are written apart
from each other: one walks down the tree and joins names, the other reads brackets, looks a key up
and tries a path. They meet at the file, unless a directory has the numeral of another one's number
as its name, or the path is too long to be looked up.

## Key results

- `Folder.contains_of_mem_filePaths`: every listed path leads down to a file
- `Machine.isFile_of_contains`: looking up a file below a stored directory
- `Resolver.resolve_bracketed`: resolving a name in the directory of one key
- `listed_identifier_resolves`: where listed identifiers lead
-/

namespace TagPress

/-! ## Proper trees -/

/-- Whether a name is a text. -/
def NativeText.isText : NativeText → Bool
  | text _ => true
  | raw _ _ => false

/-- A text among the names of the operating system. -/
theorem NativeText.exists_of_isText {name : NativeText} (h : name.isText = true) :
    ∃ value, name = .text value := by
  cases name with
  | text value => exact ⟨value, rfl⟩
  | raw => cases h

/-- A path over texts is the text that joins them. -/
theorem NativeText.joined_map_text (names : List String) :
    joined (names.map text) = text (Text.joinWith "/" names) := by
  induction names with
  | nil => rfl
  | cons name names ih =>
    cases names with
    | nil => rfl
    | cons next names =>
      rw [List.map_cons, List.map_cons, joined, ← List.map_cons, ih]
      · rfl
      · nofun

namespace Folder

/-- Whether a name can stand in a directory. Bytes that are no text are not empty and no dots. -/
def isProperName : NativeText → Bool
  | .text name =>
    !Path.isVoid name.toList && name != ".." && !name.toList.contains '/' &&
      !name.toList.contains '\x00' && decide (name.utf8ByteSize ≤ maxNameBytes)
  | .raw bytes _ =>
    !bytes.contains 47 && !bytes.contains 0 && decide (bytes.length ≤ maxNameBytes)

/-- Whether every directory of a tree has proper names, and each of them once. -/
def isProper : Folder → Bool
  | empty => true
  | file name _ _ rest => isProperName name && decide (name ∉ rest.names) && rest.isProper
  | link name _ rest => isProperName name && decide (name ∉ rest.names) && rest.isProper
  | special name _ _ rest => isProperName name && decide (name ∉ rest.names) && rest.isProper
  | folder name _ inside rest =>
    isProperName name && decide (name ∉ rest.names) && inside.isProper && rest.isProper

/-- Whether every name of a tree is a text. -/
def isTextual : Folder → Bool
  | empty => true
  | file name _ _ rest => name.isText && rest.isTextual
  | link name _ rest => name.isText && rest.isTextual
  | special name _ _ rest => name.isText && rest.isTextual
  | folder name _ inside rest => name.isText && inside.isTextual && rest.isTextual

/-- The names of a directory that are texts. -/
theorem isProperName_iff {name : String} :
    isProperName name = true ↔
      Path.IsName name.toList ∧ '\x00' ∉ name.toList ∧ name.utf8ByteSize ≤ maxNameBytes := by
  have hdots : name ≠ ".." ↔ name.toList ≠ ['.', '.'] := by
    rw [ne_eq, ← String.toList_inj]
    rfl
  simp only [isProperName, Bool.and_eq_true, Bool.not_eq_true', bne_iff_ne, decide_eq_true_eq,
    ← Bool.not_eq_true, List.contains_iff_mem, hdots]
  rw [Bool.not_eq_true]
  constructor
  · rintro ⟨⟨⟨⟨hvoid, hparent⟩, hslash⟩, hnul⟩, hlong⟩
    exact ⟨⟨hvoid, hparent, hslash⟩, hnul, hlong⟩
  · rintro ⟨⟨hvoid, hparent, hslash⟩, hnul, hlong⟩
    exact ⟨⟨⟨⟨hvoid, hparent⟩, hslash⟩, hnul⟩, hlong⟩

/-- What is found under a name stands under it. -/
theorem mem_names_of_child? {content : Folder} {name : NativeText} {entry : Entry}
    (h : content.child? name = some entry) : name ∈ content.names := by
  induction content with
  | empty => cases h
  | file n _ _ rest ih | link n _ rest ih | special n _ _ rest ih | folder n _ _ rest _ ih =>
    rw [child?] at h
    split at h
    · rename_i hname
      rw [names, eq_of_beq hname]
      exact List.mem_cons_self
    · rw [names]
      exact List.mem_cons_of_mem _ (ih h)

/-- The first entry with a name is found. -/
theorem child?_cons (name : NativeText) (entry : Entry) (content : Folder) (n : NativeText) :
    (cons name entry content).child? n = if name == n then some entry else content.child? n := by
  cases entry <;> rfl

/-- A proper name is no dots and short enough, so it stands for its entry. -/
theorem holds_of_child? {root content : Folder} {place : Place} {name : String} {entry : Entry}
    (hlost : place.lost = 0) (hplace : root.folderAt? place.path = some content)
    (hname : isProperName name = true) (hchild : content.child? name = some entry) :
    root.Holds place name entry := by
  obtain ⟨hsegment, -, hlong⟩ := isProperName_iff.mp hname
  refine ⟨?_, ?_, hlost, hlong, by rw [hplace, Option.bind_some, hchild]⟩
  · rintro rfl
    exact hsegment.ne_dot rfl
  · rintro rfl
    exact hsegment.notParent rfl

/-! ## Files below a directory -/

/-- The path leads down to a file, over names that can be looked up. -/
inductive Contains : Folder → List String → Prop where
  | file {content : Folder} {name : String} {bytes : ByteArray} {modified : Instant}
      (hname : isProperName name = true) (h : content.child? name = some (.file bytes modified)) :
      Contains content [name]
  | folder {content inside : Folder} {name : String} {modified : Instant} {path : List String}
      (hname : isProperName name = true) (h : content.child? name = some (.folder modified inside))
      (hpath : Contains inside path) : Contains content (name :: path)

namespace Contains

variable {content : Folder} {path : List String}

/-- A path to a file has a name. -/
theorem ne_nil (h : content.Contains path) : path ≠ [] := by
  cases h <;> exact List.cons_ne_nil _ _

/-- The names on a path to a file are proper. -/
theorem isProperName (h : content.Contains path) : ∀ name ∈ path, isProperName name = true := by
  induction h with
  | file hname => simpa using hname
  | folder hname _ _ ih => simpa using ⟨hname, ih⟩

/-- They are segments that count. -/
theorem isName_segments (h : content.Contains path) :
    path.map String.toList ≠ [] ∧ ∀ segment ∈ path.map String.toList, Path.IsName segment := by
  refine ⟨by simpa using h.ne_nil, fun segment hsegment => ?_⟩
  obtain ⟨name, hname, rfl⟩ := List.mem_map.mp hsegment
  exact (isProperName_iff.mp (h.isProperName name hname)).1

/-- An entry in front leaves what is below the other names where it is. -/
theorem cons (h : content.Contains path) {name : NativeText} (hname : name ∉ content.names)
    (entry : Entry) : (Folder.cons name entry content).Contains path := by
  -- Another name is not found at the new entry.
  have hchild : ∀ {n entry'}, content.child? n = some entry' →
      (Folder.cons name entry content).child? n = some entry' := by
    intro n entry' hn
    have hne : name ≠ n := fun heq => hname (heq ▸ mem_names_of_child? hn)
    rw [child?_cons, if_neg (by simpa using hne), hn]
  cases h with
  | file hproper h => exact .file hproper (hchild h)
  | folder hproper h hpath => exact .folder hproper (hchild h) hpath

/-- A walk over the path ends at the file. -/
theorem advance {root : Folder} {place : Place} (h : content.Contains path)
    (hlost : place.lost = 0) (hplace : root.folderAt? place.path = some content) :
    ∃ inner name bytes modified, root.advance place path = .file inner name bytes modified := by
  induction h generalizing place with
  | file hname h =>
    exact ⟨place, _, _, _, (holds_of_child? hlost hplace hname h).advance_eq⟩
  | folder hname h _ ih =>
    have hfolder := holds_of_child? hlost hplace hname h
    rw [hfolder.advance_eq]
    exact ih rfl hfolder.folderAt?_eq

end Contains

/-- Sorting keeps what the parts have. -/
theorem mem_inNameOrder {α : Type} {x : α} {parts : List (NativeText × List α)} :
    x ∈ inNameOrder parts ↔ ∃ part ∈ parts, x ∈ part.2 := by
  simp only [inNameOrder, List.mem_flatMap, List.mem_mergeSort]

/-- What a proper tree of texts passes on to its parts. -/
theorem inherited_isProper : Inherited fun content => content.isProper = true where
  file h := (Bool.and_eq_true_iff.mp h).2
  link h := (Bool.and_eq_true_iff.mp h).2
  special h := (Bool.and_eq_true_iff.mp h).2
  folder h := by
    simp only [isProper, Bool.and_eq_true] at h
    exact ⟨h.1.2, h.2⟩

/-- A tree of texts passes this on to its parts. -/
theorem inherited_isTextual : Inherited fun content => content.isTextual = true where
  file h := (Bool.and_eq_true_iff.mp h).2
  link h := (Bool.and_eq_true_iff.mp h).2
  special h := (Bool.and_eq_true_iff.mp h).2
  folder h := by
    simp only [isTextual, Bool.and_eq_true] at h
    exact ⟨h.1.2, h.2⟩

/-- In a proper tree the first entry of a name is its only one, so the files that an entry
    contributes are found below its name. -/
theorem contains_of_mem_contributions {content : Folder} (h : content.isProper = true)
    (htext : content.isTextual = true) {used : Nat} {part : NativeText × List (List NativeText)}
    (hpart : part ∈ content.contributions used) {path : List NativeText} (hpath : path ∈ part.2) :
    ∃ names : List String, path = names.map .text ∧ content.Contains names := by
  -- By induction on the tree. An entry in front does not get in the way of the others, since its
  -- name is not among theirs.
  induction content generalizing used part path with
  | empty => cases hpart
  | file name bytes modified rest ih =>
    simp only [isProper, Bool.and_eq_true, decide_eq_true_eq] at h
    obtain ⟨⟨hname, hfresh⟩, hrest⟩ := h
    rw [contributions, List.mem_cons] at hpart
    obtain rfl | hpart := hpart
    · rw [List.mem_singleton] at hpath
      obtain ⟨value, rfl⟩ := NativeText.exists_of_isText (Bool.and_eq_true_iff.mp htext).1
      exact ⟨[value], hpath, .file hname (by rw [child?, if_pos BEq.rfl])⟩
    · obtain ⟨names, rfl, hnames⟩ := ih hrest (inherited_isTextual.file htext) hpart hpath
      exact ⟨names, rfl, hnames.cons hfresh (.file bytes modified)⟩
  | link name target rest ih =>
    simp only [isProper, Bool.and_eq_true, decide_eq_true_eq] at h
    obtain ⟨⟨-, hfresh⟩, hrest⟩ := h
    obtain ⟨names, rfl, hnames⟩ := ih hrest (inherited_isTextual.link htext) hpart hpath
    exact ⟨names, rfl, hnames.cons hfresh (.link target)⟩
  | special name output modified rest ih =>
    simp only [isProper, Bool.and_eq_true, decide_eq_true_eq] at h
    obtain ⟨⟨-, hfresh⟩, hrest⟩ := h
    obtain ⟨names, rfl, hnames⟩ := ih hrest (inherited_isTextual.special htext) hpart hpath
    exact ⟨names, rfl, hnames.cons hfresh (.special output modified)⟩
  | folder name modified inside rest ihInside ih =>
    simp only [isProper, Bool.and_eq_true, decide_eq_true_eq] at h
    obtain ⟨⟨⟨hname, hfresh⟩, hinside⟩, hrest⟩ := h
    obtain ⟨htextInside, htextRest⟩ := inherited_isTextual.folder htext
    have hbehind : part ∈ rest.contributions used → ∃ names : List String,
        path = names.map .text ∧ (folder name modified inside rest).Contains names := by
      intro hpart
      obtain ⟨names, rfl, hnames⟩ := ih hrest htextRest hpart hpath
      exact ⟨names, rfl, hnames.cons hfresh (.folder modified inside)⟩
    rw [contributions] at hpart
    split at hpart
    · exact hbehind hpart
    · rw [List.mem_cons] at hpart
      obtain rfl | hpart := hpart
      · -- The paths of a directory are those inside it, with its name in front.
        obtain ⟨below, hbelow, rfl⟩ := List.mem_map.mp hpath
        obtain ⟨inner, hinner, hmem⟩ := mem_inNameOrder.mp hbelow
        obtain ⟨names, rfl, hnames⟩ := ihInside hinside htextInside hinner hmem
        simp only [isTextual, Bool.and_eq_true] at htext
        obtain ⟨value, rfl⟩ := NativeText.exists_of_isText htext.1.1
        exact ⟨value :: names, rfl, .folder hname (by rw [child?, if_pos BEq.rfl]) hnames⟩
      · exact hbehind hpart

/-- A listed path leads down to a file. -/
theorem contains_of_mem_filePaths {content : Folder} (h : content.isProper = true)
    (htext : content.isTextual = true) {used : Nat} {path : List NativeText}
    (hpath : path ∈ content.filePaths used) :
    ∃ names : List String, path = names.map .text ∧ content.Contains names := by
  obtain ⟨part, hpart, hmem⟩ := mem_inNameOrder.mp hpath
  exact contains_of_mem_contributions h htext hpart hmem

end Folder

/-! ## Looking listed files up -/

/-- Joining names with slashes is joining segments. -/
theorem Text.joinWith_slash (path : List String) :
    Text.joinWith "/" path = String.ofList (Path.joinSegments (path.map String.toList)) := by
  rw [← String.toList_inj, Text.toList_joinWith]
  simp [Path.joinSegments]

/-- The path to a file is not empty. -/
theorem Folder.Contains.joinWith_ne_empty {content : Folder} {path : List String}
    (h : content.Contains path) : Text.joinWith "/" path ≠ "" := by
  obtain ⟨name, rest, rfl⟩ := List.exists_cons_of_ne_nil h.ne_nil
  have hne : name ≠ "" := by
    rintro rfl
    exact absurd (h.isProperName "" List.mem_cons_self) (by decide)
  cases rest with
  | nil => exact hne
  | cons next rest => simp [Text.joinWith, hne]

namespace Machine

variable {m : Machine} {dir : String} {content : Folder} {path : List String}

/-- What stands in a directory stands at the place where a look-up ends. -/
theorem exists_place_of_folder? (h : m.folder? dir = some content) :
    ∃ place, m.lookup dir = .ok (.folder place) ∧ place.lost = 0 ∧
      m.root.folderAt? place.path = some content := by
  unfold folder? at h
  split at h
  · rename_i place hlookup
    split at h
    · rename_i hlost
      exact ⟨place, hlookup, eq_of_beq hlost, h⟩
    · cases h
  · cases h

/-- A file below a stored directory can be looked up if its path is not too long. -/
theorem isFile_of_contains (hfree : m.root.isLinkFree = true) (hdir : Path.IsStored dir)
    (hfolder : m.folder? dir = some content) (hpath : content.Contains path) :
    m.isFile (dir ++ Text.joinWith "/" path) = true ↔
      (dir ++ Text.joinWith "/" path).utf8ByteSize ≤ Folder.maxPathBytes := by
  obtain ⟨place, hlookup, hlost, hplace⟩ := exists_place_of_folder? hfolder
  obtain ⟨husable, hway⟩ := (lookup_eq_ok_iff_advance hfree).mp hlookup
  obtain ⟨hne, hnames⟩ := hpath.isName_segments
  obtain ⟨way, hdirSteps, hpathSteps⟩ := hdir.steps_append hne hnames
  -- The walk to the directory ends at the place of its content, with or without the dot.
  have hreach : m.root.advance (m.startOf dir) way = .folder place := by
    rw [hdirSteps, Folder.advance_append] at hway
    cases hreach : m.root.advance (m.startOf dir) way with
    | folder inner =>
      rw [hreach] at hway
      exact hway
    | file | special | link | failed =>
      rw [hreach] at hway
      cases hway
  obtain ⟨inner, name, bytes, modified, hwalk⟩ := hpath.advance hlost hplace
  -- A path below a directory is walked from where the directory is.
  have hstart : m.startOf (dir ++ Text.joinWith "/" path) = m.startOf dir := by
    rw [startOf, startOf, hdir.isAbsolute_append]
  rw [← Text.joinWith_slash, List.map_map] at hpathSteps
  constructor
  · intro hfile
    obtain ⟨_, _, _, _, hfound⟩ := isFile_iff.mp hfile
    exact ((lookup_eq_ok_iff_advance hfree).mp hfound).1.notLong
  · intro hlong
    refine isFile_iff.mpr ⟨inner, name, bytes, modified, (lookup_eq_ok_iff_advance hfree).mpr ?_⟩
    refine ⟨⟨?_, ?_, hlong⟩, ?_⟩
    · rw [String.toList_append, List.mem_append, not_or]
      refine ⟨husable.noNul, ?_⟩
      rw [Text.joinWith_slash, String.toList_ofList]
      intro hnul
      obtain hslash | ⟨segment, hsegment, hnul⟩ := Path.mem_joinSegments hnul
      · cases hslash
      · obtain ⟨name, hname, rfl⟩ := List.mem_map.mp hsegment
        exact (Folder.isProperName_iff.mp (hpath.isProperName name hname)).2.1 hnul
    · intro hempty
      exact husable.notEmpty (String.append_eq_empty_iff.mp hempty).1
    · have hid : path.map (String.ofList ∘ String.toList) = path := by simp
      rw [hstart, hpathSteps, hid, Folder.advance_append, hreach]
      exact hwalk

end Machine

/-! ## Resolving bracketed names -/

/-- An identifier that starts with a bracket has no kind in front. -/
theorem SourceRecord.parse_bracket {resource : String} {cs : List Char}
    (h : resource.toList = '[' :: cs) (sort : ResourceClass) :
    SourceRecord.parse resource sort = { name := resource, sort } := by
  -- Whatever stands in front of a colon starts with the bracket.
  have hsplit : Text.splitOnce [':'] ('[' :: cs) =
      (Text.splitOnce [':'] cs).map fun parts => ('[' :: parts.1, parts.2) := rfl
  rw [parse, h, hsplit]
  cases Text.splitOnce [':'] cs with
  | none => rfl
  | some parts =>
    have hkind : ('[' :: parts.1).all Char.isAlphanum = false := rfl
    simp only [Option.map_some, hkind, Bool.and_false, Bool.false_eq_true, if_false]

/-- A key has no blanks. -/
theorem SearchDirs.strip_of_isKeyName {name : String} (h : isKeyName name = true) :
    Text.strip name = name := by
  have hblank : ∀ c ∈ name.toList, Text.isBlank c = false := by
    intro c hc
    rw [← Bool.not_eq_true]
    intro hblank
    exact notMem_of_isKeyName h (isKeyChar_of_isBlank hblank) hc
  rw [Text.strip, Text.trim_eq_self hblank, String.ofList_toList]

namespace Resolver

section Bracketed

variable {token file : String} (htoken : SearchDirs.isKeyName token = true) (hfile : file ≠ "")
  (hline : '\n' ∉ file.toList) (hslash : '\\' ∉ file.toList)

/-- The characters of a name with a directory in front. -/
theorem toList_bracketed (token file : String) :
    ("[" ++ token ++ "]" ++ file).toList = '[' :: (token.toList ++ ']' :: file.toList) := by
  simp

include htoken

/-- A name with a directory in front does not stand for itself. -/
theorem isAbsoluteIdentifier_bracketed (file : String) :
    Path.isAbsoluteIdentifier ("[" ++ token ++ "]" ++ file) = false := by
  obtain ⟨hne, hkey⟩ := SearchDirs.isKeyName_iff.mp htoken
  rw [ne_eq, ← String.toList_inj] at hne
  obtain ⟨c, cs, hcs⟩ := List.exists_cons_of_ne_nil hne
  -- The bracket would be a drive letter before a colon, but no key starts with one.
  have hcolon : c ≠ ':' := by
    rintro rfl
    have hmem : ':' ∈ token.toList := hcs ▸ List.mem_cons_self
    exact SearchDirs.notMem_of_isKeyName htoken (by decide +kernel) hmem
  rw [Path.isAbsoluteIdentifier, toList_bracketed, hcs]
  simp [hcolon]

/-- Without backslashes it is unified as it is. -/
theorem unify_bracketed (hbackslash : '\\' ∉ file.toList) :
    Path.unify ("[" ++ token ++ "]" ++ file) = "[" ++ token ++ "]" ++ file := by
  refine Path.unify_eq_self ?_
  have hkey : '\\' ∉ token.toList :=
    SearchDirs.notMem_of_isKeyName htoken (by decide +kernel)
  rw [toList_bracketed]
  simp [hkey, hbackslash]

include hfile hline

/-- No character of a key closes the bracket or splits the tokens. -/
theorem isBracketed_key : IsBracketed ("[" ++ token ++ "]" ++ file) [token] file := by
  refine ⟨rfl, (SearchDirs.isKeyName_iff.mp htoken).1, ?_, ?_, hfile, hline⟩
  · exact List.forall_mem_singleton.mpr (SearchDirs.notMem_of_isKeyName htoken (by decide +kernel))
  · exact List.forall_mem_singleton.mpr (SearchDirs.notMem_of_isKeyName htoken (by decide +kernel))

include hslash

/-- A name with one directory in front is looked up there and nowhere else, and is recorded there if
    its path is canonical. -/
theorem resolve_bracketed (m : Machine) {engine : Engine} (hgate : engine.gate = none)
    {dir : String} (hdir : engine.templateDirs.resolveToken? token = some dir)
    (hnormal : Path.normalize (dir ++ file) = dir ++ file) :
    ∃ found, resolve m engine ("[" ++ token ++ "]" ++ file) .template none = .ok found ∧
      found.present = found.filepath.isSome ∧
      found.filepath = if m.isFile (dir ++ file) then some (dir ++ file) else none := by
  have hparse := SourceRecord.parse_bracket (toList_bracketed token file) .template
  -- A key has no blanks, so the token is the key.
  have hlisted : (engine.dirsFor .template).listed [token] = [dir] := by
    rw [← SearchDirs.strip_of_isKeyName htoken] at hdir
    exact SearchDirs.listed_cons_of_some hdir []
  have hsearched : IsSearched ("[" ++ token ++ "]" ++ file) none :=
    ⟨isAbsoluteIdentifier_bracketed htoken file, .inl rfl⟩
  -- That is the only directory, and the path is recorded as it is tried.
  have hlocate : locate m engine (.parse ("[" ++ token ++ "]" ++ file) .template) none =
      .ok (if m.isFile (dir ++ file) then some (dir ++ file) else none) := by
    have hname := isBracketed_key htoken hfile hline
    rw [← unify_bracketed htoken hslash] at hname
    rw [hparse, @locate_bracketed { name := "[" ++ token ++ "]" ++ file } none hsearched m engine
      [token] file hname]
    have hrecorded : recordedPath (dir ++ file) = dir ++ file := by
      rw [recordedPath, hnormal, ite_self]
    simp only [hlisted, Machine.search]
    cases hisFile : m.isFile (dir ++ file) <;> simp [hisFile, hrecorded]
  rw [hparse] at hlocate
  rw [resolve, hparse]
  by_cases hisFile : m.isFile (dir ++ file) = true
  · rw [if_pos hisFile] at hlocate ⊢
    obtain ⟨_, -, hfound⟩ := exists_populate_of_isFile hgate rfl hlocate hisFile
    exact ⟨_, hfound, rfl, rfl⟩
  · rw [if_neg hisFile] at hlocate ⊢
    exact ⟨_, populate_of_locate_none rfl hlocate, rfl, rfl⟩

end Bracketed

end Resolver

/-! ## Listed identifiers -/

/-- The identifier of a listed template: the key of its directory in brackets, and its name. -/
def ListEntry.identifier (e : ListEntry) : String :=
  "[" ++ e.key.render ++ "]" ++ e.name

/-- Texts are shown as they are, and the path over them is a text. -/
theorem ListEntry.below_map_text (key : DirKey) (dir : String) (names : List String) :
    below key dir (names.map .text) =
      ⟨key, Text.joinWith "/" names, .text (dir ++ Text.joinWith "/" names)⟩ := by
  have hshown : (names.map NativeText.text).map (·.shown) = names := by
    rw [List.map_map]
    exact List.map_id names
  rw [below, hshown, NativeText.joined_map_text]
  rfl

/-- The listing has the files below each of the search directories. -/
theorem mem_listTemplates_iff {m : Machine} {engine : Engine} {e : ListEntry} :
    e ∈ listTemplates m engine ↔
      ∃ dir content path, (e.key, dir) ∈ engine.templateDirs.entries.entries ∧
        m.folder? dir = some content ∧ path ∈ content.filePaths dir.utf8ByteSize ∧
        e = .below e.key dir path := by
  rw [listTemplates, listIn, List.mem_flatMap]
  constructor
  · rintro ⟨⟨key, dir⟩, hentry, hlisted⟩
    simp only [listDir] at hlisted
    -- Without a directory nothing is listed.
    split at hlisted
    · cases hlisted
    · rename_i content hcontent
      obtain ⟨path, hpath, rfl⟩ := List.mem_map.mp hlisted
      exact ⟨dir, content, path, hentry, hcontent, hpath, rfl⟩
  · rintro ⟨dir, content, path, hentry, hcontent, hpath, heq⟩
    refine ⟨(e.key, dir), hentry, ?_⟩
    simp only [listDir, hcontent]
    exact List.mem_map.mpr ⟨path, hpath, heq.symm⟩

/-- The listing is reported with an identifier on each line. -/
theorem reportListing_eq {entries : List ListEntry} (h : entries ≠ []) :
    reportListing entries = String.join (entries.map fun e => e.identifier ++ "\n") := by
  have hmap : ¬ (entries.map fun e => (e.key, e.name)).isEmpty = true := by
    simpa using h
  rw [reportListing, reportTemplates, if_neg hmap, List.map_map]
  rfl

/-- The directory that hides another one is stored canonical. -/
theorem SearchDirs.PlainlyBuilt.isStored_shadow? {s : SearchDirs} (h : s.PlainlyBuilt)
    {key : DirKey} {other : String} (hshadow : s.shadow? key = some other) :
    Path.IsStored other := by
  cases key with
  | index n => exact (h.forall_entries _ (OrderedMap.mem_of_get? hshadow)).2
  | name text => cases hshadow

/-- In a tree without links whose names are texts, for an engine without a gate whose search
    directories have no backslashes and plain names: the lines of the listing are identifiers, and
    each of them can be resolved, if its name has no backslash and is on one line. It leads to the
    listed file, provided that the path is short enough to be looked up and that no directory has
    the number of the listed one as its name. Otherwise it leads to the file of the same name in
    that directory, if there is one. -/
theorem listed_identifier_resolves {m : Machine} (hfree : m.root.isLinkFree = true)
    (hproper : m.root.isProper = true) (htext : m.root.isTextual = true) {engine : Engine}
    (hgate : engine.gate = none) (hdirs : engine.templateDirs.PlainlyBuilt) {e : ListEntry}
    (he : e ∈ listTemplates m engine) (hslash : '\\' ∉ e.name.toList)
    (hline : '\n' ∉ e.name.toList) :
    reportListing (listTemplates m engine) =
        String.join ((listTemplates m engine).map fun e => e.identifier ++ "\n") ∧
      ∃ path found, e.path = .text path ∧
        Resolver.resolve m engine e.identifier .template none = .ok found ∧
        found.present = found.filepath.isSome ∧
        (engine.templateDirs.shadow? e.key = none → found.filepath =
          if path.utf8ByteSize ≤ Folder.maxPathBytes then some path else none) ∧
        ∀ other, engine.templateDirs.shadow? e.key = some other → found.filepath =
          if m.isFile (other ++ e.name) then some (other ++ e.name) else none := by
  refine ⟨reportListing_eq (List.ne_nil_of_mem he), ?_⟩
  obtain ⟨dir, content, path, hentry, hfolder, hpath, heq⟩ := mem_listTemplates_iff.mp he
  obtain ⟨hkey, hstored⟩ := hdirs.forall_entries _ hentry
  obtain ⟨place, -, -, hplace⟩ := Machine.exists_place_of_folder? hfolder
  obtain ⟨names, rfl, hcontains⟩ := Folder.contains_of_mem_filePaths
    (Folder.inherited_isProper.folderAt? hproper hplace)
    (Folder.inherited_isTextual.folderAt? htext hplace) hpath
  rw [ListEntry.below_map_text] at heq
  have hpathEq : e.path = .text (dir ++ e.name) := by rw [heq]
  have hname : e.name = String.ofList (Path.joinSegments (names.map String.toList)) := by
    rw [heq, Text.joinWith_slash]
  -- Whichever directory the key refers to, the path below it is canonical.
  have hnormal : ∀ d, Path.IsStored d → Path.normalize (d ++ e.name) = d ++ e.name := by
    intro d hd
    rw [hname]
    exact hd.normalize_append hcontains.isName_segments.1 hcontains.isName_segments.2
  have htoken := hdirs.built.resolveToken?_render hentry
  have hne : e.name ≠ "" := by
    rw [heq]
    exact hcontains.joinWith_ne_empty
  have hfile : m.isFile (dir ++ e.name) = true ↔
      (dir ++ e.name).utf8ByteSize ≤ Folder.maxPathBytes := by
    rw [heq]
    exact Machine.isFile_of_contains hfree hstored hfolder hcontains
  -- A numeral is looked up as a name first, and only then as a number.
  cases hshadow : engine.templateDirs.shadow? e.key with
  | none =>
    rw [hshadow, Option.getD_none] at htoken
    obtain ⟨found, hfound, hpresent, hfilepath⟩ :=
      Resolver.resolve_bracketed hkey hne hline hslash m hgate htoken (hnormal dir hstored)
    refine ⟨dir ++ e.name, found, hpathEq, hfound, hpresent, fun _ => ?_, nofun⟩
    rw [hfilepath]
    simp only [hfile]
  | some other =>
    rw [hshadow, Option.getD_some] at htoken
    obtain ⟨found, hfound, hpresent, hfilepath⟩ :=
      Resolver.resolve_bracketed hkey hne hline hslash m hgate htoken
        (hnormal other (hdirs.isStored_shadow? hshadow))
    refine ⟨dir ++ e.name, found, hpathEq, hfound, hpresent, nofun, ?_⟩
    rintro _ ⟨⟩
    exact hfilepath

/-- A machine with a template on top of each of two directories and one further down. -/
def shelvedMachine : Machine :=
  { root := .folder "a" ⟨0⟩
      (.folder "sub" ⟨0⟩ (.file "x.tpl" .empty ⟨0⟩ .empty) (.file "x.tpl" .empty ⟨0⟩ .empty))
      (.folder "b" ⟨0⟩ (.file "x.tpl" .empty ⟨0⟩ .empty) .empty) }

/-- An engine with one directory under a number and one under a name. -/
def shelvedEngine (name : String) : Engine :=
  { templateDirs := (({} : SearchDirs).push none "/a").insertNamed none name "/b" }

/-- The directories of the engine have no backslashes. -/
theorem shelvedEngine_plainlyBuilt {name : String} (h : SearchDirs.isKeyName name = true) :
    (shelvedEngine name).templateDirs.PlainlyBuilt :=
  (SearchDirs.PlainlyBuilt.empty.push ⟨by decide, by decide⟩).insertNamed ⟨by decide, by decide⟩ h

/-- The template further down is listed. -/
theorem mem_listTemplates_shelvedEngine (name : String) :
    ⟨.index 0, "sub/x.tpl", "/a/sub/x.tpl"⟩ ∈
      listTemplates shelvedMachine (shelvedEngine name) := by
  refine mem_listTemplates_iff.mpr
    ⟨"/a/", _, [.text "sub", .text "x.tpl"], List.mem_cons_self, rfl, ?_, rfl⟩
  refine Folder.mem_inNameOrder.mpr ⟨_, List.mem_cons_self, List.mem_map_of_mem ?_⟩
  exact Folder.mem_inNameOrder.mpr ⟨_, List.mem_cons_self, List.mem_cons_self⟩

/-- The template further down is listed with the number of its directory and found by that. -/
theorem shelvedEngine_resolves :
    shelvedMachine.root.isLinkFree = true ∧ shelvedMachine.root.isProper = true ∧
      shelvedMachine.root.isTextual = true ∧ (shelvedEngine "site").templateDirs.PlainlyBuilt ∧
      ⟨.index 0, "sub/x.tpl", "/a/sub/x.tpl"⟩ ∈
        listTemplates shelvedMachine (shelvedEngine "site") ∧
      ∃ found, Resolver.resolve shelvedMachine (shelvedEngine "site") "[0]sub/x.tpl" .template
          none = .ok found ∧
        found.present = true ∧ found.filepath = some "/a/sub/x.tpl" := by
  have hfree : shelvedMachine.root.isLinkFree = true := rfl
  have hproper : shelvedMachine.root.isProper = true := by decide
  have htext : shelvedMachine.root.isTextual = true := rfl
  have hbuilt : (shelvedEngine "site").templateDirs.PlainlyBuilt :=
    shelvedEngine_plainlyBuilt (by decide)
  have hmem := mem_listTemplates_shelvedEngine "site"
  obtain ⟨-, path, found, hlisted, hfound, hpresent, hfilepath, -⟩ :=
    listed_identifier_resolves hfree hproper htext rfl hbuilt hmem (by decide) (by decide)
  obtain rfl : "/a/sub/x.tpl" = path := NativeText.text.inj hlisted
  have hpath : found.filepath = some "/a/sub/x.tpl" := hfilepath (by decide)
  refine ⟨hfree, hproper, htext, hbuilt, hmem, found, hfound, ?_, hpath⟩
  rw [hpresent, hpath]
  rfl

/-- A machine whose working directory has backslashes in its name. -/
def backslashMachine : Machine :=
  { root := .folder "a" ⟨0⟩ .empty
      (.folder "b" ⟨0⟩ (.folder "t" ⟨0⟩ (.file "x.tpl" .empty ⟨0⟩ .empty) .empty)
        (.folder "a\\..\\b" ⟨0⟩ .empty .empty))
    workingPlace := ⟨["a\\..\\b"], 0⟩ }

/-- An engine with one directory below the working directory. -/
def backslashEngine : Engine :=
  { templateDirs := ({} : SearchDirs).push backslashMachine.workingDir "t" }

/-- The template is listed, under a path that is not canonical. -/
theorem mem_listTemplates_backslashEngine :
    ⟨.index 0, "x.tpl", "/a/../b/t/x.tpl"⟩ ∈ listTemplates backslashMachine backslashEngine := by
  refine mem_listTemplates_iff.mpr
    ⟨"/a/../b/t/", _, [.text "x.tpl"], List.mem_cons_self, rfl, ?_, rfl⟩
  exact Folder.mem_inNameOrder.mpr ⟨_, List.mem_cons_self, List.mem_cons_self⟩

/-- A directory that has a number as its name hides the one with that number: a listed template is
    not found. And backslashes of the working directory become slashes only after the directory is
    canonical, so that a listed path need not be: the template is found under another path. -/
theorem listed_identifier_misses :
    shelvedMachine.root.isLinkFree = true ∧ shelvedMachine.root.isProper = true ∧
      (shelvedEngine "0").templateDirs.PlainlyBuilt ∧
      ⟨.index 0, "sub/x.tpl", "/a/sub/x.tpl"⟩ ∈ listTemplates shelvedMachine (shelvedEngine "0") ∧
      (∃ found, Resolver.resolve shelvedMachine (shelvedEngine "0") "[0]sub/x.tpl" .template none =
          .ok found ∧ found.present = false) ∧
      backslashMachine.root.isLinkFree = true ∧ backslashMachine.root.isProper = true ∧
      ⟨.index 0, "x.tpl", "/a/../b/t/x.tpl"⟩ ∈ listTemplates backslashMachine backslashEngine ∧
      ∃ found, Resolver.resolve backslashMachine backslashEngine "[0]x.tpl" .template none =
          .ok found ∧ found.filepath = some "/b/t/x.tpl" := by
  -- All of it is evaluated but the listing, since its sort does not reduce.
  exact ⟨rfl, by decide, shelvedEngine_plainlyBuilt (by decide),
    mem_listTemplates_shelvedEngine "0", ⟨_, rfl, rfl⟩, rfl, by decide,
    mem_listTemplates_backslashEngine, ⟨_, rfl, rfl⟩⟩

end TagPress
