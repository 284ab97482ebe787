import TagPress.Machine
import TagPress.Proofs.CanonicalPath

/-!
# Walks through a file tree

A path is looked up by walking: each name has to be there, and all but the last have to be
directories. What a name stands for at a place decides each step, so a walk over some names goes on
from wherever they lead to. In a tree without links a walk never has to start again, and looking a
path up is one walk from the root or from the working directory.

## Key results

- `Folder.Holds`: what a name stands for at a place
- `Folder.advance_append`: a walk over more names
- `Folder.advance_cons_eq_file`: the first step of a walk to a file
- `Folder.advance_ne_link`: walks in a tree without links
- `Folder.steps_render`: the names that a canonical path asks for
- `Machine.lookup_eq_ok_iff_advance`: look-ups as walks
-/

namespace TagPress

/-- How a walk ends that leads to the node. -/
def Node.reach : Node → Reach
  | file place name content modified => .file place name content modified
  | special place name output modified => .special place name output modified
  | folder place => .folder place

namespace Folder

/-! ## Steps -/

/-- The name stands for the entry in the directory at the place, and can be looked up there. -/
structure Holds (root : Folder) (place : Place) (name : String) (entry : Entry) : Prop where
  notDot : name ≠ "."
  notDots : name ≠ ".."
  notLost : place.lost = 0
  notLong : name.utf8ByteSize ≤ maxNameBytes
  child : (root.folderAt? place.path).bind (·.child? name) = some entry

section Steps

variable {root : Folder} {place : Place} {name : String} {rest : List String}

/-- A dot stays where the walk is. -/
theorem advance_dot (root : Folder) (place : Place) (rest : List String) :
    root.advance place ("." :: rest) = root.advance place rest := by
  rw [advance, if_pos BEq.rfl]

/-- Two dots go up. -/
theorem advance_dots (root : Folder) (place : Place) (rest : List String) :
    root.advance place (".." :: rest) = root.advance place.up rest := by
  rw [advance, if_neg (by decide), if_pos BEq.rfl]

/-- What comes of a step to an entry with some names left. -/
def enter (root : Folder) (place : Place) (name : String) (rest : List String) : Entry → Reach
  | .file content modified =>
    if rest.isEmpty then .file place name content modified else .failed .notADirectory
  | .special output modified =>
    if rest.isEmpty then .special place name output modified else .failed .notADirectory
  | .folder _ _ => root.advance ⟨place.path ++ [name], 0⟩ rest
  | .link target => .link place target rest

/-- A step to what a name stands for. -/
theorem Holds.advance_eq {entry : Entry} (h : root.Holds place name entry) :
    root.advance place (name :: rest) = root.enter place name rest entry := by
  have hlost : ¬ 0 < place.lost := by
    have := h.notLost
    omega
  have hlong : ¬ maxNameBytes < name.utf8ByteSize := by
    have := h.notLong
    omega
  rw [advance, if_neg (by simpa using h.notDot), if_neg (by simpa using h.notDots), if_neg hlost,
    if_neg hlong, h.child]
  cases entry <;> rfl

/-- A name that is not dots either stands for something, or the walk ends there. -/
theorem holds_or_failed (root : Folder) (place : Place) (hdot : name ≠ ".") (hdots : name ≠ "..") :
    (∃ entry, root.Holds place name entry) ∨
      ∃ e, ∀ rest, root.advance place (name :: rest) = .failed e := by
  have hnotDot : ¬ (name == ".") = true := by simpa using hdot
  have hnotDots : ¬ (name == "..") = true := by simpa using hdots
  -- Whatever stops the walk here stops it for all names behind.
  by_cases hlost : 0 < place.lost
  · refine .inr ⟨.notFound, fun rest => ?_⟩
    rw [advance, if_neg hnotDot, if_neg hnotDots, if_pos hlost]
  by_cases hlong : maxNameBytes < name.utf8ByteSize
  · refine .inr ⟨.nameTooLong, fun rest => ?_⟩
    rw [advance, if_neg hnotDot, if_neg hnotDots, if_neg hlost, if_pos hlong]
  cases hchild : (root.folderAt? place.path).bind (·.child? name) with
  | none =>
    refine .inr ⟨.notFound, fun rest => ?_⟩
    rw [advance, if_neg hnotDot, if_neg hnotDots, if_neg hlost, if_neg hlong, hchild]
  | some entry => exact .inl ⟨entry, hdot, hdots, by omega, by omega, hchild⟩

/-- What a walk comes to when more names follow. -/
def onward (root : Folder) (more : List String) : Reach → Reach
  | .file place name content modified =>
    if more.isEmpty then .file place name content modified else .failed .notADirectory
  | .special place name output modified =>
    if more.isEmpty then .special place name output modified else .failed .notADirectory
  | .folder place => root.advance place more
  | .link place target rest => .link place target (rest ++ more)
  | .failed e => .failed e

/-- A walk goes on from where its first names lead to. -/
theorem advance_append (root : Folder) (place : Place) (names more : List String) :
    root.advance place (names ++ more) = root.onward more (root.advance place names) := by
  -- By induction on the first names; dots and directories lead to another place.
  induction names generalizing place with
  | nil => rfl
  | cons name rest ih =>
    rw [List.cons_append]
    by_cases hdot : name = "."
    · rw [hdot, advance_dot, advance_dot, ih]
    by_cases hdots : name = ".."
    · rw [hdots, advance_dots, advance_dots, ih]
    obtain ⟨entry, hentry⟩ | ⟨e, he⟩ := root.holds_or_failed place hdot hdots
    · rw [hentry.advance_eq, hentry.advance_eq]
      cases entry with
      | file | special =>
        -- A file ends the walk, whichever of the two lists has a name behind it.
        cases rest <;> cases more <;> rfl
      | folder modified inside => exact ih _
      | link target => rfl
    · rw [he, he]
      rfl

end Steps

/-! ## Places in the tree -/

/-- The directory at a path below another one. -/
theorem folderAt?_append (path more : List String) (content : Folder) :
    content.folderAt? (path ++ more) = (content.folderAt? path).bind (·.folderAt? more) := by
  induction path generalizing content with
  | nil => rfl
  | cons name path ih =>
    rw [List.cons_append, folderAt?, folderAt?]
    split
    · exact ih _
    · rfl

/-- A name that stands for a directory is the last name of its path. -/
theorem Holds.folderAt?_eq {root inside : Folder} {place : Place} {name : String}
    {modified : Instant} (h : root.Holds place name (.folder modified inside)) :
    root.folderAt? (place.path ++ [name]) = some inside := by
  obtain ⟨content, hcontent, hchild⟩ := Option.bind_eq_some_iff.mp h.child
  rw [folderAt?_append, hcontent, Option.bind_some, folderAt?, hchild]
  rfl

/-- What a content passes on to its parts. -/
structure Inherited (P : Folder → Prop) : Prop where
  file : ∀ {name content modified rest}, P (.file name content modified rest) → P rest
  link : ∀ {name target rest}, P (.link name target rest) → P rest
  special : ∀ {name output modified rest}, P (.special name output modified rest) → P rest
  folder : ∀ {name modified inside rest}, P (.folder name modified inside rest) → P inside ∧ P rest

/-- What is passed on holds of every directory directly inside. -/
theorem Inherited.child? {P : Folder → Prop} (hP : Inherited P) {content inside : Folder}
    (h : P content) {name : NativeText} {modified : Instant}
    (hchild : content.child? name = some (.folder modified inside)) : P inside := by
  -- The entries are searched from the first on, and only a directory of the name ends the search
  -- well.
  induction content with
  | empty => cases hchild
  | file n _ _ rest ih =>
    rw [Folder.child?] at hchild
    split at hchild
    · cases hchild
    · exact ih (hP.file h) hchild
  | link n _ rest ih =>
    rw [Folder.child?] at hchild
    split at hchild
    · cases hchild
    · exact ih (hP.link h) hchild
  | special n _ _ rest ih =>
    rw [Folder.child?] at hchild
    split at hchild
    · cases hchild
    · exact ih (hP.special h) hchild
  | folder n _ _ rest _ ih =>
    rw [Folder.child?] at hchild
    split at hchild
    · cases hchild
      exact (hP.folder h).1
    · exact ih (hP.folder h).2 hchild

/-- What is passed on holds of every directory in the tree. -/
theorem Inherited.folderAt? {P : Folder → Prop} (hP : Inherited P) {path : List String}
    {content inner : Folder} (h : P content) (hinner : content.folderAt? path = some inner) :
    P inner := by
  induction path generalizing content with
  | nil =>
    cases hinner
    exact h
  | cons name path ih =>
    rw [Folder.folderAt?] at hinner
    split at hinner
    · rename_i hchild
      exact ih (hP.child? h hchild) hinner
    · cases hinner

/-! ## Trees without links -/

/-- Every part of a tree without links is without links. -/
theorem inherited_isLinkFree : Inherited fun content => content.isLinkFree = true where
  file h := h
  link h := by cases h
  special h := h
  folder h := Bool.and_eq_true_iff.mp h

/-- No name stands for a link there. -/
theorem child?_ne_link {content : Folder} (h : content.isLinkFree = true) (name : NativeText)
    (target : String) : content.child? name ≠ some (.link target) := by
  induction content with
  | empty => nofun
  | file n _ _ rest ih | special n _ _ rest ih =>
    rw [child?]
    split
    · nofun
    · exact ih h
  | link n target rest => cases h
  | folder n _ _ rest _ ih =>
    rw [child?]
    split
    · nofun
    · exact ih (inherited_isLinkFree.folder h).2

section LinkFree

variable {root : Folder} (hfree : root.isLinkFree = true)

include hfree

/-- So at no place does a name stand for a link. -/
theorem not_holds_link (place : Place) (name target : String) :
    ¬ root.Holds place name (.link target) := by
  intro h
  obtain ⟨content, hcontent, hchild⟩ := Option.bind_eq_some_iff.mp h.child
  exact child?_ne_link (inherited_isLinkFree.folderAt? hfree hcontent) name target hchild

/-- A walk never stops at a link. -/
theorem advance_ne_link (place inner : Place) (names rest : List String) (target : String) :
    root.advance place names ≠ .link inner target rest := by
  induction names generalizing place with
  | nil => nofun
  | cons name names ih =>
    by_cases hdot : name = "."
    · rw [hdot, advance_dot]
      exact ih place
    by_cases hdots : name = ".."
    · rw [hdots, advance_dots]
      exact ih place.up
    -- A name that is no dots stands for an entry, or the walk ends.
    obtain ⟨entry, hentry⟩ | ⟨e, he⟩ := root.holds_or_failed place hdot hdots
    · rw [hentry.advance_eq]
      cases entry with
      | file | special =>
        rw [enter]
        split <;> nofun
      | folder modified inside => exact ih _
      | link target => exact absurd hentry (not_holds_link hfree place name target)
    · rw [he]
      nofun

/-- The first step of a walk to a file: the name stands for the file and is the last one, or it
    stands for a directory from which the walk goes on. -/
theorem advance_cons_eq_file {place inner : Place} {name file : String} {rest : List String}
    {content : ByteArray} {modified : Instant} (hdot : name ≠ ".") (hdots : name ≠ "..")
    (h : root.advance place (name :: rest) = .file inner file content modified) :
    (rest = [] ∧ inner = place ∧ file = name ∧
        root.Holds place name (.file content modified)) ∨
      ∃ made inside, root.Holds place name (.folder made inside) ∧
        root.advance ⟨place.path ++ [name], 0⟩ rest = .file inner file content modified := by
  -- The walk goes through, so the name stands for something.
  obtain ⟨entry, hentry⟩ | ⟨e, he⟩ := root.holds_or_failed place hdot hdots
  · rw [hentry.advance_eq] at h
    -- A file has to be the last name, and a directory is gone into.
    cases entry with
    | file content' modified' =>
      rw [enter] at h
      split at h
      · rename_i hrest
        cases h
        exact .inl ⟨List.isEmpty_iff.mp hrest, rfl, rfl, hentry⟩
      · cases h
    | special =>
      rw [enter] at h
      split at h <;> cases h
    | folder made inside => exact .inr ⟨made, inside, hentry, h⟩
    | link target => exact absurd hentry (not_holds_link hfree place name target)
  · rw [he] at h
    cases h

/-- Without links, following a walk is the walk. -/
theorem follow_eq_ok_iff {links : Nat} {place : Place} {names : List String} {node : Node} :
    root.follow links place names = .ok node ↔ root.advance place names = node.reach := by
  have hlink := advance_ne_link hfree place
  rw [follow]
  cases hreach : root.advance place names with
  | file | special | folder | failed => cases node <;> simp [Node.reach]
  | link inner target rest => exact absurd hreach (hlink inner names rest target)

end LinkFree

/-! ## Names of a path -/

/-- The names that segments ask for. -/
def namesOf (segs : List (List Char)) : List String :=
  (segs.filter (!·.isEmpty)).map String.ofList

/-- Segments are asked for one list after the other. -/
theorem namesOf_append (segs more : List (List Char)) :
    namesOf (segs ++ more) = namesOf segs ++ namesOf more := by
  rw [namesOf, List.filter_append, List.map_append, ← namesOf, ← namesOf]

/-- A slash at the end asks for the directory itself. -/
theorem steps_append_slash (p : String) :
    steps (p ++ "/") = namesOf (Path.segments p) ++ ["."] := by
  have hlist : (p ++ "/").toList = p.toList ++ ['/'] := String.toList_append
  have hsegments : Path.segments (p ++ "/") = Path.segments p ++ [[]] := by
    have hsplit := List.splitOn_append_cons_self (a := '/') p.toList []
    rw [Path.segments, hlist, hsplit, List.splitOn_nil, ← Path.segments]
  rw [steps, hsegments, hlist, List.getLast?_concat, if_pos BEq.rfl, ← namesOf, namesOf_append]
  exact congrArg (· ++ ["."]) (List.append_nil _)

/-- A path without a slash at its end asks for its segments. -/
theorem steps_eq_namesOf {p : String} (h : (Path.segments p).getLast? ≠ some []) :
    steps p = namesOf (Path.segments p) := by
  -- A slash at the end would make the last segment empty.
  have hslash : ¬ (p.toList.getLast? == some '/') = true := by
    intro hend
    obtain ⟨front, hfront⟩ := List.getLast?_eq_some_iff.mp (eq_of_beq hend)
    refine h ?_
    have hsplit := List.splitOn_append_cons_self (a := '/') front []
    rw [Path.segments, hfront, hsplit, List.splitOn_nil, List.getLast?_concat]
  rw [steps, if_neg hslash, List.append_nil, namesOf]

/-- The names that a canonical path asks for are those on its trail. -/
theorem namesOf_segments_render {t : Path.Trail} (h : t.Canonical) :
    namesOf (Path.segments t.render) = t.back.reverse.map String.ofList := by
  -- The slash at the front leaves an empty segment, which asks for nothing.
  have hroot : namesOf (if t.rooted then [[]] else []) = [] := by
    split <;> rfl
  rw [h.segments_render, namesOf_append, hroot, List.nil_append]
  split
  · rename_i hback
    rw [hback]
    rfl
  · rw [namesOf, List.filter_eq_self.mpr fun segment hsegment => ?_]
    have hne := (h.segment (List.mem_reverse.mp hsegment)).1
    simp [hne]

/-- A canonical path that is more than the root asks for the names on its trail. -/
theorem steps_render {t : Path.Trail} (h : t.Canonical) (hback : t.back ≠ []) :
    steps t.render = t.back.reverse.map String.ofList := by
  have hlast : (Path.segments t.render).getLast? ≠ some [] := by
    obtain ⟨last, rest, hrest⟩ := List.exists_cons_of_ne_nil hback
    rw [h.segments_render, if_neg hback, hrest, List.reverse_cons, ← List.append_assoc,
      List.getLast?_concat]
    intro hlast
    exact (h.segment (hrest ▸ List.mem_cons_self)).1 (Option.some.inj hlast)
  rw [steps_eq_namesOf hlast, namesOf_segments_render h]

end Folder

/-! ## Look-ups -/

/-- A path that can be looked up at all. -/
structure Path.Usable (p : String) : Prop where
  noNul : '\x00' ∉ p.toList
  notEmpty : p ≠ ""
  notLong : p.utf8ByteSize ≤ Folder.maxPathBytes

namespace Machine

variable {m : Machine} {p : String}

/-- Where the walk of a path starts. -/
def startOf (m : Machine) (p : String) : Place :=
  if Path.isAbsolute p then {} else m.workingPlace

/-- What is looked up has a path that can be looked up, and is where its names lead. -/
theorem lookup_eq_ok_iff {node : Node} :
    m.lookup p = .ok node ↔ Path.Usable p ∧
      m.root.follow Folder.maxLinks (m.startOf p) (Folder.steps p) = .ok node := by
  rw [lookup]
  -- Three checks come before the walk, in this order.
  by_cases hnul : p.toList.contains '\x00' = true
  · rw [if_pos hnul]
    refine ⟨nofun, fun h => absurd (List.contains_iff_mem.mp hnul) h.1.noNul⟩
  rw [if_neg hnul]
  by_cases hempty : p.isEmpty = true
  · rw [if_pos hempty]
    refine ⟨nofun, fun h => absurd (String.isEmpty_iff.mp hempty) h.1.notEmpty⟩
  rw [if_neg hempty]
  by_cases hlong : Folder.maxPathBytes < p.utf8ByteSize
  · rw [if_pos hlong]
    refine ⟨nofun, fun h => ?_⟩
    have := h.1.notLong
    omega
  rw [if_neg hlong]
  refine ⟨fun h => ⟨⟨?_, ?_, by omega⟩, h⟩, fun h => h.2⟩
  · exact fun hmem => hnul (List.contains_iff_mem.mpr hmem)
  · exact fun heq => hempty (String.isEmpty_iff.mpr heq)

/-- A path leads to a regular file. -/
theorem isFile_iff :
    m.isFile p = true ↔ ∃ place name content modified,
      m.lookup p = .ok (.file place name content modified) := by
  rw [isFile]
  split
  · rename_i place name content modified hlookup
    exact ⟨fun _ => ⟨place, name, content, modified, hlookup⟩, fun _ => rfl⟩
  · rename_i hother
    refine ⟨nofun, fun ⟨place, name, content, modified, hlookup⟩ => ?_⟩
    exact absurd hlookup (hother place name content modified)

section LinkFree

variable (hfree : m.root.isLinkFree = true)

include hfree

/-- A path is looked up by one walk. -/
theorem lookup_eq_ok_iff_advance {node : Node} :
    m.lookup p = .ok node ↔ Path.Usable p ∧
      m.root.advance (m.startOf p) (Folder.steps p) = node.reach := by
  rw [lookup_eq_ok_iff, Folder.follow_eq_ok_iff hfree]

end LinkFree

end Machine

end TagPress
