import TagPress.Text.Split

/-!
# Lexical paths

Paths are strings with `/` between their segments, and nothing here looks at a file system. Empty
segments never count, and `.` counts only as the first segment of a relative path. `normalize` gives
the canonical form: `..` takes away the name before it, the root is its own parent, and a relative
path may begin with some `..`.
-/

namespace TagPress

/-- A component of a path. -/
inductive Component where
  /-- The slash at the front of an absolute path. -/
  | root
  /-- A `.` at the front of a relative path. -/
  | current
  /-- A `..`. -/
  | parent
  /-- A name. -/
  | normal (name : List Char)
  deriving DecidableEq

namespace Path

/-- The segments of a path between its slashes. -/
def segments (p : String) : List (List Char) :=
  p.toList.splitOn '/'

/-- Whether a path starts at the root. -/
def isAbsolute (p : String) : Bool :=
  p.toList.head? == some '/'

/-- Whether a segment does not count inside a path. -/
def isVoid (segment : List Char) : Bool :=
  segment == [] || segment == ['.']

/-- The component of a segment that is not the first one. -/
def component? (segment : List Char) : Option Component :=
  if isVoid segment then none
  else if segment == ['.', '.'] then some .parent
  else some (.normal segment)

/-- The components of a path. -/
def components (p : String) : List Component :=
  let all := segments p
  let inner := all.filterMap component?
  if isAbsolute p then .root :: inner
  -- A dot behind the front is void, and so is one behind the root.
  else if all.head? == some ['.'] then .current :: inner
  else inner

/-- A path in canonical form: whether it starts at the root, and its segments, last one first. -/
structure Trail where
  /-- Whether the path starts at the root. -/
  rooted : Bool := false
  /-- The segments, last one first. -/
  back : List (List Char) := []
  deriving DecidableEq

/-- Follows one component. -/
def Trail.follow (t : Trail) : Component → Trail
  | .root => ⟨true, []⟩
  | .current => t
  | .normal name => ⟨t.rooted, name :: t.back⟩
  | .parent =>
    match t.back with
    -- The root is its own parent. From a relative path one climbs out.
    | [] => if t.rooted then t else ⟨t.rooted, [['.', '.']]⟩
    | last :: rest =>
      -- There is no name to take away after a `..` that climbed out.
      if last == ['.', '.'] then ⟨t.rooted, ['.', '.'] :: last :: rest⟩ else ⟨t.rooted, rest⟩

/-- The written form of a list of segments. -/
def joinSegments (segments : List (List Char)) : List Char :=
  List.intercalate ['/'] segments

/-- The written form of a trail. -/
def Trail.render (t : Trail) : String :=
  String.ofList ((if t.rooted then ['/'] else []) ++ joinSegments t.back.reverse)

/-- The canonical form of a path. -/
def normalize (p : String) : String :=
  ((components p).foldl Trail.follow {}).render

/-- The path `b` taken from `a`; an absolute `b` stands for itself. -/
def join (a b : String) : String :=
  if isAbsolute b || a.isEmpty then b
  else if a.toList.getLast? == some '/' then a ++ b
  else a ++ "/" ++ b

/-- The canonical form of a path seen from the working directory. Without a working directory a
relative path stays relative. -/
def absolute (workingDir : Option String) (p : String) : String :=
  if isAbsolute p then normalize p
  else
    match workingDir with
    | some dir => normalize (join dir p)
    | none => normalize p

/-- Drops the void segments at the end. -/
def dropVoidEnd (segments : List (List Char)) : List (List Char) :=
  (segments.reverse.dropWhile isVoid).reverse

/-- The path without its last component; what remains is written as before. The root and the empty
path have no parent. -/
def parent? (p : String) : Option String :=
  let all := segments p
  let leading := isAbsolute p || all.head? == some ['.']
  let inner := dropVoidEnd (if leading then all.drop 1 else all)
  if inner.isEmpty then
    -- A dot alone has the empty path above it.
    if leading && !isAbsolute p then some "" else none
  else
    let kept := dropVoidEnd inner.dropLast
    if isAbsolute p then some (String.ofList ('/' :: joinSegments kept))
    else if leading then some (String.ofList (joinSegments (['.'] :: kept)))
    else some (String.ofList (joinSegments kept))

/-- The last component of a path, if it is a name. -/
def fileName? (p : String) : Option String :=
  match (components p).getLast? with
  | some (.normal name) => some (String.ofList name)
  | _ => none

/-- Whether the components of `dir` stand at the front of the components of `p`. -/
def startsWith (p dir : String) : Bool :=
  (components dir).isPrefixOf (components p)

/-- The path, its parent, the parent of that and so on, at most `limit` parents. -/
def ancestorsUpTo : Nat → String → List String
  | 0, p => [p]
  | limit + 1, p =>
    match parent? p with
    | some q => p :: ancestorsUpTo limit q
    | none => [p]

/-- The path, its parent, the parent of that and so on. A parent is shorter than its path, so the
length of the path bounds their number. -/
def ancestors (p : String) : List String :=
  ancestorsUpTo p.length p

/-! ## Identifiers -/

/-- Whether an identifier names a file by itself: it starts with a slash or with a drive letter. -/
def isAbsoluteIdentifier (name : String) : Bool :=
  match name.toList with
  | '/' :: _ => true
  -- Any ASCII character counts as a drive letter.
  | c :: ':' :: _ => c.toNat < 128
  | _ => false

/-- The slash in place of a backslash, and any other character itself. -/
def unifyChar (c : Char) : Char :=
  if c == '\\' then '/' else c

/-- An identifier with slashes in place of its backslashes. -/
def unify (name : String) : String :=
  String.ofList (name.toList.map unifyChar)

/-- The characters of a path with unified separators. -/
theorem toList_unify (name : String) : (unify name).toList = name.toList.map unifyChar :=
  String.toList_ofList

/-- Only the backslash is rewritten. -/
theorem unifyChar_of_ne {c : Char} (h : c ≠ '\\') : unifyChar c = c := by
  simp [unifyChar, h]

/-- No backslash is left of a character. -/
theorem unifyChar_ne_backslash (c : Char) : unifyChar c ≠ '\\' := by
  by_cases h : c = '\\'
  · subst h
    decide
  · rwa [unifyChar_of_ne h]

/-- A path with unified separators has no backslash. -/
theorem backslash_notMem_unify (name : String) : '\\' ∉ (unify name).toList := by
  rw [toList_unify]
  intro hmem
  obtain ⟨c, -, hc⟩ := List.mem_map.mp hmem
  exact unifyChar_ne_backslash c hc

/-- A path without a backslash has its separators unified already. -/
theorem unify_eq_self {p : String} (h : '\\' ∉ p.toList) : unify p = p := by
  rw [← String.toList_inj, toList_unify]
  refine (List.map_congr_left fun c hc => ?_).trans (List.map_id _)
  exact unifyChar_of_ne fun heq => h (heq ▸ hc)

/-- Unifying twice is unifying once. -/
theorem unify_unify (name : String) : unify (unify name) = unify name :=
  unify_eq_self (backslash_notMem_unify name)

/-- A directory with unified separators and exactly one slash at its end. -/
def withTrailingSeparator (dir : String) : String :=
  String.ofList ((((unify dir).toList.reverse.dropWhile (· == '/')).reverse) ++ ['/'])

/-- Whether a path contains a dot followed by a slash. -/
def hasDotSlash (p : String) : Bool :=
  Text.occurs ['.', '/'] p.toList

end Path

end TagPress
