import TagPress.Proofs.CacheIdentity
import TagPress.Proofs.Containment

/-!
# Spellings of a path

One path can be written in many ways, and the cache identity of a source is made from the written
path. Names that are absolute, relative to a template or relative to the working directory are
recorded in canonical form. A name that is found in a search directory is recorded as it is written
unless a dot stands before a slash in it. What is left then of the many spellings are double
slashes: a recorded path is canonical exactly if it has none. So sources that are found without
double slashes have one identity for each path, and with them they may have several.

## Key results

- `Path.occurs_slashes_iff`: double slashes are empty segments
- `Path.Plain.normalize_eq`: a path without dots and double slashes is canonical
- `Machine.segments_getLast?_of_isFile`: a path to a regular file does not end in a slash
- `Resolver.normalize_eq_self_iff_of_locate`: the recorded paths that are canonical
- `uid_eq_of_same_path`: spellings of one path and the identities that come from them
- `doubleSlash_uid_ne`: one file with two identities
-/

namespace TagPress

/-! ## Double slashes -/

namespace Path

/-- Whether two slashes stand next to each other. -/
def hasDoubleSlash (p : String) : Bool :=
  Text.occurs ['/', '/'] p.toList

/-- A text starts with a slash exactly if an empty segment stands before its other segments. -/
theorem head?_eq_slash_iff {cs first : List Char} {rest : List (List Char)}
    (hsplit : cs.splitOn '/' = first :: rest) :
    cs.head? = some '/' ↔ first = [] ∧ rest ≠ [] := by
  constructor
  · intro hhead
    obtain ⟨cs', rfl⟩ := List.head?_eq_some_iff.mp hhead
    rw [List.splitOn_cons_eq_if_modifyHead, if_pos BEq.rfl] at hsplit
    obtain ⟨hfirst, hrest⟩ := List.cons.inj hsplit
    exact ⟨hfirst.symm, hrest ▸ List.splitOn_ne_nil '/' cs'⟩
  · rintro ⟨rfl, hrest⟩
    obtain ⟨cs', rfl⟩ := head_of_splitOn_eq_nil_cons hsplit hrest
    rfl

/-- Two slashes stand next to each other exactly if an empty segment has others on both sides. -/
theorem occurs_slashes_iff (cs : List Char) :
    Text.occurs ['/', '/'] cs = true ↔ [] ∈ (cs.splitOn '/').tail.dropLast := by
  induction cs with
  | nil => simp [Text.occurs]
  | cons c cs ih =>
    obtain ⟨first, rest, hsplit⟩ := List.exists_cons_of_ne_nil (List.splitOn_ne_nil '/' cs)
    rw [Text.occurs, Bool.or_eq_true, ih, List.splitOn_cons_eq_if_modifyHead, hsplit]
    -- A slash in front of a slash gives an empty segment between them.
    by_cases hc : c = '/'
    · subst hc
      have hlead : ['/', '/'].isPrefixOf ('/' :: cs) = true ↔ first = [] ∧ rest ≠ [] := by
        rw [← head?_eq_slash_iff hsplit]
        cases cs with
        | nil => simp
        | cons d cs => simpa using eq_comm
      rw [hlead, if_pos BEq.rfl, List.tail_cons, List.tail_cons]
      cases rest with
      | nil => simp
      | cons second rest => simp [List.dropLast_cons_cons, eq_comm]
    · have hne : (c == '/') = false := beq_eq_false_iff_ne.mpr hc
      have hlead : ['/', '/'].isPrefixOf (c :: cs) = false := by
        simp [List.isPrefixOf, Ne.symm hc]
      simp [hne, hlead]

/-- A canonical path has no double slashes. -/
theorem hasDoubleSlash_normalize (p : String) : hasDoubleSlash (normalize p) = false := by
  have hcanonical := Trail.canonical_trail p
  rw [← Bool.not_eq_true, hasDoubleSlash, normalize_eq_render, occurs_slashes_iff]
  have hsegments := hcanonical.segments_render
  rw [segments] at hsegments
  intro hnil
  have hback : [] ∈ (trail p).back := by
    rw [hsegments] at hnil
    -- The empty segments of the root and of the empty path have nothing on one side of them.
    cases hrooted : (trail p).rooted with
    | true =>
      rw [hrooted, if_pos rfl, List.singleton_append, List.tail_cons] at hnil
      split at hnil
      · cases hnil
      · exact List.mem_reverse.mp (List.dropLast_subset _ hnil)
    | false =>
      rw [hrooted, if_neg Bool.false_ne_true, List.nil_append] at hnil
      split at hnil
      · cases hnil
      · exact List.mem_reverse.mp (List.mem_of_mem_tail (List.dropLast_subset _ hnil))
  exact (hcanonical.segment hback).1 rfl

/-- Without double slashes, and with something behind the last slash, only the root has an empty
    segment. -/
theorem exists_segments_eq {p : String} (hslash : hasDoubleSlash p = false)
    (hlast : (segments p).getLast? ≠ some []) :
    ∃ names, names ≠ [] ∧ [] ∉ names ∧
      segments p = (if isAbsolute p then [[]] else []) ++ names := by
  obtain ⟨first, rest, hsplit⟩ := List.exists_cons_of_ne_nil (List.splitOn_ne_nil '/' p.toList)
  rw [hasDoubleSlash, ← Bool.not_eq_true, occurs_slashes_iff, hsplit, List.tail_cons] at hslash
  rw [segments, hsplit] at hlast ⊢
  -- An empty segment behind the first stands between two others or at the end.
  have hrest : [] ∉ rest := by
    intro hmem
    have hne : rest ≠ [] := List.ne_nil_of_mem hmem
    rw [← List.dropLast_concat_getLast hne, List.mem_append, List.mem_singleton] at hmem
    refine hmem.elim hslash fun hnil => hlast ?_
    rw [List.getLast?_cons_of_ne_nil hne, List.getLast?_eq_some_getLast hne, ← hnil]
  have habsolute : isAbsolute p = true ↔ first = [] ∧ rest ≠ [] := by
    rw [isAbsolute, beq_iff_eq, head?_eq_slash_iff hsplit]
  cases hroot : isAbsolute p with
  | true =>
    obtain ⟨rfl, hne⟩ := habsolute.mp hroot
    exact ⟨rest, hne, hrest, rfl⟩
  | false =>
    refine ⟨first :: rest, List.cons_ne_nil _ _, ?_, rfl⟩
    rw [List.mem_cons, not_or]
    refine ⟨fun hfirst => ?_, hrest⟩
    -- An empty first segment that is not the root would be the whole path.
    cases rest with
    | nil => exact hlast (by rw [← hfirst]; rfl)
    | cons second rest =>
      have hcontra := habsolute.mpr ⟨hfirst.symm, List.cons_ne_nil _ _⟩
      exact absurd hroot (by rw [hcontra]; decide)

/-- A path without dots, double slashes and a slash at the end is canonical. -/
theorem Plain.normalize_eq {p : String} (h : Plain p) (hslash : hasDoubleSlash p = false)
    (hlast : (segments p).getLast? ≠ some []) : normalize p = p := by
  obtain ⟨names, hne, hnil, hsegments⟩ := exists_segments_eq hslash hlast
  have hnames : ∀ name ∈ names, IsName name := by
    intro name hname
    have hmem : name ∈ segments p := hsegments ▸ List.mem_append_right _ hname
    have hempty : name ≠ [] := fun heq => hnil (heq ▸ hname)
    obtain ⟨hcurrent, hparent⟩ := h name hmem
    have hslash : '/' ∉ name := fun hc => (Text.mem_of_mem_splitOn hmem hc).2 rfl
    exact ⟨by simp [isVoid, hempty, hcurrent], hparent, hslash⟩
  -- No segment is skipped or taken away, so the trail has all of them.
  have htrail : trail p = ⟨isAbsolute p, names.reverse⟩ := by
    have hfront : (if isAbsolute p then [[]] else []).filterMap component? = [] := by
      cases isAbsolute p <;> rfl
    rw [trail_eq_foldl, hsegments, List.filterMap_append, hfront, List.nil_append,
      Trail.foldl_follow_names hnames, List.append_nil]
  -- A path is its segments with slashes between them.
  have hp : p = String.ofList (List.intercalate ['/'] (segments p)) := by
    rw [segments, List.intercalate_splitOn, String.ofList_toList]
  rw [normalize_eq_render, htrail, Trail.render, joinSegments, List.reverse_reverse]
  conv => rhs; rw [hp, hsegments]
  congr 1
  cases isAbsolute p with
  | true =>
    obtain ⟨name, names, rfl⟩ := List.exists_cons_of_ne_nil hne
    rfl
  | false => rfl

/-- A text whose last segment is empty is empty or ends in a slash. -/
theorem getLast?_of_splitOn_getLast? {cs : List Char}
    (h : (cs.splitOn '/').getLast? = some []) : cs = [] ∨ cs.getLast? = some '/' := by
  -- By induction on the text, whose last segment is that of what follows its first character.
  induction cs with
  | nil => exact .inl rfl
  | cons c cs ih =>
    right
    obtain ⟨first, rest, hsplit⟩ := List.exists_cons_of_ne_nil (List.splitOn_ne_nil '/' cs)
    rw [List.splitOn_cons_eq_if_modifyHead, hsplit] at h
    rw [hsplit] at ih
    split at h
    · rename_i hc
      rw [List.getLast?_cons_cons] at h
      obtain rfl | hslash := ih h
      · rw [eq_of_beq hc]
        rfl
      · rw [List.getLast?_cons, hslash]
        rfl
    · cases rest with
      | nil => cases h
      | cons second rest =>
        rw [List.modifyHead_cons, List.getLast?_cons_cons] at h
        obtain rfl | hslash := ih (by rwa [List.getLast?_cons_cons])
        · cases hsplit
        · rw [List.getLast?_cons, hslash]
          rfl

end Path

/-- A path to a regular file does not end in a slash. -/
theorem Machine.segments_getLast?_of_isFile {m : Machine} {p : String} (h : m.isFile p = true) :
    (Path.segments p).getLast? ≠ some [] := by
  intro hlast
  obtain hempty | hslash := Path.getLast?_of_splitOn_getLast? hlast
  · rw [String.toList_eq_nil_iff.mp hempty] at h
    cases h
  · -- A slash at the end asks for the directory itself, as a dot does.
    have hsteps : Folder.EndsInDots (Folder.steps p) := by
      rw [Folder.steps, hslash, if_pos BEq.rfl]
      exact Folder.EndsInDots.append (.inl rfl) _
    exact not_endsInDots_of_isFile h hsteps

/-! ## Recorded spellings -/

/-- The path that is recorded for a source is canonical exactly if it has no double slashes. -/
theorem Resolver.normalize_eq_self_iff_of_locate {m : Machine} {engine : Engine}
    {record : SourceRecord} {parent : Option SourceRecord} {filepath : String}
    (h : locate m engine record parent = .ok (some filepath)) :
    Path.normalize filepath = filepath ↔ Path.hasDoubleSlash filepath = false := by
  refine ⟨fun hnormal => hnormal ▸ Path.hasDoubleSlash_normalize filepath, fun hslash => ?_⟩
  -- A path is tidied where it is located, or it has no dots and is kept as it was tried.
  obtain ⟨c, rfl, hfile, ⟨p, hp⟩ | ⟨hprobe, hdot⟩⟩ := exists_tidy_of_locate h
  · rw [hp, Path.normalize_normalize]
  · rw [← hprobe] at hfile
    have hplain : Path.Plain c.stored :=
      Path.plain_of_hasDotSlash hdot fun segment => Machine.last_segment_of_isFile hfile
    exact hplain.normalize_eq hslash (Machine.segments_getLast?_of_isFile hfile)

/-- The path of a source that was found is canonical exactly if it has no double slashes. -/
theorem Resolver.normalize_eq_self_iff_of_populate {m : Machine} {engine : Engine}
    {record found : SourceRecord} {parent : Option SourceRecord} {filepath : String}
    (h : populate m engine record parent = .ok found) (hpresent : found.present = true)
    (hpath : found.filepath = some filepath) :
    Path.normalize filepath = filepath ↔ Path.hasDoubleSlash filepath = false := by
  obtain ⟨recorded, hrecorded, hlocate, -⟩ := exists_of_populate h hpresent
  obtain rfl : recorded = filepath := Option.some.inj (hrecorded.symm.trans hpath)
  exact normalize_eq_self_iff_of_locate hlocate

/-- Two sources of one class that an engine finds, under any names and for any requesting templates.
    A recorded path is canonical exactly if it has no double slashes. If the two paths are the same
    and neither has double slashes, they are spelled the same and the identities agree. Apart from
    collisions of the digest, the identities agree only if the paths are spelled the same. -/
theorem uid_eq_of_same_path {m : Machine} {engine : Engine}
    {record record' found found' : SourceRecord} {parent parent' : Option SourceRecord}
    {filepath filepath' : String}
    (h : Resolver.populate m engine record parent = .ok found) (hpresent : found.present = true)
    (h' : Resolver.populate m engine record' parent' = .ok found')
    (hpresent' : found'.present = true) (hsort : found.sort = found'.sort)
    (hpath : found.filepath = some filepath) (hpath' : found'.filepath = some filepath') :
    (Path.normalize filepath = filepath ↔ Path.hasDoubleSlash filepath = false) ∧
      (Path.normalize filepath = Path.normalize filepath' →
        Path.hasDoubleSlash filepath = false → Path.hasDoubleSlash filepath' = false →
        filepath = filepath' ∧ found.uid = found'.uid) ∧
      (¬ Digest.Collide (engine.identityInput found) (engine.identityInput found') →
        (found.uid = found'.uid ↔ filepath = filepath')) := by
  have hcanonical := Resolver.normalize_eq_self_iff_of_populate h hpresent hpath
  have hcanonical' := Resolver.normalize_eq_self_iff_of_populate h' hpresent' hpath'
  -- The engine is one, so the signatures agree and only the spelling counts.
  have hinput : engine.identityInput found = engine.identityInput found' ↔
      filepath = filepath' := by
    rw [Resolver.identityInput_eq_iff h hpresent h' hpresent', hpath, hpath', hsort]
    simp
  refine ⟨hcanonical, fun hsame hslash hslash' => ?_, fun hfree => ?_⟩
  · have hspelled : filepath = filepath' := by
      rw [← hcanonical.mpr hslash, hsame, hcanonical'.mpr hslash']
    refine ⟨hspelled, ?_⟩
    rw [Resolver.uid_eq_sha256Hex h hpresent, Resolver.uid_eq_sha256Hex h' hpresent',
      hinput.mpr hspelled]
  · rw [Resolver.uid_eq_iff_identityInput h hpresent h' hpresent' hfree, hinput]

/-- A machine with one file, in a directory below the one that is searched. -/
def nestedFile : Machine :=
  { root := .folder "srv" ⟨0⟩ (.folder "sub" ⟨0⟩ (.file "x.tpl" .empty ⟨0⟩ .empty) .empty) .empty }

/-- The record of its file after it was looked up under a name. -/
def nestedRecord (name : String) : SourceRecord :=
  (Resolver.lookUp nestedFile sharedEngine (.parse name .template) none).2

/-- A name from a search directory and an absolute name lead to one spelling and one identity. -/
theorem nestedRecord_uid_eq :
    (nestedRecord "sub/x.tpl").filepath = some "/srv/sub/x.tpl" ∧
      (nestedRecord "/srv//sub/../sub/./x.tpl").filepath = some "/srv/sub/x.tpl" ∧
      (nestedRecord "sub/x.tpl").uid = (nestedRecord "/srv//sub/../sub/./x.tpl").uid := by
  have hsearched : Resolver.populate nestedFile sharedEngine (.parse "sub/x.tpl" .template) none =
      .ok (nestedRecord "sub/x.tpl") := rfl
  have hnamed : Resolver.populate nestedFile sharedEngine
      (.parse "/srv//sub/../sub/./x.tpl" .template) none =
        .ok (nestedRecord "/srv//sub/../sub/./x.tpl") := rfl
  -- Both paths are canonical, so they are spelled alike.
  have hsame := (uid_eq_of_same_path hsearched rfl hnamed rfl rfl rfl rfl).2.1 rfl rfl rfl
  exact ⟨rfl, rfl, hsame.2⟩

/-- One file is found under two names that differ by a slash. The paths are the same, but they are
    spelled differently, and the source has two identities. -/
theorem doubleSlash_uid_ne :
    Resolver.populate nestedFile sharedEngine (.parse "sub/x.tpl" .template) none =
        .ok (nestedRecord "sub/x.tpl") ∧
      Resolver.populate nestedFile sharedEngine (.parse "sub//x.tpl" .template) none =
        .ok (nestedRecord "sub//x.tpl") ∧
      (nestedRecord "sub/x.tpl").present = true ∧ (nestedRecord "sub//x.tpl").present = true ∧
      (nestedRecord "sub/x.tpl").filepath = some "/srv/sub/x.tpl" ∧
      (nestedRecord "sub//x.tpl").filepath = some "/srv/sub//x.tpl" ∧
      Path.components "/srv/sub/x.tpl" = Path.components "/srv/sub//x.tpl" ∧
      Path.normalize "/srv/sub/x.tpl" = Path.normalize "/srv/sub//x.tpl" ∧
      (nestedRecord "sub/x.tpl").uid ≠ (nestedRecord "sub//x.tpl").uid := by
  refine ⟨rfl, rfl, rfl, rfl, rfl, rfl, by decide, by decide, fun heq => ?_⟩
  have hdigest : Digest.sha256
        (Resolver.identityBytes .template "/srv/sub/x.tpl" sharedEngine.templateDirs) =
      Digest.sha256
        (Resolver.identityBytes .template "/srv/sub//x.tpl" sharedEngine.templateDirs) :=
    Digest.sha256Hex_eq_iff.mp heq
  rw [Resolver.identityBytes_eq, Resolver.identityBytes_eq] at hdigest
  -- The two digests are computed by the kernel.
  exact absurd hdigest (by decide +kernel)

end TagPress
