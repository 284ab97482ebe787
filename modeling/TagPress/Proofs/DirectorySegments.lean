import Mathlib.Data.List.DropRight
import TagPress.Proofs.DirectoryKeys
import TagPress.Proofs.StoredDirectories

/-!
# Segments of stored directories

A search directory is made absolute and canonical first, and only then do its backslashes become
slashes. So a name with backslashes is cut into pieces behind the back of the canonical form, and
among the pieces there may be empty ones and dots. What is stored is always an absolute path with
one slash at its end and without backslashes, its segments are those pieces, and it is canonical
exactly if they are names. Without backslashes they are.

## Key results

- `Path.segments_unify`: turning backslashes into slashes cuts the segments at them
- `Path.segments_stored`: the segments of a stored directory
- `Path.tidy_iff_of_segments`: stored directories that are canonical, by their segments
- `stored_directories_segments`: the directories that any calls store
- `dottedCall_untidy`: a directory that is not stored canonical
-/

namespace TagPress

namespace Path

/-! ## Segments -/

/-- The segments of a directory between the slash at its front and the slash at its end. -/
def inner (dir : String) : List (List Char) :=
  (segments dir).tail.dropLast

/-- No segment of the directory is empty, `.` or `..`. -/
def Tidy (dir : String) : Prop :=
  ∀ segment ∈ inner dir, segment ≠ [] ∧ segment ≠ ['.'] ∧ segment ≠ ['.', '.']

instance (dir : String) : Decidable (Tidy dir) :=
  inferInstanceAs (Decidable (∀ segment ∈ inner dir, _))

/-- The names of a path, cut at their backslashes, without the empty pieces at the end. -/
def pieces (p : String) : List (List Char) :=
  ((trail p).back.reverse.flatMap (·.splitOn '\\')).rdropWhile List.isEmpty

/-- The segments of a directory that is given between slashes. -/
theorem inner_eq {dir : String} {names : List (List Char)}
    (h : segments dir = [] :: names ++ [[]]) : inner dir = names := by
  rw [inner, h, List.cons_append, List.tail_cons, List.dropLast_concat]

/-- A path can be put together from its segments. -/
theorem segments_inj {p q : String} (h : segments p = segments q) : p = q := by
  have hjoin : ∀ r : String, ['/'].intercalate (segments r) = r.toList := fun r =>
    List.intercalate_splitOn '/'
  rw [← String.toList_inj, ← hjoin p, h, hjoin q]

/-- Turning backslashes into slashes cuts the segments at them. -/
theorem segments_unify (p : String) :
    segments (unify p) = (segments p).flatMap (·.splitOn '\\') := by
  rw [segments, segments, unify, String.toList_ofList]
  -- By induction on the characters; each side cuts at the front or adds to its first piece.
  induction p.toList with
  | nil => rfl
  | cons c cs ih =>
    obtain ⟨first, rest, hsplit⟩ := List.exists_cons_of_ne_nil (List.splitOn_ne_nil '/' cs)
    rw [hsplit] at ih
    rw [List.map_cons, List.splitOn_cons_eq_if_modifyHead, List.splitOn_cons_eq_if_modifyHead,
      hsplit, ih]
    by_cases hslash : c = '/'
    · simp [hslash, unifyChar]
    by_cases hback : c = '\\'
    · -- The cut is at a slash on the one side and at a backslash on the other.
      have hhead : ('\\' :: first).splitOn '\\' = [] :: first.splitOn '\\' := by
        rw [List.splitOn_cons_eq_if_modifyHead, if_pos BEq.rfl]
      simp [hback, hhead, unifyChar]
    · -- Any other character goes to the front of the first piece of the first segment.
      have hhead : (c :: first).splitOn '\\' = (first.splitOn '\\').modifyHead (c :: ·) := by
        rw [List.splitOn_cons_eq_if_modifyHead, if_neg (by simpa using hback)]
      obtain ⟨piece, others, hpieces⟩ :=
        List.exists_cons_of_ne_nil (List.splitOn_ne_nil '\\' first)
      simp [hslash, unifyChar_of_ne hback, hhead, hpieces]

/-- Slashes at the end of a text are empty segments, and one slash in their place is one. -/
theorem splitOn_rdropWhile {cs first : List Char} {rest : List (List Char)}
    (h : cs.splitOn '/' = first :: rest) :
    (cs.rdropWhile (· == '/') ++ ['/']).splitOn '/' =
      first :: rest.rdropWhile List.isEmpty ++ [[]] := by
  -- From the end, where the slashes are dropped.
  induction cs using List.reverseRecOn generalizing rest with
  | nil =>
    rw [List.splitOn_nil] at h
    cases h
    rfl
  | append_singleton cs c ih =>
    by_cases hc : c = '/'
    · subst hc
      obtain ⟨head, tail, hsplit⟩ := List.exists_cons_of_ne_nil (List.splitOn_ne_nil '/' cs)
      rw [List.splitOn_append_cons_self, hsplit, List.splitOn_nil, List.cons_append] at h
      cases h
      have hslash : (cs ++ ['/']).rdropWhile (· == '/') = cs.rdropWhile (· == '/') :=
        List.rdropWhile_concat_pos _ _ _ BEq.rfl
      rw [hslash, List.rdropWhile_concat_pos _ _ _ rfl]
      exact ih hsplit
    · -- Something stands behind the last slash, so nothing is dropped on either side.
      have hkept : rest.rdropWhile List.isEmpty = rest := by
        rw [List.rdropWhile_eq_self_iff]
        intro hne hempty
        have hlast : ((cs ++ [c]).splitOn '/').getLast? = some [] := by
          rw [h, List.getLast?_cons_of_ne_nil hne, List.getLast?_eq_some_getLast hne,
            List.isEmpty_iff.mp hempty]
        obtain hnil | hslash := getLast?_of_splitOn_getLast? hlast
        · simp at hnil
        · rw [List.getLast?_concat, Option.some.injEq] at hslash
          exact hc hslash
      rw [List.rdropWhile_concat_neg _ _ _ (by simpa using hc), hkept,
        List.splitOn_append_cons_self, h, List.splitOn_nil]

/-! ## The stored form of a path -/

/-- A path and its canonical form have the same trail. -/
theorem trail_normalize (p : String) : trail (normalize p) = trail p := by
  rw [normalize_eq_render, (Trail.canonical_trail p).trail_render]

/-- So they have the same pieces. -/
theorem pieces_normalize (p : String) : pieces (normalize p) = pieces p := by
  rw [pieces, trail_normalize, pieces]

/-- The segments of a stored directory are the pieces of its path. -/
theorem segments_stored {p : String} (h : isAbsolute p = true) :
    segments (withTrailingSeparator (normalize p)) = [] :: pieces p ++ [[]] := by
  have hcanonical := Trail.canonical_trail p
  have hrooted : (trail p).rooted = true := by rw [rooted_trail, h]
  have hsegments := hcanonical.segments_render
  rw [hrooted, if_pos rfl, List.singleton_append, ← normalize_eq_render] at hsegments
  -- The empty segment of the root alone counts as a slash at the end.
  have hunified : segments (unify (normalize p)) =
      [] :: (if (trail p).back = [] then [[]] else (trail p).back.reverse).flatMap
        (·.splitOn '\\') := by
    rw [segments_unify, hsegments, List.flatMap_cons, List.splitOn_nil, List.singleton_append]
  have hdropped := splitOn_rdropWhile hunified
  rw [segments, withTrailingSeparator, String.toList_ofList]
  refine hdropped.trans ?_
  rw [pieces]
  -- The root alone has no names, and its one slash is both the first and the last.
  by_cases hback : (trail p).back = []
  · rw [if_pos hback, hback]
    rfl
  · rw [if_neg hback]

/-- Where there are no backslashes, the pieces are the names. -/
theorem pieces_eq {p : String} (h : '\\' ∉ (normalize p).toList) :
    pieces p = (trail p).back.reverse := by
  have hcanonical := Trail.canonical_trail p
  rw [normalize_eq_render] at h
  -- A name without backslashes is one piece.
  have hwhole : ∀ segment ∈ (trail p).back.reverse, segment.splitOn '\\' = [segment] := by
    intro segment hmem
    apply List.splitOn_eq_singleton
    intro hback
    have hne : (trail p).back ≠ [] := List.ne_nil_of_mem (List.mem_reverse.mp hmem)
    have hsegment : segment ∈ segments (trail p).render := by
      rw [hcanonical.segments_render, if_neg hne]
      exact List.mem_append_right _ hmem
    exact h (Text.mem_of_mem_splitOn hsegment hback).1
  have hflat : (trail p).back.reverse.flatMap (·.splitOn '\\') = (trail p).back.reverse := by
    rw [List.flatMap_congr hwhole, List.flatMap_singleton']
  rw [pieces, hflat, List.rdropWhile_eq_self_iff]
  intro hne hempty
  have hlast := List.mem_reverse.mp (List.getLast_mem hne)
  exact (hcanonical.segment hlast).1 (List.isEmpty_iff.mp hempty)

/-- Stored directories without backslashes have names for segments. -/
theorem tidy_stored {p : String} (h : isAbsolute p = true) (hback : '\\' ∉ (normalize p).toList) :
    Tidy (withTrailingSeparator (normalize p)) := by
  have hrooted : (trail p).rooted = true := by rw [rooted_trail, h]
  intro segment hmem
  rw [inner_eq (segments_stored h), pieces_eq hback, List.mem_reverse] at hmem
  have hname := (Trail.canonical_trail p).isName hrooted hmem
  exact ⟨hname.ne_nil, hname.ne_dot, hname.notParent⟩

/-- The segments of a tidy directory are names. -/
theorem Tidy.isName {dir : String} (h : Tidy dir) {segment : List Char}
    (hmem : segment ∈ inner dir) : IsName segment := by
  obtain ⟨hnil, hdot, hdots⟩ := h segment hmem
  have hsegment : segment ∈ segments dir :=
    List.mem_of_mem_tail (List.dropLast_subset _ hmem)
  refine ⟨by simp [isVoid, hnil, hdot], hdots, fun hslash => ?_⟩
  exact (Text.mem_of_mem_splitOn hsegment hslash).2 rfl

/-- A directory between slashes is its own canonical form with a slash at the end exactly if no
    segment is empty or a dot. -/
theorem tidy_iff_of_segments {dir : String} {names : List (List Char)}
    (h : segments dir = [] :: names ++ [[]]) (hback : '\\' ∉ dir.toList) :
    Tidy dir ↔ withTrailingSeparator (normalize dir) = dir := by
  have habsolute : isAbsolute dir = true := by
    obtain ⟨cs, hcs⟩ := head_of_splitOn_eq_nil_cons h (by simp)
    rw [isAbsolute, hcs]
    rfl
  have hplain : '\\' ∉ (normalize dir).toList := fun hmem =>
    hback ((normalize_sublist dir).subset hmem)
  constructor
  · intro htidy
    have hnames : ∀ name ∈ names, IsName name := fun name hname =>
      htidy.isName (by rwa [inner_eq h])
    -- Names leave the trail that they are.
    have htrail : trail dir = ⟨true, names.reverse⟩ := by
      have hvoid : component? [] = none := rfl
      rw [trail_eq_foldl, h, List.cons_append, List.filterMap_cons_none hvoid,
        List.filterMap_append, List.filterMap_cons_none hvoid, List.filterMap_nil,
        List.append_nil, Trail.foldl_follow_names hnames, List.append_nil, habsolute]
    apply segments_inj
    rw [segments_stored habsolute, pieces_eq hplain, htrail, List.reverse_reverse, h]
  · intro hsame
    rw [← hsame]
    exact tidy_stored habsolute hplain

/-- What is taken from an absolute path is absolute. -/
theorem isAbsolute_join {w dir : String} (hw : isAbsolute w = true) :
    isAbsolute (join w dir) = true := by
  rw [isAbsolute, beq_iff_eq] at hw
  obtain ⟨cs, hcs⟩ := List.head?_eq_some_iff.mp hw
  have hempty : w.isEmpty = false := by
    rw [← Bool.not_eq_true, String.isEmpty_iff]
    rintro rfl
    cases hcs
  unfold join
  cases hdir : isAbsolute dir with
  | true => simpa using hdir
  | false =>
    rw [hempty, Bool.false_or, if_neg Bool.false_ne_true]
    -- The path begins as the working directory does.
    split <;> simp [isAbsolute, hcs]

end Path

/-! ## Directories of calls -/

namespace SearchDirs

/-- A call whose directory can be told from the root: it is absolute, or it is seen from an absolute
    working directory. -/
def Call.Anchored (call : Call) : Prop :=
  Path.isAbsolute call.dir = true ∨ ∃ w, call.workingDir = some w ∧ Path.isAbsolute w = true

/-- What an anchored call stores comes from an absolute path. -/
theorem Call.Anchored.exists_absolute {call : Call} (h : call.Anchored) :
    ∃ p, Path.isAbsolute p = true ∧
      Path.absolute call.workingDir call.dir = Path.normalize p ∧
      (BackslashFree call.workingDir call.dir → '\\' ∉ p.toList) := by
  unfold Path.absolute
  -- An absolute directory is seen from nowhere else; any other from the working directory.
  cases hdir : Path.isAbsolute call.dir with
  | true => exact ⟨call.dir, hdir, rfl, fun hfree => hfree.1⟩
  | false =>
    obtain habsolute | ⟨w, hw, habsolute⟩ := h
    · rw [habsolute] at hdir
      cases hdir
    · rw [hw]
      refine ⟨Path.join w call.dir, Path.isAbsolute_join habsolute, rfl, fun hfree => ?_⟩
      exact Path.notMem_join (by decide) (hfree.2 hdir w rfl) hfree.1

/-- Every directory of a set was stored by a call. -/
theorem exists_call_of_mem_dirs {calls : List Call} {dir : String}
    (h : dir ∈ (ofCalls calls).dirs) : ∃ call ∈ calls, dir = call.stored := by
  obtain ⟨⟨key, value⟩, hentry, rfl⟩ := List.mem_map.mp h
  have hget := OrderedMap.get?_of_mem (nodup_keys_ofCalls calls) hentry
  have hmem : ∀ keep, value ∈ (calls.filter keep).map Call.stored →
      ∃ call ∈ calls, value = call.stored := by
    intro keep hstored
    obtain ⟨call, hcall, rfl⟩ := List.mem_map.mp hstored
    exact ⟨call, List.mem_of_mem_filter hcall, rfl⟩
  -- Numbers and names come from two different lists of calls.
  cases key with
  | index i => exact hmem _ (List.mem_of_getElem? ((get?_ofCalls_index calls i).symm.trans hget))
  | name n => exact hmem _ (List.mem_of_getLast? ((get?_ofCalls_name calls n).symm.trans hget))

end SearchDirs

/-- The directories that any calls store, each from an absolute working directory or with an
    absolute directory. A stored directory is an absolute path with exactly one slash at its end and
    without backslashes. It has no empty segment and no `.` or `..` exactly if it is its own
    canonical form with a slash behind it.

    The segments are the names of the canonical form of what the call gives, cut at their
    backslashes. If neither the directory nor, where it counts, the working directory has a
    backslash, none of them is empty or a dot. -/
theorem stored_directories_segments {calls : List SearchDirs.Call}
    (h : ∀ call ∈ calls, call.Anchored) :
    ∀ dir ∈ (SearchDirs.ofCalls calls).dirs,
      Path.isAbsolute dir = true ∧
      (∃ front, dir.toList = front ++ ['/'] ∧ front.getLast? ≠ some '/') ∧
      '\\' ∉ dir.toList ∧
      (Path.Tidy dir ↔ Path.withTrailingSeparator (Path.normalize dir) = dir) ∧
      ∃ call ∈ calls, dir = call.stored ∧
        Path.inner dir = Path.pieces (Path.absolute call.workingDir call.dir) ∧
        (SearchDirs.BackslashFree call.workingDir call.dir → Path.Tidy dir) := by
  intro dir hdir
  obtain ⟨call, hcall, rfl⟩ := SearchDirs.exists_call_of_mem_dirs hdir
  obtain ⟨p, habsolute, hp, hfree⟩ := (h call hcall).exists_absolute
  obtain ⟨front, hfront, hlast, hback⟩ := SearchDirs.toList_prepare call.workingDir call.dir
  have hstored : call.stored = Path.withTrailingSeparator (Path.normalize p) := by
    rw [SearchDirs.Call.stored, SearchDirs.prepare, hp]
  -- All parts follow from the segments of what the call stored.
  have hsegments : Path.segments call.stored = [] :: Path.pieces p ++ [[]] := by
    rw [hstored, Path.segments_stored habsolute]
  have hslashes : '\\' ∉ call.stored.toList := by
    rw [SearchDirs.Call.stored, hfront]
    simpa using hback
  refine ⟨?_, ⟨front, hfront, hlast⟩, hslashes, Path.tidy_iff_of_segments hsegments hslashes,
    call, hcall, rfl, ?_, fun hplain => ?_⟩
  · obtain ⟨cs, hcs⟩ := Path.head_of_splitOn_eq_nil_cons hsegments (by simp)
    rw [Path.isAbsolute, hcs]
    rfl
  · rw [Path.inner_eq hsegments, hp, Path.pieces_normalize]
  · rw [hstored]
    refine Path.tidy_stored habsolute fun hmem => ?_
    exact hfree hplain ((Path.normalize_sublist p).subset hmem)

/-- A relative directory with dots and empty segments, and a directory with backslashes. -/
def windingCalls : List SearchDirs.Call :=
  [{ workingDir := "/srv/site/", dir := "../shared//./t" }, { name := "admin", dir := "/a\\b\\" }]

/-- Both are stored canonical: the backslashes of the second cut its one name into two. -/
theorem windingCalls_stored :
    (∀ call ∈ windingCalls, call.Anchored) ∧
      (SearchDirs.ofCalls windingCalls).dirs = ["/srv/shared/t/", "/a/b/"] ∧
      ∀ dir ∈ ["/srv/shared/t/", "/a/b/"],
        Path.isAbsolute dir = true ∧ Path.withTrailingSeparator (Path.normalize dir) = dir := by
  have hanchored : ∀ call ∈ windingCalls, call.Anchored :=
    List.forall_mem_cons.mpr ⟨.inr ⟨_, rfl, by decide⟩, List.forall_mem_singleton.mpr (.inl rfl)⟩
  have hdirs : (SearchDirs.ofCalls windingCalls).dirs = ["/srv/shared/t/", "/a/b/"] := by decide
  refine ⟨hanchored, hdirs, fun dir hdir => ?_⟩
  obtain ⟨habsolute, -, -, htidy, -⟩ := stored_directories_segments hanchored dir (hdirs ▸ hdir)
  have hall : ∀ d ∈ ["/srv/shared/t/", "/a/b/"], Path.Tidy d := by decide
  exact ⟨habsolute, htidy.mp (hall dir hdir)⟩

/-- A directory whose one name has dots between backslashes. -/
def dottedCall : SearchDirs.Call :=
  { workingDir := "/srv", dir := "/a\\..\\b" }

/-- The dots of the name become a segment of what is stored, which is not canonical. -/
theorem dottedCall_untidy :
    (∀ call ∈ [dottedCall], call.Anchored) ∧
      (SearchDirs.ofCalls [dottedCall]).dirs = ["/a/../b/"] ∧
      ['.', '.'] ∈ Path.inner "/a/../b/" ∧ ¬ Path.Tidy "/a/../b/" ∧
      Path.withTrailingSeparator (Path.normalize "/a/../b/") = "/b/" := by
  refine ⟨List.forall_mem_singleton.mpr (.inl rfl), ?_, ?_, ?_, ?_⟩
  all_goals decide

end TagPress
