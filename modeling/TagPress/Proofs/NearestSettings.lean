import Mathlib.Data.List.DropRight
import TagPress.Discovery
import TagPress.Proofs.Walks

/-!
# The nearest configuration file

A configuration file is looked for in a directory, then in the directory above it and so on. Nothing
but the text of the path says which directory is above another: the last component is taken away.
Each time the path has one component less, until only the root is left, which has no parent. So the
search ends, it skips no directory on the way up, the root included, and the first file that it
meets is the one in the deepest directory. Whether that file can be loaded is not asked before.

## Key results

- `Path.parent?_cases`: a parent has all components but the last one, and only the root has none
- `Path.absolute_induction`: from the root to any absolute path, component by component
- `Path.Above`: the directories above a path; `Path.existsUnique_above`: none is left out
- `Settings.Climbs`: the search, step by step; `Settings.climbs_iff`: it ends, with one outcome
- `discoverFrom_loads_nearest`: the search loads the file in the deepest directory
-/

namespace TagPress

namespace Path

/-! ## Parents -/

/-- Void segments, and no others, stand for no component. -/
theorem component?_eq_none_iff {segment : List Char} :
    component? segment = none ↔ isVoid segment = true := by
  unfold component?
  split
  · rename_i hvoid
    exact ⟨fun _ => hvoid, fun _ => rfl⟩
  · rename_i hvoid
    refine ⟨fun hnone => ?_, fun h => absurd h hvoid⟩
    split at hnone <;> cases hnone

theorem dropVoidEnd_eq (segs : List (List Char)) : dropVoidEnd segs = segs.rdropWhile isVoid := rfl

/-- Void segments stand for no component, so dropping them at the end changes no component. -/
theorem filterMap_dropVoidEnd (segs : List (List Char)) :
    (dropVoidEnd segs).filterMap component? = segs.filterMap component? := by
  rw [dropVoidEnd_eq]
  -- From the end, where segments are dropped.
  induction segs using List.reverseRecOn with
  | nil => rfl
  | append_singleton segs segment ih =>
    by_cases hvoid : isVoid segment = true
    · rw [List.rdropWhile_concat_pos _ _ _ hvoid, ih, List.filterMap_append,
        List.filterMap_cons_none (component?_eq_none_iff.mpr hvoid), List.filterMap_nil,
        List.append_nil]
    · rw [List.rdropWhile_concat_neg _ _ _ hvoid]

/-- After the void segments at the end are dropped, the last one counts. -/
theorem dropVoidEnd_cases (segs : List (List Char)) :
    dropVoidEnd segs = [] ∨ ∃ front last c, dropVoidEnd segs = front ++ [last] ∧
      component? last = some c := by
  obtain hnil | ⟨front, last, hlast⟩ := List.eq_nil_or_concat (dropVoidEnd segs)
  · exact .inl hnil
  · rw [List.concat_eq_append] at hlast
    refine .inr ⟨front, last, ?_⟩
    have hne : segs.rdropWhile isVoid ≠ [] := by simp [← dropVoidEnd_eq, hlast]
    -- Dropping stops at a segment that counts.
    have hvoid := List.rdropWhile_last_not isVoid segs hne
    simp only [← dropVoidEnd_eq, hlast, List.getLast_concat] at hvoid
    obtain ⟨c, hc⟩ := Option.ne_none_iff_exists'.mp (mt component?_eq_none_iff.mp hvoid)
    exact ⟨c, hlast, hc⟩

/-- The first segment of an absolute path is the empty one before its slash. -/
theorem segments_of_isAbsolute {p : String} (h : isAbsolute p = true) :
    ∃ cs, p.toList = '/' :: cs ∧ segments p = [] :: cs.splitOn '/' := by
  rw [isAbsolute, beq_iff_eq] at h
  obtain ⟨cs, hcs⟩ := List.head?_eq_some_iff.mp h
  refine ⟨cs, hcs, ?_⟩
  rw [segments, hcs, List.splitOn_cons_eq_if_modifyHead, if_pos BEq.rfl]

/-- The components of an absolute path are the root and those of the segments behind it. -/
theorem components_of_isAbsolute {p : String} (h : isAbsolute p = true) :
    components p = .root :: (segments p).tail.filterMap component? := by
  obtain ⟨cs, -, hsegments⟩ := segments_of_isAbsolute h
  simp only [components, h, if_true, hsegments, List.tail_cons]
  rw [List.filterMap_cons_none rfl]

/-- An absolute path that is written down from segments has their components. -/
theorem components_rooted {segs : List (List Char)} (h : ∀ segment ∈ segs, '/' ∉ segment) :
    components (String.ofList ('/' :: joinSegments segs)) =
      .root :: segs.filterMap component? := by
  have habsolute : isAbsolute (String.ofList ('/' :: joinSegments segs)) = true := by
    rw [isAbsolute, String.toList_ofList]
    rfl
  obtain ⟨cs, hcs, hsegments⟩ := segments_of_isAbsolute habsolute
  rw [String.toList_ofList, List.cons.injEq] at hcs
  have hreverse : ∀ segment ∈ segs.reverse, '/' ∉ segment := fun segment hmem =>
    h segment (List.mem_reverse.mp hmem)
  -- Segments are read back from a path as long as they have no slash.
  have hsplit := Trail.splitOn_joinSegments hreverse
  rw [List.reverse_reverse] at hsplit
  rw [components_of_isAbsolute habsolute, hsegments, List.tail_cons, ← hcs.2, hsplit]
  split
  · rename_i hnil
    rw [List.reverse_eq_nil_iff.mp hnil]
    rfl
  · rfl

/-- The parent of an absolute path has all of its components but the last one. Only the root has no
    parent. -/
theorem parent?_cases {p : String} (h : isAbsolute p = true) :
    (parent? p = none ∧ components p = [.root]) ∨
      ∃ q c, parent? p = some q ∧ isAbsolute q = true ∧ components p = components q ++ [c] := by
  -- For an absolute path, of all the branches these two are left.
  have hparent : parent? p =
      if (dropVoidEnd (segments p).tail).isEmpty then none
      else some (String.ofList
        ('/' :: joinSegments (dropVoidEnd (dropVoidEnd (segments p).tail).dropLast))) := by
    simp only [parent?, h, Bool.true_or, if_true, List.drop_one, Bool.not_true, Bool.and_false,
      Bool.false_eq_true, if_false]
  rw [components_of_isAbsolute h, ← filterMap_dropVoidEnd (segments p).tail, hparent]
  obtain hnil | ⟨front, last, c, hlast, hc⟩ := dropVoidEnd_cases (segments p).tail
  · rw [hnil]
    exact .inl ⟨rfl, rfl⟩
  · -- What is left of the segments still has no slash, so it is read back from the parent.
    have hslash : ∀ segment ∈ dropVoidEnd front, '/' ∉ segment := by
      intro segment hsegment hmem
      have hfront : segment ∈ front := (List.rdropWhile_prefix isVoid front).subset hsegment
      have hinner : segment ∈ dropVoidEnd (segments p).tail := by
        rw [hlast]
        exact List.mem_append_left _ hfront
      have hsegments : segment ∈ segments p :=
        List.mem_of_mem_tail ((List.rdropWhile_prefix isVoid _).subset hinner)
      exact (Text.mem_of_mem_splitOn hsegments hmem).2 rfl
    refine .inr ⟨String.ofList ('/' :: joinSegments (dropVoidEnd front)), c, ?_, ?_, ?_⟩
    · rw [hlast, List.dropLast_concat, if_neg (by simp)]
    · rw [isAbsolute, String.toList_ofList]
      rfl
    · rw [components_rooted hslash, filterMap_dropVoidEnd front, hlast, List.filterMap_append,
        List.filterMap_cons_some hc]
      rfl

/-- A parent is absolute and has one component less. -/
theorem isAbsolute_of_parent? {p q : String} (h : isAbsolute p = true)
    (hparent : parent? p = some q) :
    isAbsolute q = true ∧ ∃ c, components p = components q ++ [c] := by
  obtain ⟨hnone, -⟩ | ⟨q', c, hsome, hq, hcomponents⟩ := parent?_cases h
  · rw [hnone] at hparent
    cases hparent
  · obtain rfl : q' = q := Option.some.inj (hsome.symm.trans hparent)
    exact ⟨hq, c, hcomponents⟩

/-- A text has no more pieces than there are places between characters. -/
theorem length_splitOn_le (sep : Char) (cs : List Char) :
    (cs.splitOn sep).length ≤ cs.length + 1 := by
  induction cs with
  | nil => simp
  | cons c cs ih =>
    rw [List.splitOn_cons_eq_if_modifyHead, List.length_cons]
    split
    · rw [List.length_cons]
      omega
    · rw [List.length_modifyHead]
      omega

/-- A path has no more components behind the root than characters. -/
theorem length_components_le {p : String} (h : isAbsolute p = true) :
    (components p).length ≤ p.length + 1 := by
  obtain ⟨cs, hcs, hsegments⟩ := segments_of_isAbsolute h
  have hinner := List.length_filterMap_le component? (cs.splitOn '/')
  have hsplit := length_splitOn_le '/' cs
  rw [components_of_isAbsolute h, hsegments, List.tail_cons, List.length_cons,
    ← String.length_toList, hcs, List.length_cons]
  omega

/-- What holds of the root and is passed on from a parent holds of every absolute path. -/
theorem absolute_induction {motive : (p : String) → isAbsolute p = true → Prop}
    (top : ∀ p hp, parent? p = none → components p = [.root] → motive p hp)
    (up : ∀ p hp q hq c, parent? p = some q → components p = components q ++ [c] →
      motive q hq → motive p hp) (p : String) (h : isAbsolute p = true) : motive p h := by
  -- On the number of components, since the text of a parent need not be a part of the text.
  induction hcount : (components p).length using Nat.strongRecOn generalizing p with
  | ind n ih =>
    obtain ⟨hnone, hroot⟩ | ⟨q, c, hsome, hq, hcomponents⟩ := parent?_cases h
    · exact top p h hnone hroot
    · refine up p h q hq c hsome hcomponents (ih (components q).length ?_ q hq rfl)
      rw [← hcount, hcomponents, List.length_append]
      exact Nat.lt_succ_self _

/-! ## Directories above a path -/

/-- The directories above a path and the path itself: what is left when the last component is taken
    away any number of times. -/
inductive Above : String → String → Prop where
  | self (p : String) : Above p p
  | up {p q dir : String} (hparent : parent? p = some q) (h : Above q dir) : Above p dir

/-- A directory above a path has the first components of it. -/
theorem Above.components_isPrefix {p dir : String} (h : Above p dir) (hp : isAbsolute p = true) :
    isAbsolute dir = true ∧ components dir <+: components p := by
  induction h with
  | self => exact ⟨hp, List.prefix_refl _⟩
  | up hparent _ ih =>
    obtain ⟨hq, c, hcomponents⟩ := isAbsolute_of_parent? hp hparent
    obtain ⟨hdir, hprefix⟩ := ih hq
    exact ⟨hdir, hcomponents ▸ hprefix.trans (List.prefix_append _ _)⟩

/-- Above a path without a parent there is only the path. -/
theorem Above.eq_of_parent?_eq_none {p dir : String} (h : Above p dir) (hnone : parent? p = none) :
    dir = p := by
  cases h with
  | self => rfl
  | up hparent =>
    rw [hnone] at hparent
    cases hparent

/-- What is above a path is the path or above its parent. -/
theorem Above.eq_or_of_parent?_eq_some {p q dir : String} (h : Above p dir)
    (hsome : parent? p = some q) : dir = p ∨ Above q dir := by
  cases h with
  | self => exact .inl rfl
  | up hparent h =>
    obtain rfl := Option.some.inj (hsome.symm.trans hparent)
    exact .inr h

/-- Whatever components are left of a path, one directory above it has exactly these. -/
theorem existsUnique_above {p : String} (hp : isAbsolute p = true) {front : List Component}
    (hne : front ≠ []) (hfront : front <+: components p) :
    ∃! dir, Above p dir ∧ components dir = front := by
  induction p, hp using absolute_induction with
  | top p hp hnone hroot =>
    -- The components of the root are one, so there is nothing to leave out.
    have hwhole : front = [.root] := by
      rw [hroot] at hfront
      obtain ⟨rest, hrest⟩ := hfront
      cases front with
      | nil => exact absurd rfl hne
      | cons c front =>
        obtain ⟨rfl, hnil⟩ := List.cons.inj hrest
        rw [(List.append_eq_nil_iff.mp hnil).1]
    exact ⟨p, ⟨.self p, by rw [hroot, hwhole]⟩, fun dir hdir => hdir.1.eq_of_parent?_eq_none hnone⟩
  | up p hp q hq c hsome hcomponents ih =>
    -- Directories above the parent have fewer components than the path.
    have hlonger : ∀ dir, Above q dir → components dir ≠ components p := by
      intro dir hdir heq
      have hlength := (hdir.components_isPrefix hq).2.length_le
      rw [heq, hcomponents, List.length_append, List.length_singleton] at hlength
      omega
    rw [hcomponents, List.prefix_concat_iff] at hfront
    obtain hwhole | hfront := hfront
    · rw [← hcomponents] at hwhole
      refine ⟨p, ⟨.self p, hwhole.symm⟩, fun dir hdir => ?_⟩
      obtain rfl | habove := hdir.1.eq_or_of_parent?_eq_some hsome
      · rfl
      · exact absurd (hdir.2.trans hwhole) (hlonger dir habove)
    · obtain ⟨dir, ⟨habove, hdir⟩, honly⟩ := ih hfront
      refine ⟨dir, ⟨.up hsome habove, hdir⟩, fun other hother => ?_⟩
      obtain rfl | hbelow := hother.1.eq_or_of_parent?_eq_some hsome
      · exact absurd (hdir.trans hother.2.symm) (hlonger dir habove)
      · exact honly other ⟨hbelow, hother.2⟩

end Path

/-! ## The search -/

/-- Whether a directory has a configuration file, which has to be a regular file. -/
def Machine.hasSettings (m : Machine) (dir : String) : Bool :=
  m.isFile (Path.join dir configFileName)

namespace Settings

/-- The search for a configuration file that started at `start` and has come up to a directory, with
    its outcome. -/
inductive Climbs (m : Machine) (start : String) : String → Except Failure Settings → Prop where
  | here {dir : String} (hfile : m.hasSettings dir = true) :
      Climbs m start dir (load m (Path.join dir configFileName))
  | up {dir parent : String} {outcome : Except Failure Settings}
      (hfile : m.hasSettings dir = false) (hparent : Path.parent? dir = some parent)
      (h : Climbs m start parent outcome) : Climbs m start dir outcome
  | top {dir : String} (hfile : m.hasSettings dir = false) (hparent : Path.parent? dir = none) :
      Climbs m start dir (.error (.config (.nothingFound start)))

/-- The search has one outcome. -/
theorem Climbs.unique {m : Machine} {start dir : String}
    {outcome outcome' : Except Failure Settings} (h : Climbs m start dir outcome)
    (h' : Climbs m start dir outcome') : outcome = outcome' := by
  -- The same tests decide both times, so the two searches take the same step.
  induction h with
  | here hfile =>
    cases h' with
    | here => rfl
    | up hnot | top hnot =>
      rw [hfile] at hnot
      cases hnot
  | up hfile hparent _ ih =>
    cases h' with
    | here hyes =>
      rw [hfile] at hyes
      cases hyes
    | up _ hparent' h' =>
      obtain rfl := Option.some.inj (hparent.symm.trans hparent')
      exact ih h'
    | top _ hnone =>
      rw [hparent] at hnone
      cases hnone
  | top hfile hparent =>
    cases h' with
    | here hyes =>
      rw [hfile] at hyes
      cases hyes
    | up _ hsome =>
      rw [hparent] at hsome
      cases hsome
    | top => rfl

/-- What comes of the first directory that has a configuration file. -/
def outcomeOf (m : Machine) (start : String) : Option String → Except Failure Settings
  | some dir => load m (Path.join dir configFileName)
  | none => .error (.config (.nothingFound start))

/-- The search takes the first directory that has the file. -/
theorem discoverFrom_eq (m : Machine) (start : String) :
    discoverFrom m start = outcomeOf m start ((Path.ancestors start).find? m.hasSettings) := by
  have hplaces : (placesFrom start).find? m.isFile =
      ((Path.ancestors start).find? m.hasSettings).map (Path.join · configFileName) := by
    rw [placesFrom, List.find?_map]
    rfl
  rw [discoverFrom, hplaces]
  cases (Path.ancestors start).find? m.hasSettings <;> rfl

/-- The search does not need more parents than the directory has components. -/
theorem climbs_ancestorsUpTo (m : Machine) (start : String) {dir : String}
    (hdir : Path.isAbsolute dir = true) {limit : Nat}
    (hlimit : (Path.components dir).length ≤ limit + 1) :
    Climbs m start dir
      (outcomeOf m start ((Path.ancestorsUpTo limit dir).find? m.hasSettings)) := by
  induction dir, hdir using Path.absolute_induction generalizing limit with
  | top dir hdir hnone hroot =>
    -- The root has no parent, whatever the limit is.
    have hancestors : Path.ancestorsUpTo limit dir = [dir] := by
      cases limit with
      | zero => rfl
      | succ limit => rw [Path.ancestorsUpTo, hnone]
    rw [hancestors]
    cases hfile : m.hasSettings dir with
    | true =>
      rw [List.find?_cons_of_pos hfile]
      exact .here hfile
    | false =>
      rw [List.find?_cons_of_neg (by simp [hfile])]
      exact .top hfile hnone
  | up dir hdir parent hparent c hsome hcomponents ih =>
    have hpos : 0 < (Path.components parent).length := by
      rw [Path.components_of_isAbsolute hparent]
      exact Nat.succ_pos _
    rw [hcomponents, List.length_append, List.length_singleton] at hlimit
    -- A path with a parent has two components at least, so one more step is allowed.
    obtain ⟨limit, rfl⟩ : ∃ smaller, limit = smaller + 1 := ⟨limit - 1, by omega⟩
    have hancestors : Path.ancestorsUpTo (limit + 1) dir =
        dir :: Path.ancestorsUpTo limit parent := by
      rw [Path.ancestorsUpTo, hsome]
    rw [hancestors]
    cases hfile : m.hasSettings dir with
    | true =>
      rw [List.find?_cons_of_pos hfile]
      exact .here hfile
    | false =>
      rw [List.find?_cons_of_neg (by simp [hfile])]
      exact .up hfile hsome (ih (by omega))

/-- From an absolute path the search ends, and it has one outcome. -/
theorem climbs_iff (m : Machine) {start : String} (h : Path.isAbsolute start = true)
    (outcome : Except Failure Settings) :
    Climbs m start start outcome ↔ outcome = discoverFrom m start := by
  have hclimbs : Climbs m start start (discoverFrom m start) := by
    rw [discoverFrom_eq]
    exact climbs_ancestorsUpTo m start h (Path.length_components_le h)
  refine ⟨fun hother => hother.unique hclimbs, ?_⟩
  rintro rfl
  exact hclimbs

/-! ## The deepest directory -/

/-- The deepest of the directories from `start` upward that have a configuration file. -/
structure IsNearest (m : Machine) (start dir : String) : Prop where
  above : Path.Above start dir
  hasSettings : m.hasSettings dir = true
  deepest : ∀ other, Path.Above start other → m.hasSettings other = true →
    Path.components other <+: Path.components dir

/-- The search comes to the deepest directory and loads its file. -/
theorem climbs_of_isNearest {m : Machine} {start p dir : String} (hp : Path.isAbsolute p = true)
    (h : IsNearest m p dir) : Climbs m start p (load m (Path.join dir configFileName)) := by
  obtain ⟨habove, hfile, hdeepest⟩ := h
  induction habove with
  | self => exact .here hfile
  | @up p q dir hparent habove ih =>
    obtain ⟨hq, c, hcomponents⟩ := Path.isAbsolute_of_parent? hp hparent
    have hbelow : m.hasSettings p = false := by
      rw [← Bool.not_eq_true]
      intro hyes
      -- The path itself would be deeper than the deepest directory.
      have hlength := (hdeepest p (.self p) hyes).length_le
      have hprefix := (habove.components_isPrefix hq).2.length_le
      rw [hcomponents, List.length_append, List.length_singleton] at hlength
      omega
    exact .up hbelow hparent (ih hq hfile fun other hother => hdeepest other (.up hparent hother))

/-- Without a file on the way the search comes to the root and fails. -/
theorem climbs_of_forall {m : Machine} {start p : String} (hp : Path.isAbsolute p = true)
    (h : ∀ dir, Path.Above p dir → m.hasSettings dir = false) :
    Climbs m start p (.error (.config (.nothingFound start))) := by
  induction p, hp using Path.absolute_induction with
  | top p hp hnone hroot => exact .top (h p (.self p)) hnone
  | up p hp q hq c hsome hcomponents ih =>
    exact .up (h p (.self p)) hsome (ih fun dir hdir => h dir (.up hsome hdir))

/-- If any directory from a path upward has a configuration file, one of them is the deepest. -/
theorem exists_isNearest {m : Machine} {p dir : String} (hp : Path.isAbsolute p = true)
    (habove : Path.Above p dir) (hfile : m.hasSettings dir = true) :
    ∃ nearest, IsNearest m p nearest := by
  induction p, hp using Path.absolute_induction generalizing dir with
  | top p hp hnone hroot =>
    obtain rfl := habove.eq_of_parent?_eq_none hnone
    exact ⟨dir, .self dir, hfile, fun other hother _ => (hother.components_isPrefix hp).2⟩
  | up p hp q hq c hsome hcomponents ih =>
    cases hself : m.hasSettings p with
    | true => exact ⟨p, .self p, hself, fun other hother _ => (hother.components_isPrefix hp).2⟩
    | false =>
      -- Without a file here, the deepest directory is the one from the parent upward.
      have hinner : ∀ {other}, Path.Above p other → m.hasSettings other = true →
          Path.Above q other := by
        intro other hother hyes
        obtain rfl | hother := hother.eq_or_of_parent?_eq_some hsome
        · rw [hself] at hyes
          cases hyes
        · exact hother
      obtain ⟨nearest, hnearest⟩ := ih (hinner habove hfile) hfile
      exact ⟨nearest, .up hsome hnearest.above, hnearest.hasSettings,
        fun other hother hyes => hnearest.deepest other (hinner hother hyes) hyes⟩

/-! ## The file of a directory -/

/-- The path of a name in a directory has one component more than the directory. -/
theorem components_join_configFileName {dir : String} (h : Path.isAbsolute dir = true) :
    Path.components (Path.join dir configFileName) =
      Path.components dir ++ [.normal configFileName.toList] := by
  have hne : dir ≠ "" := by
    rintro rfl
    cases h
  have hname : Path.isAbsolute configFileName = false := by decide
  obtain ⟨front, hjoin, hfront⟩ := Path.exists_toList_join hne hname
  -- The name of the file is one component.
  have hlast : (configFileName.toList.splitOn '/').filterMap Path.component? =
      [.normal configFileName.toList] := by
    decide
  have habsolute := Path.isAbsolute_join_of_relative (a := dir) hname
  simp only [Path.components, habsolute, h, if_true]
  rw [Path.segments, hjoin, Path.filterMap_splitOn_slash, ← hfront, hlast, List.cons_append]

/-- The directory of that path is the directory, up to how it is written. -/
theorem exists_parent?_join {dir : String} (h : Path.isAbsolute dir = true) :
    ∃ parent, Path.parent? (Path.join dir configFileName) = some parent ∧
      Path.isAbsolute parent = true ∧ Path.normalize parent = Path.normalize dir := by
  have hcomponents := components_join_configFileName h
  have habsolute : Path.isAbsolute (Path.join dir configFileName) = true := by
    rw [Path.isAbsolute_join_of_relative (by decide), h]
  obtain ⟨-, hroot⟩ | ⟨parent, c, hparent, hrooted, hlast⟩ := Path.parent?_cases habsolute
  · -- Only the root has no parent, and the path ends in a name.
    rw [hcomponents] at hroot
    have hlength := congrArg List.length hroot
    rw [Path.components_of_isAbsolute h] at hlength
    simp at hlength
  · rw [hcomponents] at hlast
    have hsame : Path.components dir = Path.components parent := (List.append_inj' hlast rfl).1
    exact ⟨parent, hparent, hrooted, by rw [Path.normalize, Path.normalize, hsame]⟩

/-- Loading a regular file in a directory: a file that is no text or has no settings in it is
    reported, and the settings are those of the text, with the directory to count from. -/
theorem load_of_readBytes {m : Machine} {dir : String} (h : Path.isAbsolute dir = true)
    {content : ByteArray} (hread : m.readBytes (Path.join dir configFileName) = .ok content) :
    (String.fromUTF8? content = none →
        load m (Path.join dir configFileName) = .error (.reading .notText)) ∧
      ∀ text, String.fromUTF8? content = some text →
        (∀ e, parse text = .error e → load m (Path.join dir configFileName) =
          .error (.config (.unparsable (Path.join dir configFileName) e))) ∧
        ∀ settings, parse text = .ok settings → load m (Path.join dir configFileName) =
          .ok { settings with baseDir := Path.normalize dir } := by
  obtain ⟨parent, hparent, hrooted, hnormal⟩ := exists_parent?_join h
  -- The directory of the file is the one that was searched, up to how it is written.
  have hbase : Path.absolute m.workingDir ((Path.parent? (Path.join dir configFileName)).getD ".") =
      Path.normalize dir := by
    unfold Path.absolute
    rw [hparent, Option.getD_some, if_pos hrooted, hnormal]
  refine ⟨fun hnone => ?_, fun text htext => ⟨fun e he => ?_, fun settings hsettings => ?_⟩⟩
  · simp only [load, Machine.read, hread, hnone]
  · simp only [load, Machine.read, hread, htext, he]
  · simp only [load, Machine.read, hread, htext, hsettings, hbase]

/-- Loading a file may fail, but not for want of a file to load. -/
theorem load_ne_nothingFound (m : Machine) (path start : String) :
    load m path ≠ .error (.config (.nothingFound start)) := by
  unfold load
  repeat' split
  all_goals nofun

/-- The message says where the search started. -/
theorem message_nothingFound (start : String) :
    (ConfigFault.nothingFound start).message = "No stencil.toml found from " ++ start := by
  have hfront : "No " ++ configFileName ++ " found from " = "No stencil.toml found from " := by
    simp [configFileName]
  rw [← hfront]
  rfl

end Settings

/-- A regular file has bytes to read. -/
theorem Machine.exists_readBytes_of_isFile {m : Machine} {p : String} (h : m.isFile p = true) :
    ∃ content, m.readBytes p = .ok content := by
  obtain ⟨place, name, content, modified, hlookup⟩ := isFile_iff.mp h
  exact ⟨content, by rw [readBytes, hlookup]⟩

/-- The search for a configuration file from any absolute path on any machine. The directories that
    it can come to are the path and those above it: absolute paths with fewer components, one for
    each number of components, down to the root alone. It ends, with one outcome.

    If a directory is the deepest of those that have a regular file of the name, the outcome is that
    of loading this file: the settings in its text, counted from this directory, or a failure if its
    bytes are no text or the text has no settings in it. There is such a directory as soon as any
    has the file. The search fails for want of a file exactly if none has, and says where it
    started. -/
theorem discoverFrom_loads_nearest {start : String} (h : Path.isAbsolute start = true)
    (m : Machine) :
    (∀ dir, Path.Above start dir →
        Path.isAbsolute dir = true ∧ Path.components dir <+: Path.components start) ∧
      (∀ front, front ≠ [] → front <+: Path.components start →
        ∃! dir, Path.Above start dir ∧ Path.components dir = front) ∧
      (∀ outcome, Settings.Climbs m start start outcome ↔
        outcome = Settings.discoverFrom m start) ∧
      (∀ dir, Settings.IsNearest m start dir →
        Settings.discoverFrom m start = Settings.load m (Path.join dir configFileName) ∧
        ∃ content, m.readBytes (Path.join dir configFileName) = .ok content ∧
          (String.fromUTF8? content = none →
            Settings.discoverFrom m start = .error (.reading .notText)) ∧
          ∀ text, String.fromUTF8? content = some text →
            (∀ e, Settings.parse text = .error e → Settings.discoverFrom m start =
              .error (.config (.unparsable (Path.join dir configFileName) e))) ∧
            ∀ settings, Settings.parse text = .ok settings → Settings.discoverFrom m start =
              .ok { settings with baseDir := Path.normalize dir }) ∧
      ((∃ dir, Path.Above start dir ∧ m.hasSettings dir = true) →
        ∃ dir, Settings.IsNearest m start dir) ∧
      (Settings.discoverFrom m start = .error (.config (.nothingFound start)) ↔
        ∀ dir, Path.Above start dir → m.hasSettings dir = false) ∧
      (ConfigFault.nothingFound start).message = "No stencil.toml found from " ++ start := by
  have hnearest : ∀ dir, Settings.IsNearest m start dir →
      Settings.discoverFrom m start = Settings.load m (Path.join dir configFileName) :=
    fun dir hdir => ((Settings.climbs_iff m h _).mp (Settings.climbs_of_isNearest h hdir)).symm
  refine ⟨fun dir hdir => hdir.components_isPrefix h,
    fun front hne hfront => Path.existsUnique_above h hne hfront, Settings.climbs_iff m h,
    fun dir hdir => ⟨hnearest dir hdir, ?_⟩,
    fun ⟨dir, habove, hfile⟩ => Settings.exists_isNearest h habove hfile,
    ⟨?_, fun hnone => ?_⟩, Settings.message_nothingFound start⟩
  · obtain ⟨content, hread⟩ := Machine.exists_readBytes_of_isFile hdir.hasSettings
    rw [hnearest dir hdir]
    exact ⟨content, hread,
      Settings.load_of_readBytes (hdir.above.components_isPrefix h).1 hread⟩
  · intro hnothing dir habove
    rw [← Bool.not_eq_true]
    intro hfile
    -- Some file would be loaded, and loading does not end with this error.
    obtain ⟨nearest, hdir⟩ := Settings.exists_isNearest h habove hfile
    rw [hnearest nearest hdir] at hnothing
    exact Settings.load_ne_nothingFound m _ start hnothing
  · exact ((Settings.climbs_iff m h _).mp (Settings.climbs_of_forall h hnone)).symm

/-- A machine with a configuration file in a directory, one in the root, and a directory of that
    name further down. -/
def layeredMachine (content : ByteArray) : Machine :=
  { root := .file "stencil.toml" .empty ⟨0⟩ (.folder "a" ⟨0⟩
      (.file "stencil.toml" content ⟨0⟩
        (.folder "b" ⟨0⟩ (.folder "stencil.toml" ⟨0⟩ .empty .empty) .empty)) .empty) }

/-- A directory of the name does not count, and the file above it does. -/
theorem layeredMachine_isNearest (content : ByteArray) :
    Settings.IsNearest (layeredMachine content) "/a/b/." "/a" := by
  refine ⟨.up (by decide) (.self "/a"), rfl, fun other hother hfile => ?_⟩
  cases hother with
  | self => cases hfile
  | up hparent hother =>
    obtain rfl : "/a" = _ := Option.some.inj hparent
    exact (hother.components_isPrefix rfl).2

/-- The text of a configuration file with one search directory. -/
def oneDirText : String :=
  "template_dirs = [\"t\"]\n"

/-- The directory is passed over. The file above it is the nearest one, and its settings are loaded,
    to be counted from where it stands. If it is no text, it is reported, although there is a good
    one above it. -/
theorem layeredMachine_discoverFrom :
    Path.isAbsolute "/a/b/." = true ∧
      (layeredMachine .empty).lookup "/a/b/./stencil.toml" =
        .ok (.folder ⟨["a", "b", "stencil.toml"], 0⟩) ∧
      (∃! dir, Path.Above "/a/b/." dir ∧ Path.components dir = [.root]) ∧
      (layeredMachine .empty).hasSettings "/" = true ∧
      Settings.discoverFrom (layeredMachine oneDirText.toUTF8) "/a/b/." =
        .ok { templateDirs := [.numbered "t"], baseDir := "/a" } ∧
      Settings.discoverFrom (layeredMachine ⟨#[255]⟩) "/a/b/." = .error (.reading .notText) := by
  have habsolute : Path.isAbsolute "/a/b/." = true := rfl
  obtain ⟨-, habove, -, hloads, -⟩ :=
    discoverFrom_loads_nearest habsolute (layeredMachine oneDirText.toUTF8)
  obtain ⟨-, -, -, hreports, -⟩ :=
    discoverFrom_loads_nearest habsolute (layeredMachine ⟨#[255]⟩)
  obtain ⟨-, content, hread, -, htext⟩ := hloads "/a" (layeredMachine_isNearest _)
  -- The nearest file is the one in `/a`, and its bytes are known.
  obtain rfl : oneDirText.toUTF8 = content := Except.ok.inj hread
  obtain ⟨-, hsettings⟩ := htext oneDirText rfl
  obtain ⟨-, content', hread', hnone, -⟩ := hreports "/a" (layeredMachine_isNearest _)
  obtain rfl : ⟨#[255]⟩ = content' := Except.ok.inj hread'
  exact ⟨habsolute, rfl, habove [.root] (by decide) ⟨_, rfl⟩, rfl,
    hsettings { templateDirs := [.numbered "t"] } rfl, hnone rfl⟩

end TagPress
