import Mathlib.Data.List.Flatten
import TagPress.Proofs.PathSpelling
import TagPress.Proofs.Walks

/-!
# The file behind a recorded path

A source in a search directory is tried at one path and may be recorded under another: the canonical
form of the path that was tried. `Path.normalize` only looks at the text, and the machine walks. In
a tree without links both take the same way: when a walk comes to a `..`, the name before it was a
directory that exists, and going up leads back to where that name was looked up. So the canonical
path leads to the very file that was tried, and a source that is located is also found.

## Key results

- `Path.normalize_sublist`: a canonical form has nothing that the path does not have
- `Folder.Leads`: the directories that a trail leads through
- `Folder.Leads.trail`: the trail of a path that leads to a file
- `Machine.lookup_normalize`: a path to a file and its canonical form lead to the same file
- `Resolver.exists_file_of_locate`: a path that is recorded leads to a file
- `found_path_leads_to_file`: every found source has a file and its time
-/

namespace TagPress

/-! ## Trails and segments -/

namespace Path

/-- A segment is kept or not, and names before it may be taken away. -/
theorem Trail.follow_sublist (t : Trail) {segment : List Char} {c : Component}
    (hc : component? segment = some c) :
    (t.follow c).back.reverse.Sublist (t.back.reverse ++ [segment]) := by
  have hkept : t.back.reverse.Sublist (t.back.reverse ++ [segment]) := List.sublist_append_left _ _
  rw [component?] at hc
  split at hc
  · cases hc
  split at hc
  · rename_i hdots
    cases hc
    rw [eq_of_beq hdots] at hkept ⊢
    -- A `..` is added where there is no name to take away, and otherwise it makes the trail
    -- shorter.
    cases hback : t.back with
    | nil =>
      simp only [Trail.follow, hback]
      split
      · rw [hback]
        exact List.nil_sublist _
      · exact List.Sublist.refl _
    | cons last rest =>
      simp only [Trail.follow, hback]
      split
      · simp only [List.reverse_cons, List.Sublist.refl]
      · rw [hback, List.reverse_cons] at hkept
        rw [List.reverse_cons]
        exact (List.sublist_append_left _ _).trans hkept
  · cases hc
    simp only [Trail.follow, List.reverse_cons, List.Sublist.refl]

/-- The names on the trail of segments are among the segments. -/
theorem Trail.foldl_follow_sublist (segs : List (List Char)) (t : Trail) :
    ((segs.filterMap component?).foldl Trail.follow t).back.reverse.Sublist
      (t.back.reverse ++ segs) := by
  -- Voids are skipped; every other segment is one step of the trail.
  induction segs generalizing t with
  | nil => exact List.sublist_append_left _ _
  | cons segment segs ih =>
    cases hc : component? segment with
    | none =>
      rw [List.filterMap_cons_none hc]
      exact (ih t).trans (List.Sublist.append_left (List.sublist_cons_self _ _) _)
    | some c =>
      rw [List.filterMap_cons_some hc, List.foldl_cons]
      have hstep := (t.follow_sublist hc).append_right segs
      rw [List.append_assoc, List.singleton_append] at hstep
      exact (ih _).trans hstep

/-- Only the front of a path can say that its trail starts at the root. -/
theorem Trail.rooted_foldl_follow (segs : List (List Char)) (t : Trail) :
    ((segs.filterMap component?).foldl Trail.follow t).rooted = t.rooted := by
  induction segs generalizing t with
  | nil => rfl
  | cons segment segs ih =>
    cases hc : component? segment with
    | none => rw [List.filterMap_cons_none hc, ih]
    | some c =>
      rw [List.filterMap_cons_some hc, List.foldl_cons, ih]
      -- Segments do not stand for the root, the only component that makes a trail rooted.
      cases c with
      | root =>
        unfold component? at hc
        repeat' split at hc
        all_goals cases hc
      | current | normal => rfl
      | parent =>
        simp only [Trail.follow]
        repeat' split
        all_goals rfl

/-- A trail starts at the root if its path does. -/
theorem rooted_trail (p : String) : (trail p).rooted = isAbsolute p := by
  rw [trail_eq_foldl, Trail.rooted_foldl_follow]

/-- A path and its canonical form are both absolute or both relative. -/
theorem isAbsolute_normalize (p : String) : isAbsolute (normalize p) = isAbsolute p := by
  rw [normalize_eq_render, (Trail.canonical_trail p).isAbsolute_render, rooted_trail]

/-- The characters of a canonical form are those of the path, some of them left out. -/
theorem normalize_sublist (p : String) : (normalize p).toList.Sublist p.toList := by
  -- Segments without some of them are written with less.
  have hjoin : ∀ {segs cs}, List.Sublist segs (cs.splitOn '/') →
      (joinSegments segs).Sublist cs := by
    intro segs cs hsub
    -- Without segments there is no text; otherwise a slash behind every segment makes both sides
    -- joins.
    by_cases hsegs : segs = []
    · rw [hsegs]
      exact List.nil_sublist cs
    have hslashed := hsub.flatMap (· ++ ['/'])
    rw [← slashed, ← slashed, slashed_eq hsegs, slashed_eq (List.splitOn_ne_nil '/' cs),
      joinSegments, joinSegments, List.intercalate_splitOn] at hslashed
    exact (List.append_sublist_append_right ['/']).mp hslashed
  rw [normalize_eq_render, Trail.render, String.toList_ofList, rooted_trail]
  cases habsolute : isAbsolute p with
  | false =>
    refine hjoin ?_
    rw [trail_eq_foldl]
    exact Trail.foldl_follow_sublist (segments p) _
  | true =>
    -- The slash at the front ends an empty segment, which is on no trail.
    rw [isAbsolute, beq_iff_eq] at habsolute
    obtain ⟨cs, hcs⟩ := List.head?_eq_some_iff.mp habsolute
    have hsegments : segments p = [] :: cs.splitOn '/' := by
      rw [segments, hcs, List.splitOn_cons_eq_if_modifyHead, if_pos BEq.rfl]
    rw [if_pos rfl, hcs, List.singleton_append, List.cons_sublist_cons]
    refine hjoin ?_
    rw [trail_eq_foldl, hsegments, List.filterMap_cons_none rfl]
    exact Trail.foldl_follow_sublist (cs.splitOn '/') _

/-- Fewer characters have fewer bytes. -/
theorem utf8ByteSize_le_of_sublist {cs ds : List Char} (h : cs.Sublist ds) :
    (String.ofList cs).utf8ByteSize ≤ (String.ofList ds).utf8ByteSize := by
  -- Sizes add up character by character, since there is no induction on texts.
  have hcons : ∀ (c : Char) (rest : List Char), (String.ofList (c :: rest)).utf8ByteSize =
      (String.ofList [c]).utf8ByteSize + (String.ofList rest).utf8ByteSize := by
    intro c rest
    rw [← String.utf8ByteSize_append, ← String.ofList_append, List.singleton_append]
  induction h with
  | slnil => exact Nat.le_refl _
  | cons c _ ih =>
    rw [hcons]
    omega
  | @cons_cons cs ds c _ ih =>
    rw [hcons c cs, hcons c ds]
    omega

/-- What can be looked up can be looked up in canonical form, unless nothing is left of it. -/
theorem Usable.normalize {p : String} (h : Usable p) (hne : normalize p ≠ "") :
    Usable (normalize p) := by
  have hsub := normalize_sublist p
  have hbytes := utf8ByteSize_le_of_sublist hsub
  rw [String.ofList_toList, String.ofList_toList] at hbytes
  have hlong := h.notLong
  exact ⟨fun hnul => h.noNul (hsub.subset hnul), hne, by omega⟩

end Path

/-! ## Trails through the tree -/

namespace Folder

/-- The segments, last one first, lead from one directory to another: every name on the way stands
    for a directory. -/
inductive Leads (root : Folder) (start : Place) : List (List Char) → Place → Prop where
  | here : Leads root start [] start
  | down {back : List (List Char)} {place : Place} {name : List Char} {modified : Instant}
      {inside : Folder} (h : Leads root start back place)
      (hname : root.Holds place (String.ofList name) (.folder modified inside)) :
      Leads root start (name :: back) ⟨place.path ++ [String.ofList name], 0⟩
  | up {back : List (List Char)} {place : Place} (h : Leads root start back place) :
      Leads root start (['.', '.'] :: back) place.up

/-- A walk along a trail goes on where the trail leads. -/
theorem Leads.advance_eq {root : Folder} {start place : Place} {back : List (List Char)}
    (h : root.Leads start back place) (rest : List String) :
    root.advance start (back.reverse.map String.ofList ++ rest) = root.advance place rest := by
  -- By induction on the trail from its last segment, so what follows is generalized.
  induction h generalizing rest with
  | here => rfl
  | down _ hname ih =>
    rw [List.reverse_cons, List.map_append, List.append_assoc, ih]
    exact hname.advance_eq
  | up _ ih =>
    rw [List.reverse_cons, List.map_append, List.append_assoc, ih]
    exact advance_dots root _ rest

/-- Going up leads where the trail leads without its last name. -/
theorem Leads.follow_parent {root : Folder} {start place : Place} {t : Path.Trail}
    (h : root.Leads start t.back place) (hrooted : t.rooted = true → start = {}) :
    root.Leads start (t.follow .parent).back place.up := by
  -- At the start, `..` stays at the root or is kept; behind a name it takes the name back.
  cases hback : t.back with
  | nil =>
    rw [hback] at h
    cases h
    simp only [Path.Trail.follow, hback]
    split
    · rename_i hroot
      rw [hback, hrooted hroot]
      exact .here
    · exact .up .here
  | cons last rest =>
    simp only [Path.Trail.follow, hback]
    rw [hback] at h
    split
    · rename_i hdots
      rw [eq_of_beq hdots] at h ⊢
      exact .up h
    · rename_i hname
      cases h with
      | up => exact absurd BEq.rfl hname
      | down hrest hdown =>
        -- The directory is where its name was looked up.
        rename_i inner modified inside
        have hup : Place.up ⟨inner.path ++ [String.ofList last], 0⟩ = inner := by
          obtain ⟨path, lost⟩ := inner
          have hlost : lost = 0 := hdown.notLost
          rw [hlost]
          simp [Place.up]
        rw [hup]
        exact hrest

/-- Walking over segments to a file and following them on a trail keep together: at the end the
    trail has the name of the file on top and leads to the directory of the file. -/
theorem Leads.foldl {root : Folder} (hfree : root.isLinkFree = true) {start place inner : Place}
    {file : String} {content : ByteArray} {modified : Instant} {segs : List (List Char)}
    {t : Path.Trail} (h : root.Leads start t.back place) (hrooted : t.rooted = true → start = {})
    (hwalk : root.advance place (namesOf segs) = .file inner file content modified) :
    ∃ back, ((segs.filterMap Path.component?).foldl Path.Trail.follow t).back =
        file.toList :: back ∧
      root.Leads start back inner ∧ root.Holds inner file (.file content modified) := by
  -- The invariant is that the trail so far leads where the walk is. Links would break it at a `..`,
  -- and there are none.
  induction segs generalizing t place with
  | nil => cases hwalk
  | cons segment segs ih =>
    by_cases hempty : segment = []
    · subst hempty
      exact ih h hrooted hwalk
    have hnames : namesOf (segment :: segs) = String.ofList segment :: namesOf segs := by
      simp [namesOf, hempty]
    rw [hnames] at hwalk
    by_cases hdot : segment = ['.']
    · subst hdot
      have hstay := advance_dot root place (namesOf segs)
      exact ih h hrooted (hstay.symm.trans hwalk)
    by_cases hdots : segment = ['.', '.']
    · subst hdots
      have hup := advance_dots root place (namesOf segs)
      rw [List.filterMap_cons_some (show Path.component? ['.', '.'] = some .parent from rfl),
        List.foldl_cons]
      refine ih (h.follow_parent hrooted) (fun hroot => hrooted ?_) (hup.symm.trans hwalk)
      rw [← hroot]
      exact (Path.Trail.rooted_foldl_follow [['.', '.']] t).symm
    have hcomponent : Path.component? segment = some (.normal segment) := by
      simp [Path.component?, Path.isVoid, hempty, hdot, hdots]
    have hne : ∀ text : String, segment ≠ text.toList → String.ofList segment ≠ text := by
      intro text hsegment heq
      exact hsegment (by rw [← heq, String.toList_ofList])
    rw [List.filterMap_cons_some hcomponent, List.foldl_cons]
    obtain ⟨hlast, rfl, rfl, hfile⟩ | ⟨made, inside, hfolder, hrest⟩ :=
      advance_cons_eq_file hfree (hne "." hdot) (hne ".." hdots) hwalk
    · -- The file is the last name, so the segments behind it are all empty.
      have hnone : segs.filterMap Path.component? = [] := by
        rw [List.filterMap_eq_nil_iff]
        intro other hother
        rw [namesOf, List.map_eq_nil_iff, List.filter_eq_nil_iff] at hlast
        have hvoid : other = [] := by simpa using hlast other hother
        rw [hvoid]
        rfl
      refine ⟨t.back, ?_, h, hfile⟩
      rw [hnone, List.foldl_nil, Path.Trail.follow, String.toList_ofList]
    · exact ih (t := t.follow (.normal segment)) (.down h hfolder) hrooted hrest

/-- The trail of a path that leads to a file. -/
theorem Leads.trail {m : Machine} (hfree : m.root.isLinkFree = true) {p : String} {place : Place}
    {file : String} {content : ByteArray} {modified : Instant}
    (h : m.lookup p = .ok (.file place file content modified)) :
    ∃ back, (Path.trail p).back = file.toList :: back ∧ m.root.Leads (m.startOf p) back place ∧
      m.root.Holds place file (.file content modified) := by
  -- A path to a file has no slash at its end, so its steps are its names.
  have hlast : (Path.segments p).getLast? ≠ some [] :=
    Machine.segments_getLast?_of_isFile (Machine.isFile_iff.mpr ⟨_, _, _, _, h⟩)
  obtain ⟨-, hwalk⟩ := (Machine.lookup_eq_ok_iff_advance hfree).mp h
  rw [steps_eq_namesOf hlast] at hwalk
  rw [Path.trail_eq_foldl]
  refine Leads.foldl hfree .here (fun habsolute => ?_) hwalk
  exact if_pos habsolute

end Folder

/-- In a tree without links a path to a file and its canonical form lead to the same file. -/
theorem Machine.lookup_normalize {m : Machine} (hfree : m.root.isLinkFree = true) {p : String}
    {place : Place} {file : String} {content : ByteArray} {modified : Instant}
    (h : m.lookup p = .ok (.file place file content modified)) :
    m.lookup (Path.normalize p) = .ok (.file place file content modified) := by
  obtain ⟨back, hback, hleads, hfile⟩ := Folder.Leads.trail hfree h
  have hcanonical := Path.Trail.canonical_trail p
  have hsteps : Folder.steps (Path.normalize p) = back.reverse.map String.ofList ++ [file] := by
    rw [Path.normalize_eq_render, Folder.steps_render hcanonical (by simp [hback]), hback,
      List.reverse_cons, List.map_append, List.map_cons, List.map_nil, String.ofList_toList]
  have hstart : m.startOf (Path.normalize p) = m.startOf p := by
    rw [startOf, startOf, Path.isAbsolute_normalize]
  -- Only the empty path has no steps, and here the last step is the file.
  have husable : Path.Usable (Path.normalize p) := by
    refine ((lookup_eq_ok_iff_advance hfree).mp h).1.normalize fun hempty => ?_
    have hnone : Folder.steps (Path.normalize p) = [] := by
      rw [hempty]
      rfl
    simp [hsteps] at hnone
  refine (lookup_eq_ok_iff_advance hfree).mpr ⟨husable, ?_⟩
  rw [hsteps, hstart, hleads.advance_eq, hfile.advance_eq]
  rfl

/-! ## Recorded paths -/

/-- The time of a file that a path leads to. -/
theorem Machine.modified?_of_lookup {m : Machine} {p : String} {place : Place} {name : String}
    {content : ByteArray} {modified : Instant}
    (h : m.lookup p = .ok (.file place name content modified)) :
    m.modified? p = some modified := by
  rw [modified?, h]
  rfl

namespace Resolver

variable {m : Machine} {engine : Engine} {record : SourceRecord} {parent : Option SourceRecord}
  {filepath : String}

/-- What is recorded for a candidate is the path that is tried or its canonical form. -/
theorem stored_candidateIn (file dir : String) :
    (candidateIn file dir).stored = (candidateIn file dir).probe ∨
      (candidateIn file dir).stored = Path.normalize (candidateIn file dir).probe := by
  simp only [candidateIn]
  split
  · exact .inr rfl
  · exact .inl rfl

/-- The path that is recorded for a source leads to the file that was tried. -/
theorem exists_file_of_locate (hfree : m.root.isLinkFree = true)
    (h : locate m engine record parent = .ok (some filepath)) :
    ∃ place name content modified,
      m.lookup filepath = .ok (.file place name content modified) := by
  -- Only candidates in search directories are recorded under another path than they are tried at.
  obtain ⟨c, rfl, hfile, hstored⟩ := exists_candidate_of_locate
    (P := fun c => c.stored = c.probe ∨ c.stored = Path.normalize c.probe)
    (fun p => .inl rfl) stored_candidateIn h
  obtain ⟨place, name, content, modified, hlookup⟩ := Machine.isFile_iff.mp hfile
  refine ⟨place, name, content, modified, ?_⟩
  obtain hsame | hnormal := hstored
  · rw [hsame, hlookup]
  · rw [hnormal, Machine.lookup_normalize hfree hlookup]

/-- A source that is located, trusted and has a time is found. -/
theorem populate_of_locate {modified : Instant} (hkind : record.kind.isFileBacked = true)
    (hlocate : locate m engine record parent = .ok (some filepath))
    (htrust : checkTrust engine filepath record.sort = .ok ())
    (hmodified : m.modified? filepath = some modified) :
    populate m engine record parent = .ok
      (record.markFound filepath (identity engine record.sort filepath) modified.seconds) := by
  simp only [populate, lookUp, hkind, hlocate, htrust, hmodified, Bool.not_true,
    Bool.false_eq_true, if_false]

/-- Without a gate, a regular file that is located is found. -/
theorem exists_populate_of_isFile (hgate : engine.gate = none)
    (hkind : record.kind.isFileBacked = true)
    (hlocate : locate m engine record parent = .ok (some filepath))
    (hfile : m.isFile filepath = true) :
    ∃ modified, m.modified? filepath = some modified ∧
      populate m engine record parent = .ok
        (record.markFound filepath (identity engine record.sort filepath) modified.seconds) := by
  have htrust : checkTrust engine filepath record.sort = .ok () := by
    rw [checkTrust, hgate]
  obtain ⟨place, name, content, modified, hlookup⟩ := Machine.isFile_iff.mp hfile
  have hmodified := Machine.modified?_of_lookup hlookup
  exact ⟨modified, hmodified, populate_of_locate hkind hlocate htrust hmodified⟩

/-- A source that is not located is recorded as missing. -/
theorem populate_of_locate_none (hkind : record.kind.isFileBacked = true)
    (hlocate : locate m engine record parent = .ok none) :
    populate m engine record parent = .ok record.markMissing := by
  simp only [populate, lookUp, hkind, hlocate, Bool.not_true, Bool.false_eq_true, if_false]

/-- A look-up that cannot be placed fails. -/
theorem populate_of_locate_error {e : ResourceError} (hkind : record.kind.isFileBacked = true)
    (hlocate : locate m engine record parent = .error e) :
    populate m engine record parent = .error e := by
  simp only [populate, lookUp, hkind, hlocate, Bool.not_true, Bool.false_eq_true, if_false]

end Resolver

/-- In a tree without links, with any working directory, engine, record and requesting template: if
    a look-up finds the source, the path as it is recorded leads to a regular file of the tree, and
    the recorded time is the time of that file. And if a path is located and trusted, the look-up
    finds the source there. -/
theorem found_path_leads_to_file {m : Machine} (hfree : m.root.isLinkFree = true) (engine : Engine)
    (record : SourceRecord) (parent : Option SourceRecord) :
    (∀ found, Resolver.populate m engine record parent = .ok found → found.present = true →
      ∃ filepath place name content modified, found.filepath = some filepath ∧
        m.lookup filepath = .ok (.file place name content modified) ∧
        m.root.Holds place name (.file content modified) ∧
        found.timestamp = some modified.seconds) ∧
      ∀ filepath, record.kind.isFileBacked = true →
        Resolver.locate m engine record parent = .ok (some filepath) →
        Resolver.checkTrust engine filepath record.sort = .ok () →
        ∃ found, Resolver.populate m engine record parent = .ok found ∧ found.present = true ∧
          found.filepath = some filepath := by
  refine ⟨fun found hfound hpresent => ?_, fun filepath hkind hlocate htrust => ?_⟩
  · obtain ⟨filepath, time, hlocate, -, htime, rfl⟩ :=
      Resolver.exists_markFound_of_populate hfound hpresent
    obtain ⟨place, name, content, modified, hlookup⟩ :=
      Resolver.exists_file_of_locate hfree hlocate
    obtain ⟨-, -, -, hfile⟩ := Folder.Leads.trail hfree hlookup
    -- The time was asked of the same path as the file.
    rw [Machine.modified?_of_lookup hlookup, Option.some.injEq] at htime
    exact ⟨filepath, place, name, content, modified, rfl, hlookup, hfile, by rw [htime]; rfl⟩
  · obtain ⟨place, name, content, modified, hlookup⟩ :=
      Resolver.exists_file_of_locate hfree hlocate
    exact ⟨_, Resolver.populate_of_locate hkind hlocate htrust
      (Machine.modified?_of_lookup hlookup), rfl, rfl⟩

/-- A machine with one template, written one and a half seconds before the start of 1970. -/
def windingMachine : Machine :=
  { root := .folder "srv" ⟨0⟩ (.folder "tpl" ⟨0⟩
      (.folder "sub" ⟨0⟩ .empty (.file "x.tpl" .empty ⟨-1500000000⟩ .empty)) .empty) .empty }

/-- A name that goes down, up beyond the root and down again. -/
def windingName : SourceRecord :=
  .parse "sub/../../../../srv/./tpl/x.tpl" .template

/-- The name is found, under a path without its detours, and its time is rounded down. -/
theorem windingName_leads_to_file :
    windingMachine.root.isLinkFree = true ∧
      ∃ found place name content modified,
        Resolver.populate windingMachine guardedEngine windingName none = .ok found ∧
        found.filepath = some "/srv/tpl/x.tpl" ∧ found.timestamp = some (-2) ∧
        windingMachine.lookup "/srv/tpl/x.tpl" = .ok (.file place name content modified) ∧
        windingMachine.root.Holds place name (.file content modified) ∧
        modified = ⟨-1500000000⟩ ∧ modified.seconds = -2 := by
  have hfree : windingMachine.root.isLinkFree = true := rfl
  obtain ⟨hfile, hlocated⟩ := found_path_leads_to_file hfree guardedEngine windingName none
  obtain ⟨found, hfound, hpresent, hrecorded⟩ :=
    hlocated "/srv/tpl/x.tpl" (by decide) rfl rfl
  obtain ⟨filepath, place, name, content, modified, hpath, hlookup, hholds, htime⟩ :=
    hfile found hfound hpresent
  rw [hrecorded, Option.some.injEq] at hpath
  subst hpath
  -- Looking the path up gives the file with its place and time.
  obtain ⟨rfl, rfl, rfl, rfl⟩ : place = ⟨["srv", "tpl"], 0⟩ ∧ name = "x.tpl" ∧
      content = .empty ∧ modified = ⟨-1500000000⟩ := by
    cases hlookup
    exact ⟨rfl, rfl, rfl, rfl⟩
  exact ⟨hfree, found, _, _, _, _, hfound, hrecorded, htime, hlookup, hholds, rfl, rfl⟩

/-- Behind a link, going up leads elsewhere: the file that is tried is not the one that is recorded,
    and there may be none at the recorded path. -/
example :
    let m : Machine :=
      { root := .folder "srv" ⟨0⟩ (.folder "tpl" ⟨0⟩ (.link "deep" "/opt/deep" .empty) .empty)
          (.folder "opt" ⟨0⟩ (.folder "deep" ⟨0⟩ .empty (.file "x.tpl" .empty ⟨0⟩ .empty)) .empty) }
    Resolver.locate m guardedEngine (.parse "deep/../x.tpl" .template) none =
        .ok (some "/srv/tpl/x.tpl") ∧ m.isFile "/srv/tpl/x.tpl" = false :=
  ⟨rfl, rfl⟩

end TagPress
