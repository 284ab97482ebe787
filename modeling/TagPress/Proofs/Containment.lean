import TagPress.Proofs.RecordLife
import TagPress.Proofs.Walks

/-!
# Containment

A policy trusts directories, and a path is trusted if the components of such a directory stand at
its front. That keeps sources inside only if the rest of the path cannot climb out again. The path
that is recorded for a source is canonical, except for one that was found in a search directory and
has no dot before a slash. Such a path could still end in `..`, but then it leads to a directory and
not to a file. Links are another matter: a path that stays inside may lead through one.

## Key results

- `Machine.last_segment_of_isFile`: a path to a regular file does not end in `.` or `..`
- `Resolver.exists_candidate_of_locate`: what is known of a path that is recorded
- `Resolver.plain_of_locate`: an absolute path that is recorded has no dots to follow
- `populate_contained`: every source that is found lies below a trusted directory
-/

namespace TagPress

/-! ## Paths that end in dots -/

namespace Folder

/-- The last name is `.` or `..`. -/
def EndsInDots (names : List String) : Prop :=
  names.getLast? = some "." ∨ names.getLast? = some ".."

/-- Names in front do not change how a path ends. -/
theorem EndsInDots.append {rest : List String} (h : EndsInDots rest) (front : List String) :
    EndsInDots (front ++ rest) := by
  unfold EndsInDots
  rw [List.getLast?_append]
  obtain h | h := h
  · exact .inl (by rw [h]; rfl)
  · exact .inr (by rw [h]; rfl)

/-- Nothing but a directory can be at the end, also behind a link. -/
def LeadsToNoFile : Reach → Prop
  | .file .. => False
  | .special .. => False
  | .link _ _ rest => EndsInDots rest
  | .folder _ => True
  | .failed _ => True

/-- A walk over names that end in dots cannot end at a file. -/
theorem EndsInDots.advance {names : List String} (h : EndsInDots names) (root : Folder)
    (place : Place) : LeadsToNoFile (root.advance place names) := by
  -- The walk is cut before the last name.
  obtain ⟨front, last, rfl, hlast⟩ : ∃ front last, names = front ++ [last] ∧
      (last = "." ∨ last = "..") := by
    obtain h | h := h
    · obtain ⟨front, hfront⟩ := List.getLast?_eq_some_iff.mp h
      exact ⟨front, _, hfront, .inl rfl⟩
    · obtain ⟨front, hfront⟩ := List.getLast?_eq_some_iff.mp h
      exact ⟨front, _, hfront, .inr rfl⟩
  -- Dots can only follow a directory, and lead from there to a directory.
  rw [advance_append]
  cases root.advance place front with
  | file | special | failed => trivial
  | folder inner =>
    obtain rfl | rfl := hlast
    · trivial
    · trivial
  | link inner target rest =>
    refine EndsInDots.append ?_ rest
    obtain rfl | rfl := hlast
    · exact .inl rfl
    · exact .inr rfl

/-- Nor can it if links are followed. -/
theorem EndsInDots.follow {names : List String} (h : EndsInDots names) (root : Folder)
    (links : Nat) (place inner : Place) (name : String) (content : ByteArray)
    (modified : Instant) :
    root.follow links place names ≠ .ok (.file inner name content modified) := by
  -- By induction on the links that may still be followed; a link puts its target in front.
  induction links generalizing place names with
  | zero =>
    have hreach := h.advance root place
    rw [Folder.follow]
    generalize root.advance place names = reach at hreach ⊢
    cases reach with
    | file | special => exact hreach.elim
    | folder => simp
    | link => simp
    | failed => simp
  | succ links ih =>
    have hreach := h.advance root place
    rw [Folder.follow]
    generalize root.advance place names = reach at hreach ⊢
    cases reach with
    | file | special => exact hreach.elim
    | folder => simp
    | link place target rest =>
      -- What the link adds stands in front of the names that end in dots.
      exact ih (hreach.append (steps target)) _
    | failed => simp

/-- The names that a path asks for end in dots if the path does. -/
theorem endsInDots_steps {p : String} {segment : List Char}
    (hlast : (Path.segments p).getLast? = some segment)
    (hdots : segment = ['.'] ∨ segment = ['.', '.']) : EndsInDots (steps p) := by
  unfold steps
  -- A slash at the end adds a dot, which comes last then.
  split
  · exact EndsInDots.append (.inl rfl) _
  · obtain ⟨front, hfront⟩ := List.getLast?_eq_some_iff.mp hlast
    rw [List.append_nil, hfront, List.filter_append, List.map_append]
    refine EndsInDots.append ?_ _
    obtain rfl | rfl := hdots
    · exact .inl rfl
    · exact .inr rfl

end Folder

/-- So the names of a path to a file do not end in dots. -/
theorem Machine.not_endsInDots_of_isFile {m : Machine} {p : String} (h : m.isFile p = true) :
    ¬ Folder.EndsInDots (Folder.steps p) := by
  intro hsteps
  obtain ⟨place, name, content, modified, hlookup⟩ := isFile_iff.mp h
  obtain ⟨-, hfollow⟩ := lookup_eq_ok_iff.mp hlookup
  exact hsteps.follow m.root Folder.maxLinks (m.startOf p) place name content modified hfollow

/-- A path to a regular file does not end in `.` or `..`. -/
theorem Machine.last_segment_of_isFile {m : Machine} {p : String} (h : m.isFile p = true)
    {segment : List Char} (hlast : (Path.segments p).getLast? = some segment) :
    segment ≠ ['.'] ∧ segment ≠ ['.', '.'] := by
  rw [← not_or]
  intro hdots
  exact not_endsInDots_of_isFile h (Folder.endsInDots_steps hlast hdots)

/-! ## Recorded paths -/

/-- What is recorded for a candidate is canonical, or it is the path that is tried and has no dot
    before a slash. -/
def Candidate.Tidy (c : Candidate) : Prop :=
  (∃ p, c.stored = Path.normalize p) ∨ (c.stored = c.probe ∧ Path.hasDotSlash c.stored = false)

namespace Resolver

/-- A candidate that is tried at a canonical path is tidy. -/
theorem tidy_same_normalize (p : String) : (Candidate.same (Path.normalize p)).Tidy :=
  .inl ⟨p, rfl⟩

/-- A candidate in a search directory is tidy. -/
theorem tidy_candidateIn (file dir : String) : (candidateIn file dir).Tidy := by
  unfold candidateIn
  cases hdot : Path.hasDotSlash (dir ++ file) with
  | true => exact .inl ⟨dir ++ file, by simp only [hdot, if_true]⟩
  | false => exact .inr (by simp only [hdot, Bool.false_eq_true, if_false, and_self])

section Candidates

variable {P : Candidate → Prop} (hsame : ∀ p, P (.same (Path.normalize p)))
  (hin : ∀ file dir, P (candidateIn file dir))

include hsame hin

/-- The candidates of a search are in search directories or at one absolute path. -/
theorem forall_mem_searchCandidates {dirs : SearchDirs} {workingDir : Option String}
    {name : String} {c : Candidate} (h : c ∈ searchCandidates dirs workingDir name) : P c := by
  -- Candidates in directories, by number, by name or listed in brackets, have one form.
  have hdirs : ∀ file paths, c ∈ List.map (candidateIn file) paths → P c := by
    intro file paths hmem
    obtain ⟨dir, -, rfl⟩ := List.mem_map.mp hmem
    exact hin file dir
  simp only [searchCandidates] at h
  split at h
  · exact hdirs _ _ h
  · obtain h | h := List.mem_append.mp h
    · exact hdirs _ _ h
    · rw [List.mem_singleton.mp h]
      unfold Path.absolute
      repeat' split
      all_goals exact hsame _

/-- All four rules for names give canonical paths or paths in search directories. -/
theorem forall_mem_candidates {engine : Engine} {workingDir : Option String}
    {record : SourceRecord} {parent : Option SourceRecord} {paths : List Candidate}
    (h : candidates engine workingDir record parent = .ok paths) {c : Candidate} (hc : c ∈ paths) :
    P c := by
  -- In order: names that stand for themselves, names from a template, and searches.
  unfold candidates at h
  split at h
  · cases h
    rw [List.mem_singleton.mp hc]
    exact hsame _
  · split at h
    · split at h
      · unfold parentCandidates at h
        split at h
        · cases h
        · split at h
          · cases h
            rw [List.mem_singleton.mp hc]
            exact hsame _
          · cases h
            cases hc
      · cases h
        exact forall_mem_searchCandidates hsame hin hc
    · cases h
      exact forall_mem_searchCandidates hsame hin hc

/-- The path that is recorded for a source is the one of a candidate that leads to a file. -/
theorem exists_candidate_of_locate {m : Machine} {engine : Engine} {record : SourceRecord}
    {parent : Option SourceRecord} {filepath : String}
    (h : locate m engine record parent = .ok (some filepath)) :
    ∃ c : Candidate, c.stored = filepath ∧ m.isFile c.probe = true ∧ P c := by
  unfold locate at h
  split at h
  · cases h
  · rename_i paths hpaths
    -- What is located is what the first candidate that leads to a file records.
    obtain ⟨c, hfind, hstored⟩ := Option.map_eq_some_iff.mp (Except.ok.inj h)
    have hfile : m.isFile c.probe = true :=
      List.find?_some (p := fun c : Candidate => m.isFile c.probe) hfind
    have hmem : c ∈ paths := List.mem_of_find?_eq_some hfind
    exact ⟨c, hstored, hfile, forall_mem_candidates hsame hin hpaths hmem⟩

end Candidates

/-- The path that is recorded for a source is the one of a tidy candidate. -/
theorem exists_tidy_of_locate {m : Machine} {engine : Engine} {record : SourceRecord}
    {parent : Option SourceRecord} {filepath : String}
    (h : locate m engine record parent = .ok (some filepath)) :
    ∃ c : Candidate, c.stored = filepath ∧ m.isFile c.probe = true ∧ c.Tidy :=
  exists_candidate_of_locate tidy_same_normalize tidy_candidateIn h

/-- The path that is recorded for a source has no dots to follow if it is absolute. -/
theorem plain_of_locate {m : Machine} {engine : Engine} {record : SourceRecord}
    {parent : Option SourceRecord} {filepath : String}
    (h : locate m engine record parent = .ok (some filepath))
    (habsolute : Path.isAbsolute filepath = true) : Path.Plain filepath := by
  obtain ⟨c, rfl, hfile, ⟨p, hp⟩ | ⟨hprobe, hdot⟩⟩ := exists_tidy_of_locate h
  · rw [hp] at habsolute ⊢
    exact Path.plain_normalize habsolute
  · -- A path that is recorded as it was tried could only end in dots, and it leads to a file.
    rw [← hprobe] at hfile
    exact Path.plain_of_hasDotSlash hdot fun segment => Machine.last_segment_of_isFile hfile

end Resolver

/-! ## Trusted directories -/

/-- A policy that lets a path pass trusts a directory above it. -/
theorem Policy.exists_of_checkPath {policy : Policy} {path : String} {sort : ResourceClass}
    (h : policy.checkPath path sort = .ok ()) :
    ∃ dir ∈ policy.trustedDirs sort, Path.components dir <+: Path.components path := by
  unfold Policy.checkPath at h
  split at h
  · rename_i htrusts
    obtain ⟨dir, hdir, hstarts⟩ := List.any_eq_true.mp htrusts
    exact ⟨dir, hdir, List.isPrefixOf_iff_prefix.mp hstarts⟩
  · cases h

/-- What lies below an absolute directory is absolute. -/
theorem Path.isAbsolute_of_components_isPrefix {dir path : String}
    (h : Path.components dir <+: Path.components path) (hdir : Path.isAbsolute dir = true) :
    Path.isAbsolute path = true :=
  Path.root_mem_components_iff.mp (h.subset (Path.root_mem_components_iff.mpr hdir))

/-- A look-up that does not fail and finds the source has located it and checked its path. -/
theorem Resolver.exists_of_populate {m : Machine} {engine : Engine} {record found : SourceRecord}
    {parent : Option SourceRecord} (h : populate m engine record parent = .ok found)
    (hpresent : found.present = true) :
    ∃ filepath, found.filepath = some filepath ∧
      locate m engine record parent = .ok (some filepath) ∧
      checkTrust engine filepath record.sort = .ok () := by
  obtain ⟨filepath, modified, hlocate, htrust, -, rfl⟩ := exists_markFound_of_populate h hpresent
  exact ⟨filepath, rfl, hlocate, htrust⟩

/-- With a policy whose directories are absolute, every source that is found lies below one of the
    directories that are trusted for its class, on every machine and for every name and requesting
    template: the components of the directory stand at the front of the path, and no segment of the
    path is `.` or `..`. -/
theorem populate_contained {m : Machine} {engine : Engine} {policy : Policy}
    {record found : SourceRecord} {parent : Option SourceRecord}
    (hpolicy : engine.gate = some policy.gate)
    (habsolute : ∀ dir ∈ policy.trustedDirs record.sort, Path.isAbsolute dir = true)
    (h : Resolver.populate m engine record parent = .ok found) (hpresent : found.present = true) :
    ∃ filepath, found.filepath = some filepath ∧ Path.Plain filepath ∧
      .current ∉ Path.components filepath ∧ .parent ∉ Path.components filepath ∧
      ∃ dir ∈ policy.trustedDirs record.sort,
        Path.components dir <+: Path.components filepath := by
  obtain ⟨filepath, hfilepath, hlocate, htrust⟩ := Resolver.exists_of_populate h hpresent
  simp only [Resolver.checkTrust, hpolicy] at htrust
  obtain ⟨dir, hdir, hbelow⟩ := Policy.exists_of_checkPath htrust
  -- A path below an absolute directory is absolute, and only then is it known to be plain.
  have hrooted := Path.isAbsolute_of_components_isPrefix hbelow (habsolute dir hdir)
  have hplain := Resolver.plain_of_locate hlocate hrooted
  obtain ⟨hcurrent, hparent⟩ := hplain.not_mem_components
  exact ⟨filepath, hfilepath, hplain, hcurrent, hparent, dir, hdir, hbelow⟩

/-- Directories of templates, of configuration files and of shared files, and a file beside them. -/
def guardedMachine : Machine :=
  { root := .folder "srv" ⟨0⟩
      (.folder "tpl" ⟨0⟩ (.file "x.tpl" .empty ⟨0⟩ (.folder "sub" ⟨0⟩ .empty .empty))
        (.folder "conf" ⟨0⟩ (.file "site.conf" .empty ⟨0⟩ .empty)
          (.folder "shared" ⟨0⟩ (.file "y.tpl" .empty ⟨0⟩ .empty)
            (.file "secret.tpl" .empty ⟨0⟩ .empty)))) .empty }

/-- A policy that trusts one directory for each class and one for both. -/
def guardedPolicy : Policy :=
  { templateDirs := ["/srv/tpl"], configDirs := ["/srv/conf"], secureDirs := ["/srv/shared"] }

/-- An engine that looks in the directories of the two classes and has this policy. -/
def guardedEngine : Engine :=
  { templateDirs := ({} : SearchDirs).push none "/srv/tpl"
    configDirs := ({} : SearchDirs).push none "/srv/conf"
    gate := some guardedPolicy.gate }

/-- What a look-up on the machine finds at a path, below a directory that the policy trusts for the
    class. -/
def FoundBelow (record : SourceRecord) (filepath dir : String) : Prop :=
  ∃ found, Resolver.populate guardedMachine guardedEngine record none = .ok found ∧
    found.filepath = some filepath ∧ Path.Plain filepath ∧
    dir ∈ guardedPolicy.trustedDirs record.sort ∧ Path.components dir <+: Path.components filepath

/-- A name that goes down, up again and stays is found, a configuration file and a shared template
    too. A name that climbs out to a file is refused, and so is a configuration file that is asked
    for as a template. -/
theorem guardedEngine_contained :
    FoundBelow (.parse "sub\\..\\.\\x.tpl" .template) "/srv/tpl/x.tpl" "/srv/tpl" ∧
      FoundBelow (.parse "site.conf" .config) "/srv/conf/site.conf" "/srv/conf" ∧
      FoundBelow (.parse "/srv/shared/y.tpl" .template) "/srv/shared/y.tpl" "/srv/shared" ∧
      guardedMachine.isFile "/srv/tpl/../secret.tpl" = true ∧
      Resolver.populate guardedMachine guardedEngine (.parse "../secret.tpl" .template) none =
        .error (.untrustedDirectory "/srv") ∧
      Resolver.populate guardedMachine guardedEngine (.parse "/srv/conf/site.conf" .template) none =
        .error (.untrustedDirectory "/srv/conf") := by
  have habsolute : ∀ sort, ∀ dir ∈ guardedPolicy.trustedDirs sort, Path.isAbsolute dir = true := by
    intro sort
    cases sort <;> decide
  -- For each path there is one trusted directory that can be the one of the theorem.
  have hbelow : ∀ {record found filepath dir},
      Resolver.populate guardedMachine guardedEngine record none = .ok found →
      found.present = true → found.filepath = some filepath →
      (∀ other ∈ guardedPolicy.trustedDirs record.sort,
        Path.components other <+: Path.components filepath → other = dir) →
      FoundBelow record filepath dir := by
    intro record found filepath dir hfound hpresent hfilepath honly
    obtain ⟨recorded, hrecorded, hplain, -, -, other, hother, hprefix⟩ :=
      populate_contained rfl (habsolute record.sort) hfound hpresent
    obtain rfl : recorded = filepath := Option.some.inj (hrecorded.symm.trans hfilepath)
    obtain rfl := honly other hother hprefix
    exact ⟨found, hfound, hfilepath, hplain, hother, hprefix⟩
  refine ⟨?_, ?_, ?_, rfl, rfl, rfl⟩
  · exact hbelow rfl rfl rfl (by decide)
  · exact hbelow rfl rfl rfl (by decide)
  · exact hbelow rfl rfl rfl (by decide)

end TagPress
