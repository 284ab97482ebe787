import TagPress.Proofs.FoundFile

/-!
# Names that stand for themselves

A name that starts with a slash or a drive letter is its own and only candidate, whatever the search
directories are and whichever template asks. With a slash at the front the canonical form of the
name is an absolute path, and nothing but the file tree counts. A drive letter is a name like any
other here. So the canonical form is a relative path, which is looked up from the working directory
and recorded as it is.

## Key results

- `Machine.SeesAlike.lookup_eq`: what a look-up depends on
- `Resolver.exists_populate_absolute`: what is recorded for a name that stands for itself
- `absolute_name_in_any_context`: such names under other engines, templates and working directories
- `driveName_depends_on_place`: a drive letter leads to a file from one working directory only
-/

namespace TagPress

/-! ## What a look-up depends on -/

/-- The two machines look the path up in the same tree and from the same place. -/
structure Machine.SeesAlike (m m' : Machine) (p : String) : Prop where
  root_eq : m'.root = m.root
  place_eq : Path.isAbsolute p = true ∨ m'.workingPlace = m.workingPlace

namespace Machine.SeesAlike

variable {m m' : Machine} {p : String} (h : m.SeesAlike m' p)

include h

/-- Such machines give the same answer. -/
theorem lookup_eq : m'.lookup p = m.lookup p := by
  -- The working directory only counts for a path that does not start at the root.
  have hstart : m'.startOf p = m.startOf p := by
    unfold startOf
    obtain habsolute | hplace := h.place_eq
    · rw [if_pos habsolute, if_pos habsolute]
    · rw [hplace]
  rw [startOf, startOf] at hstart
  simp only [lookup, h.root_eq, hstart]

/-- So they agree on whether the path leads to a file. -/
theorem isFile_eq : m'.isFile p = m.isFile p := by
  simp only [isFile, h.lookup_eq]

/-- A file keeps its own time, so it does not depend on the machine. -/
theorem modified?_eq (hfile : m.isFile p = true) : m'.modified? p = m.modified? p := by
  -- A directory could be the root, which has the time of the machine; a file has its own.
  obtain ⟨place, name, content, modified, hlookup⟩ := isFile_iff.mp hfile
  simp only [modified?, h.lookup_eq, hlookup, modifiedOf]

end Machine.SeesAlike

/-! ## The one candidate -/

/-- The path that a name stands for by itself. -/
def Path.direct (name : String) : String :=
  normalize (unify name)

/-- Taking out the detours does not change whether a name starts with a slash. -/
theorem Path.isAbsolute_direct (name : String) :
    isAbsolute (direct name) = isAbsolute (unify name) := by
  rw [direct, isAbsolute_normalize]

namespace Resolver

variable {record : SourceRecord} (hname : Path.isAbsoluteIdentifier record.name = true)
  (m : Machine)

include hname

/-- A name that stands for itself is located at its path or nowhere. -/
theorem locate_absolute (engine : Engine) (parent : Option SourceRecord) :
    locate m engine record parent =
      .ok (if m.isFile (Path.direct record.name) then some (Path.direct record.name)
        else none) := by
  have hcandidates : candidates engine m.workingDir record parent =
      .ok [.same (Path.direct record.name)] := if_pos hname
  simp only [locate, hcandidates, Candidate.find?_same]

/-- Without a gate, a name that stands for itself is found exactly if its path leads to a regular
    file, and then at that path and with the time of that file. -/
theorem exists_populate_absolute {engine : Engine} (hgate : engine.gate = none)
    (hkind : record.kind.isFileBacked = true) (parent : Option SourceRecord) :
    ∃ found, populate m engine record parent = .ok found ∧
      found.present = m.isFile (Path.direct record.name) ∧
      found.filepath =
        (if m.isFile (Path.direct record.name) then some (Path.direct record.name) else none) ∧
      found.timestamp =
        (if m.isFile (Path.direct record.name) then
          (m.modified? (Path.direct record.name)).map Instant.seconds else none) := by
  have hlocate := locate_absolute hname m engine parent
  -- All three facts are decided by the one question.
  by_cases hfile : m.isFile (Path.direct record.name) = true
  · rw [if_pos hfile] at hlocate
    obtain ⟨modified, hmodified, hpopulate⟩ :=
      exists_populate_of_isFile hgate hkind hlocate hfile
    refine ⟨_, hpopulate, hfile.symm, ?_, ?_⟩
    · rw [if_pos hfile]
      rfl
    · rw [if_pos hfile, hmodified]
      rfl
  · rw [if_neg hfile] at hlocate
    refine ⟨_, populate_of_locate_none hkind hlocate, ?_, ?_, ?_⟩
    · rw [Bool.not_eq_true] at hfile
      exact hfile.symm
    · rw [if_neg hfile]
      rfl
    · rw [if_neg hfile]
      rfl

end Resolver

/-- A name that starts with a slash or a drive letter, looked up twice: on machines with the same
    file tree, by engines without a gate and for any requesting templates.

    Neither look-up fails. If the name, with slashes in place of its backslashes, starts with a
    slash, or if the working directories are the same, both find the source or both do not, at the
    same path and with the same time. The path is in canonical form, and it is absolute exactly if
    the name starts with a slash in this sense. And the source is found exactly if the path that the
    name stands for leads to a regular file. -/
theorem absolute_name_in_any_context {m m' : Machine} (hroot : m'.root = m.root)
    {engine engine' : Engine} (hgate : engine.gate = none) (hgate' : engine'.gate = none)
    {record : SourceRecord} (hkind : record.kind.isFileBacked = true)
    (hname : Path.isAbsoluteIdentifier record.name = true) (parent parent' : Option SourceRecord) :
    ∃ found found', Resolver.populate m engine record parent = .ok found ∧
      Resolver.populate m' engine' record parent' = .ok found' ∧
      (Path.isAbsolute (Path.unify record.name) = true ∨ m'.workingPlace = m.workingPlace →
        found'.present = found.present ∧ found'.filepath = found.filepath ∧
          found'.timestamp = found.timestamp) ∧
      (∀ filepath, found.filepath = some filepath →
        Path.normalize filepath = filepath ∧
          Path.isAbsolute filepath = Path.isAbsolute (Path.unify record.name)) ∧
      (found.present = true ↔ m.isFile (Path.direct record.name) = true) := by
  obtain ⟨found, hpopulate, hpresent, hpath, htime⟩ :=
    Resolver.exists_populate_absolute hname m hgate hkind parent
  obtain ⟨found', hpopulate', hpresent', hpath', htime'⟩ :=
    Resolver.exists_populate_absolute hname m' hgate' hkind parent'
  refine ⟨found, found', hpopulate, hpopulate', fun hplace => ?_, fun filepath hfilepath => ?_, ?_⟩
  · -- From the root, or from the same working directory, the path is looked up alike.
    have halike : m.SeesAlike m' (Path.direct record.name) :=
      ⟨hroot, by rwa [Path.isAbsolute_direct]⟩
    rw [hpresent', hpath', htime', halike.isFile_eq]
    refine ⟨hpresent.symm, hpath.symm, htime.symm ▸ ?_⟩
    by_cases hfile : m.isFile (Path.direct record.name) = true
    · rw [halike.modified?_eq hfile]
    · rw [if_neg hfile, if_neg hfile]
  · -- Only the one candidate can have been recorded.
    rw [hpath] at hfilepath
    obtain ⟨-, hsome⟩ := Option.ite_none_right_eq_some.mp hfilepath
    obtain rfl : Path.direct record.name = filepath := Option.some.inj hsome
    exact ⟨Path.normalize_normalize _, Path.isAbsolute_direct record.name⟩
  · rw [hpresent]

/-- The one file is found under an absolute name from the root and from a directory, with other
    search directories, and whether or not a template asks. -/
theorem nestedFile_in_any_context :
    ∃ found found',
      Resolver.populate nestedFile sharedEngine { name := "/srv//sub\\../sub/x.tpl" } none =
        .ok found ∧
      Resolver.populate { nestedFile with workingPlace := ⟨["srv"], 0⟩ } {}
          { name := "/srv//sub\\../sub/x.tpl" } (some { name := "x", kind := .string }) =
        .ok found' ∧
      found'.present = true ∧ found'.filepath = found.filepath ∧
      found'.timestamp = found.timestamp ∧
      ∀ filepath, found.filepath = some filepath → Path.isAbsolute filepath = true := by
  have hname : Path.isAbsoluteIdentifier "/srv//sub\\../sub/x.tpl" = true := by decide
  have hslash : Path.isAbsolute (Path.unify "/srv//sub\\../sub/x.tpl") = true := by decide
  -- Another engine, another working directory and a requesting template of another kind.
  obtain ⟨found, found', hpopulate, hpopulate', halike, hpath, hpresent⟩ :=
    @absolute_name_in_any_context nestedFile { nestedFile with workingPlace := ⟨["srv"], 0⟩ } rfl
      sharedEngine {} rfl rfl { name := "/srv//sub\\../sub/x.tpl" } rfl hname none
      (some { name := "x", kind := .string })
  obtain ⟨hsame, hfilepath, htime⟩ := halike (.inl hslash)
  refine ⟨found, found', hpopulate, hpopulate', ?_, hfilepath, htime, fun filepath hfound => ?_⟩
  · rw [hsame]
    exact hpresent.mpr rfl
  · rw [(hpath filepath hfound).2, hslash]

/-- A machine with a directory that is named like a drive, and a file in it. -/
def driveMachine : Machine :=
  { root := .folder "C:" ⟨0⟩ (.file "x.tpl" .empty ⟨0⟩ .empty) .empty }

/-- A name with a drive letter is found from the directory above, at a path that is not absolute. It
    is not found from another working directory. -/
theorem driveName_depends_on_place :
    Path.isAbsoluteIdentifier "C:/x.tpl" = true ∧
      (∃ found, Resolver.populate driveMachine {} { name := "C:/x.tpl" } none = .ok found ∧
        found.present = true ∧ found.filepath = some "C:/x.tpl") ∧
      Path.isAbsolute "C:/x.tpl" = false ∧
      ∃ missing, Resolver.populate { driveMachine with workingPlace := ⟨["C:"], 0⟩ } {}
          { name := "C:/x.tpl" } none = .ok missing ∧ missing.present = false :=
  ⟨by decide, ⟨_, rfl, rfl, rfl⟩, by decide, _, rfl, rfl⟩

end TagPress
