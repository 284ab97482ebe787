import TagPress.Proofs.FoundFile

/-!
# Names relative to a template

A name that begins with one or two dots and a slash is taken from the directory of the template that
asks for it. There is one path to try, and the search directories do not count, not even if they
hold the file and the directory of the template does not. For any other name it makes no difference
which template asks.

## Key results

- `Resolver.isParentRelative_iff`: the names that are relative to a template, as texts
- `Resolver.IsDotted.locate_eq`: the one path that is tried
- `parent_relative_one_shot`: what is found for a name that a template asks for
-/

namespace TagPress

namespace Resolver

/-! ## Dotted names -/

/-- A name that begins with one or two dots and a slash or a backslash. -/
def IsDotted (name : String) : Prop :=
  ∃ dots mark rest, name = dots ++ mark ++ rest ∧ (dots = "." ∨ dots = "..") ∧
    (mark = "/" ∨ mark = "\\")

/-- The same, read off the characters. -/
theorem isDotted_of_toList {name : String} (dots mark : String) {rest : List Char}
    (h : name.toList = dots.toList ++ mark.toList ++ rest) (hdots : dots = "." ∨ dots = "..")
    (hmark : mark = "/" ∨ mark = "\\") : IsDotted name := by
  refine ⟨dots, mark, String.ofList rest, ?_, hdots, hmark⟩
  rw [← String.toList_inj, h]
  simp

/-- The test for names relative to a template, as a statement about texts. -/
theorem isParentRelative_iff {name : String} : isParentRelative name = true ↔ IsDotted name := by
  constructor
  · intro h
    -- Four patterns: one or two dots, and either separator.
    unfold isParentRelative at h
    split at h
    · rename_i rest hname
      exact isDotted_of_toList "." "/" hname (.inl rfl) (.inl rfl)
    · rename_i rest hname
      exact isDotted_of_toList "." "\\" hname (.inl rfl) (.inr rfl)
    · rename_i rest hname
      exact isDotted_of_toList ".." "/" hname (.inr rfl) (.inl rfl)
    · rename_i rest hname
      exact isDotted_of_toList ".." "\\" hname (.inr rfl) (.inr rfl)
    · cases h
  · rintro ⟨dots, mark, rest, rfl, rfl | rfl, rfl | rfl⟩
    all_goals simp [isParentRelative]

/-- A dot at the front is neither a slash nor a drive letter. -/
theorem IsDotted.isAbsoluteIdentifier_eq {name : String} (h : IsDotted name) :
    Path.isAbsoluteIdentifier name = false := by
  obtain ⟨dots, mark, rest, rfl, rfl | rfl, rfl | rfl⟩ := h
  all_goals simp [Path.isAbsoluteIdentifier]

/-! ## The one attempt -/

section Attempt

variable {record : SourceRecord} (h : IsDotted record.name) (m : Machine) (engine : Engine)
  {parent : SourceRecord}

include h

/-- For such a name only the directory of the template counts. -/
theorem IsDotted.candidates_eq (workingDir : Option String) :
    candidates engine workingDir record (some parent) = parentCandidates parent record.name := by
  simp only [candidates, h.isAbsoluteIdentifier_eq, isParentRelative_iff.mpr h, Bool.false_eq_true,
    if_false, if_true]

/-- A template that is no file cannot be asked from. -/
theorem IsDotted.locate_of_not_fileBacked (hparent : parent.kind.isFileBacked = false) :
    locate m engine record (some parent) =
      .error (.incompatibleParent record.name parent.kind.name) := by
  simp [locate, h.candidates_eq, parentCandidates, hparent]

/-- There is one path to try, if the template has a directory. -/
theorem IsDotted.locate_eq (hparent : parent.kind.isFileBacked = true) :
    locate m engine record (some parent) =
      .ok (parent.directory?.bind fun dir =>
        if m.isFile (Path.normalize (Path.join dir (Path.unify record.name))) then
          some (Path.normalize (Path.join dir (Path.unify record.name))) else none) := by
  simp only [locate, h.candidates_eq, parentCandidates, hparent, Bool.not_true, Bool.false_eq_true,
    if_false]
  -- A template that was not found has no directory.
  cases parent.directory? with
  | none => rfl
  | some dir => simp only [Candidate.find?_same, Option.bind_some]

/-- If the file is there, it is found, whatever the search directories are. -/
theorem IsDotted.populate_found (hgate : engine.gate = none)
    (hkind : record.kind.isFileBacked = true) (hparent : parent.kind.isFileBacked = true)
    {dir path : String} (hdir : parent.directory? = some dir)
    (hpath : path = Path.normalize (Path.join dir (Path.unify record.name)))
    (hfile : m.isFile path = true) :
    ∃ modified, m.modified? path = some modified ∧
      populate m engine record (some parent) =
        .ok (record.markFound path (identity engine record.sort path) modified.seconds) := by
  have hlocate : locate m engine record (some parent) = .ok (some path) := by
    rw [h.locate_eq m engine hparent, hdir, Option.bind_some, ← hpath, if_pos hfile]
  exact exists_populate_of_isFile hgate hkind hlocate hfile

/-- If the file is not there, or the template has no directory, nothing else is tried. -/
theorem IsDotted.populate_missing (hkind : record.kind.isFileBacked = true)
    (hparent : parent.kind.isFileBacked = true)
    (hnone : ∀ dir, parent.directory? = some dir →
      m.isFile (Path.normalize (Path.join dir (Path.unify record.name))) = false) :
    populate m engine record (some parent) = .ok record.markMissing := by
  refine populate_of_locate_none hkind ?_
  rw [h.locate_eq m engine hparent]
  cases hdir : parent.directory? with
  | none => rfl
  | some dir => simp [hnone dir hdir]

/-- A look-up from a template that is a file does not fail. -/
theorem IsDotted.exists_populate_eq_ok (hgate : engine.gate = none)
    (hkind : record.kind.isFileBacked = true) (hparent : parent.kind.isFileBacked = true) :
    ∃ found, populate m engine record (some parent) = .ok found := by
  -- Found or missing, neither is a failure.
  by_cases hfile : ∃ dir, parent.directory? = some dir ∧
      m.isFile (Path.normalize (Path.join dir (Path.unify record.name))) = true
  · obtain ⟨dir, hdir, hfile⟩ := hfile
    obtain ⟨modified, -, hfound⟩ := h.populate_found m engine hgate hkind hparent hdir rfl hfile
    exact ⟨_, hfound⟩
  · refine ⟨_, h.populate_missing m engine hkind hparent fun dir hdir => ?_⟩
    rw [← Bool.not_eq_true]
    exact fun hthere => hfile ⟨dir, hdir, hthere⟩

end Attempt

/-- For any other name it does not matter which template asks. -/
theorem candidates_of_not_isDotted {record : SourceRecord} (h : ¬ IsDotted record.name)
    (engine : Engine) (workingDir : Option String) (parent : SourceRecord) :
    candidates engine workingDir record (some parent) =
      candidates engine workingDir record none := by
  have hrelative : isParentRelative record.name = false := by
    rw [← Bool.not_eq_true, isParentRelative_iff]
    exact h
  simp only [candidates, hrelative, Bool.false_eq_true, if_false]

/-- Look-ups with the same candidates have the same outcome. -/
theorem populate_congr {m : Machine} {engine : Engine} {record : SourceRecord}
    {parent other : Option SourceRecord}
    (h : candidates engine m.workingDir record parent =
      candidates engine m.workingDir record other) :
    populate m engine record parent = populate m engine record other := by
  simp only [populate, lookUp, locate, h]

end Resolver

/-- What a template asks for, on any machine, with an engine without a gate and for a source that
    lives on the file system.

    A name that begins with one or two dots and a slash or a backslash is refused exactly if the
    template is no file. Otherwise it is found at the canonical path from the directory of the
    template, if that is a regular file, and at no other path, whatever the search directories are.

    For any other name the outcome is the same as without a template that asks. -/
theorem parent_relative_one_shot (m : Machine) {engine : Engine} (hgate : engine.gate = none)
    {record : SourceRecord} (hkind : record.kind.isFileBacked = true) (parent : SourceRecord) :
    (Resolver.IsDotted record.name →
      (∀ e, Resolver.populate m engine record (some parent) = .error e ↔
        parent.kind.isFileBacked = false ∧
          e = .incompatibleParent record.name parent.kind.name) ∧
      (parent.kind.isFileBacked = true →
        (∀ filepath dir path, parent.filepath = some filepath → Path.parent? filepath = some dir →
          path = Path.normalize (Path.join dir (Path.unify record.name)) → m.isFile path = true →
          ∃ modified, m.modified? path = some modified ∧
            Resolver.populate m engine record (some parent) =
              .ok (record.markFound path (Resolver.identity engine record.sort path)
                modified.seconds)) ∧
        ((∀ filepath dir, parent.filepath = some filepath → Path.parent? filepath = some dir →
            m.isFile (Path.normalize (Path.join dir (Path.unify record.name))) = false) →
          Resolver.populate m engine record (some parent) = .ok record.markMissing))) ∧
    (¬ Resolver.IsDotted record.name →
      Resolver.populate m engine record (some parent) =
        Resolver.populate m engine record none) := by
  refine ⟨fun hdotted => ⟨fun e => ?_, fun hparent => ⟨?_, fun hnone => ?_⟩⟩, fun hother => ?_⟩
  · cases hparent : parent.kind.isFileBacked with
    | false =>
      rw [Resolver.populate_of_locate_error hkind
        (hdotted.locate_of_not_fileBacked m engine hparent), Except.error.injEq]
      exact ⟨fun he => ⟨rfl, he.symm⟩, fun he => he.2.symm⟩
    | true =>
      obtain ⟨found, hfound⟩ := hdotted.exists_populate_eq_ok m engine hgate hkind hparent
      rw [hfound]
      simp
  · intro filepath dir path hfilepath hdir hpath hfile
    have hdirectory : parent.directory? = some dir := by
      rw [SourceRecord.directory?, hfilepath, Option.bind_some, hdir]
    exact hdotted.populate_found m engine hgate hkind hparent hdirectory hpath hfile
  · refine hdotted.populate_missing m engine hkind hparent fun dir hdirectory => ?_
    obtain ⟨filepath, hfilepath, hdir⟩ := Option.bind_eq_some_iff.mp hdirectory
    exact hnone filepath dir hfilepath hdir
  · exact Resolver.populate_congr (Resolver.candidates_of_not_isDotted hother engine _ parent)

/-- A search directory with a template and, one level down, a page. -/
def pagesMachine : Machine :=
  { root := .folder "srv" ⟨0⟩ (.folder "pages" ⟨0⟩ (.file "home.tpl" .empty ⟨0⟩ .empty)
      (.file "part.tpl" .empty ⟨7000000000⟩ .empty)) .empty }

/-- An engine without a gate that looks for templates in that directory. -/
def pagesEngine : Engine :=
  { templateDirs := ({} : SearchDirs).push none "/srv" }

/-- The page, as it is recorded when it was found. -/
def homePage : SourceRecord :=
  { name := "pages/home.tpl", filepath := some "/srv/pages/home.tpl", present := true }

/-- The page finds the template one level up. It does not find it in its own directory, although the
    same name is found in the search directory if no template asks. From a template given as text
    the name is refused. And a name without dots is found as if no template asked. -/
theorem homePage_requests :
    pagesEngine.gate = none ∧ ResourceKind.file.isFileBacked = true ∧
    (∃ found, Resolver.populate pagesMachine pagesEngine { name := "..\\part.tpl" } homePage =
      .ok found ∧ found.filepath = some "/srv/part.tpl" ∧ found.timestamp = some 7) ∧
    (∃ found, Resolver.populate pagesMachine pagesEngine { name := "./part.tpl" } none =
      .ok found ∧ found.filepath = some "/srv/part.tpl") ∧
    (∃ missing, Resolver.populate pagesMachine pagesEngine { name := "./part.tpl" } homePage =
      .ok missing ∧ missing.present = false) ∧
    Resolver.populate pagesMachine pagesEngine { name := "./part.tpl" }
        (some { name := "x", kind := .string }) =
      .error (.incompatibleParent "./part.tpl" "string") ∧
    Resolver.populate pagesMachine pagesEngine { name := "part.tpl" } homePage =
      Resolver.populate pagesMachine pagesEngine { name := "part.tpl" } none := by
  have hup : Resolver.IsDotted "..\\part.tpl" := Resolver.isParentRelative_iff.mp (by decide)
  have hhere : Resolver.IsDotted "./part.tpl" := Resolver.isParentRelative_iff.mp (by decide)
  have hplain : ¬ Resolver.IsDotted "part.tpl" := by
    rw [← Resolver.isParentRelative_iff]
    decide
  have hasked := fun (record parent : SourceRecord) (hkind : record.kind.isFileBacked = true) =>
    @parent_relative_one_shot pagesMachine pagesEngine rfl record hkind parent
  refine ⟨rfl, rfl, ?_, ⟨_, rfl, rfl⟩, ?_, ?_, ?_⟩
  · obtain ⟨hdotted, -⟩ := hasked { name := "..\\part.tpl" } homePage rfl
    obtain ⟨-, hfile⟩ := hdotted hup
    obtain ⟨hfound, -⟩ := hfile rfl
    obtain ⟨modified, htime, hpopulate⟩ :=
      hfound "/srv/pages/home.tpl" "/srv/pages" "/srv/part.tpl" rfl rfl rfl rfl
    -- Looking the path up gives the time of the file.
    cases htime
    exact ⟨_, hpopulate, rfl, rfl⟩
  · obtain ⟨hdotted, -⟩ := hasked { name := "./part.tpl" } homePage rfl
    obtain ⟨-, hfile⟩ := hdotted hhere
    obtain ⟨-, hmissing⟩ := hfile rfl
    refine ⟨_, hmissing fun filepath dir hfilepath hdir => ?_, rfl⟩
    -- The template is recorded at one path, and that has one directory.
    cases hfilepath
    cases hdir
    rfl
  · obtain ⟨hdotted, -⟩ := hasked { name := "./part.tpl" } { name := "x", kind := .string } rfl
    obtain ⟨herror, -⟩ := hdotted hhere
    exact (herror _).mpr ⟨rfl, rfl⟩
  · obtain ⟨-, hother⟩ := hasked { name := "part.tpl" } homePage rfl
    exact hother hplain

end TagPress
