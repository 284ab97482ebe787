import TagPress.Proofs.AbsoluteNames
import TagPress.Proofs.DirectorySearch
import TagPress.Proofs.ParentRelative

/-!
# Backslashes in names

A name can be written with backslashes in place of its slashes, and every rule but one takes the two
spellings for the same. The exception is a backslash at the front: with a slash there the name
stands for itself, with a backslash it is looked up in the search directories first. If none of them
holds the file, the two spellings meet again, since what is tried last is the name as an absolute
path.

## Key results

- `Path.isAbsoluteIdentifier_unify`, `Resolver.isParentRelative_unify`: the rules that the two
  spellings of a name come under
- `Resolver.candidates_unify`: the paths that are tried for the two spellings
- `Resolver.locate_of_backslash`: what is located for a name with a backslash at the front
- `backslashes_count_as_slashes`: the outcomes for the two spellings
- `leadingBackslash_differs`: a name for which they differ
-/

namespace TagPress

/-! ## Unified names -/

namespace Path

/-- Only the two slashes are taken for one another. -/
theorem unifyChar_eq_iff {c d : Char} (h : d ≠ '/') (h' : d ≠ '\\') : unifyChar c = d ↔ c = d := by
  by_cases hc : c = '\\'
  · subst hc
    exact ⟨fun heq => absurd heq.symm h, fun heq => absurd heq.symm h'⟩
  · rw [unifyChar_of_ne hc]

/-- Slashes and backslashes become slashes, and no other character does. -/
theorem unifyChar_eq_slash_iff {c : Char} : unifyChar c = '/' ↔ c = '/' ∨ c = '\\' := by
  by_cases hc : c = '\\'
  · simp [hc, unifyChar]
  · rw [unifyChar_of_ne hc]
    simp [hc]

/-- An absolute path is written with slashes anyway. -/
theorem direct_unify (name : String) : direct (unify name) = direct name := by
  rw [direct, unify_unify, direct]

/-- A name stands for itself exactly if it does with its backslashes or begins with one. -/
theorem isAbsoluteIdentifier_unify (name : String) :
    isAbsoluteIdentifier (unify name) =
      (isAbsoluteIdentifier name || name.toList.head? == some '\\') := by
  rw [isAbsoluteIdentifier, isAbsoluteIdentifier, toList_unify]
  rcases name.toList with _ | ⟨c, cs⟩
  · rfl
  by_cases hback : c = '\\'
  · simp [hback, unifyChar]
  by_cases hslash : c = '/'
  · simp [hslash, unifyChar]
  rw [List.map_cons, unifyChar_of_ne hback]
  rcases cs with _ | ⟨d, ds⟩
  · simp [hback, hslash]
  -- The drive letter is kept, and so is the colon.
  by_cases hcolon : d = ':'
  · simp [hcolon, unifyChar, hback]
  · have hkept : unifyChar d ≠ ':' := fun heq =>
      hcolon ((unifyChar_eq_iff (by decide) (by decide)).mp heq)
    simp [hcolon, hkept, hback, hslash]

end Path

namespace Resolver

/-! ## Dotted names -/

/-- A dotted name, character by character. -/
theorem isDotted_iff_toList {name : String} :
    IsDotted name ↔ ∃ dots mark rest, name.toList = dots ++ mark :: rest ∧
      (dots = ['.'] ∨ dots = ['.', '.']) ∧ (mark = '/' ∨ mark = '\\') := by
  -- Texts on one side, characters on the other; the cases are the same.
  constructor
  · rintro ⟨dots, mark, rest, rfl, hdots, hmark⟩
    refine ⟨dots.toList, if mark = "/" then '/' else '\\', rest.toList, ?_, ?_, ?_⟩
    · obtain rfl | rfl := hmark <;> simp
    · obtain rfl | rfl := hdots <;> simp
    · obtain rfl | rfl := hmark <;> simp
  · rintro ⟨dots, mark, rest, hname, hdots, hmark⟩
    apply isDotted_of_toList (String.ofList dots) (String.ofList [mark])
    · simpa using hname
    · obtain rfl | rfl := hdots
      · exact .inl rfl
      · exact .inr rfl
    · obtain rfl | rfl := hmark
      · exact .inl rfl
      · exact .inr rfl

/-- Both spellings of a name are dotted or neither is. -/
theorem isDotted_unify_iff {name : String} : IsDotted (Path.unify name) ↔ IsDotted name := by
  rw [isDotted_iff_toList, isDotted_iff_toList, Path.toList_unify]
  -- Dots stay as they are, and only a slash or a backslash gives a slash.
  have hdot : ∀ {dots : List Char}, (dots = ['.'] ∨ dots = ['.', '.']) → ∀ c ∈ dots, c = '.' := by
    rintro dots (rfl | rfl) c hc <;> simpa using hc
  constructor
  · rintro ⟨dots, mark, rest, hname, hdots, hmark⟩
    obtain ⟨front, back, hsplit, hfront, hback⟩ := List.map_eq_append_iff.mp hname
    obtain ⟨c, cs, rfl, hc, -⟩ := List.map_eq_cons_iff.mp hback
    have hkept : ∀ d ∈ front, Path.unifyChar d = d := by
      intro d hd
      have hunified := hdot hdots _ (hfront ▸ List.mem_map_of_mem hd)
      rw [hunified, (Path.unifyChar_eq_iff (by decide) (by decide)).mp hunified]
    -- What unifies to dots is dots.
    have hsame : front = dots := by
      rw [← hfront, List.map_congr_left hkept, List.map_id']
    refine ⟨dots, c, cs, by rw [hsplit, hsame], hdots, Path.unifyChar_eq_slash_iff.mp ?_⟩
    rw [hc]
    exact hmark.resolve_right fun heq => Path.unifyChar_ne_backslash c (hc.trans heq)
  · rintro ⟨dots, mark, rest, hname, hdots, hmark⟩
    refine ⟨dots, '/', rest.map Path.unifyChar, ?_, hdots, .inl rfl⟩
    have hkept : ∀ d ∈ dots, Path.unifyChar d = d := by
      intro d hd
      rw [hdot hdots d hd]
      decide
    rw [hname, List.map_append, List.map_cons, List.map_congr_left hkept, List.map_id',
      Path.unifyChar_eq_slash_iff.mpr hmark]

/-- Both spellings of a name are relative to the requesting template or neither is. -/
theorem isParentRelative_unify (name : String) :
    isParentRelative (Path.unify name) = isParentRelative name := by
  rw [Bool.eq_iff_iff, isParentRelative_iff, isParentRelative_iff, isDotted_unify_iff]

/-! ## Located files -/

section Locate

variable (m : Machine) (engine : Engine) (record : SourceRecord) (parent : Option SourceRecord)

/-- The search directories are tried with slashes anyway. -/
theorem searchCandidates_unify (dirs : SearchDirs) (workingDir : Option String) (name : String) :
    searchCandidates dirs workingDir (Path.unify name) = searchCandidates dirs workingDir name := by
  rw [searchCandidates, searchCandidates, Path.unify_unify]

/-- The spelling shows in the error for a template that is not a file, and nowhere else. -/
theorem parentCandidates_unify (p : SourceRecord) (name : String) :
    parentCandidates p (Path.unify name) = parentCandidates p name ∨
      parentCandidates p name = .error (.incompatibleParent name p.kind.name) ∧
        parentCandidates p (Path.unify name) =
          .error (.incompatibleParent (Path.unify name) p.kind.name) := by
  cases hkind : p.kind.isFileBacked with
  | false => exact .inr (by simp [parentCandidates, hkind])
  | true => exact .inl (by simp [parentCandidates, hkind, Path.unify_unify])

/-- Where both spellings of a name stand for themselves or neither does, the candidates are the
    same, or both are refused for the same template. -/
theorem candidates_unify (workingDir : Option String)
    (h : Path.isAbsoluteIdentifier (Path.unify record.name) =
      Path.isAbsoluteIdentifier record.name) :
    candidates engine workingDir { record with name := Path.unify record.name } parent =
        candidates engine workingDir record parent ∨
      ∃ kind, candidates engine workingDir record parent =
          .error (.incompatibleParent record.name kind) ∧
        candidates engine workingDir { record with name := Path.unify record.name } parent =
          .error (.incompatibleParent (Path.unify record.name) kind) := by
  simp only [candidates, h, searchCandidates_unify, isParentRelative_unify, Path.unify_unify]
  -- With the rules read from the unified name, the two sides differ in the error alone.
  cases Path.isAbsoluteIdentifier record.name with
  | true =>
    simp only [if_true]
    exact .inl trivial
  | false =>
    simp only [Bool.false_eq_true, if_false]
    cases parent with
    | none => exact .inl rfl
    | some p =>
      cases isParentRelative record.name with
      | false =>
        simp only [Bool.false_eq_true, if_false]
        exact .inl trivial
      | true =>
        simp only [if_true]
        exact (parentCandidates_unify p record.name).imp_right fun hrefused => ⟨_, hrefused⟩

variable {record} (hback : record.name.toList.head? = some '\\')
  (hname : Path.isAbsoluteIdentifier record.name = false)

include hback hname

/-- A name with a backslash at the front is looked up in the search directories, and then as the
    absolute path that it is with a slash. -/
theorem locate_of_backslash :
    locate m engine record parent =
      .ok ((m.search (engine.dirsFor record.sort).dirs (Path.unify record.name)).or
        (if m.isFile (Path.direct record.name) then some (Path.direct record.name) else none)) := by
  obtain ⟨cs, hcs⟩ := List.head?_eq_some_iff.mp hback
  have hunified : (Path.unify record.name).toList = '/' :: cs.map Path.unifyChar := by
    rw [Path.toList_unify, hcs]
    rfl
  -- Behind a backslash there is no dot that would make the name relative to a template.
  have hsearched : IsSearched record.name parent := by
    refine ⟨hname, .inr ?_⟩
    simp [isParentRelative, hcs]
  -- The name starts with a slash once it is unified, so there is no bracket.
  have hplain : IsPlain (Path.unify record.name) := by
    intro tokens file hbracket
    have hfirst := hbracket.toList_eq
    rw [hunified] at hfirst
    cases hfirst
  have habsolute : Path.absolute m.workingDir (Path.unify record.name) =
      Path.direct record.name := by
    refine if_pos ?_
    rw [Path.isAbsolute, hunified]
    rfl
  rw [locate_plain hsearched m engine hplain, habsolute]

/-- With a slash at the front the search directories do not count. -/
theorem locate_unify_of_backslash :
    locate m engine { record with name := Path.unify record.name } parent =
      .ok (if m.isFile (Path.direct record.name) then some (Path.direct record.name)
        else none) := by
  have hslash : Path.isAbsoluteIdentifier (Path.unify record.name) = true := by
    rw [Path.isAbsoluteIdentifier_unify, hname, hback]
    rfl
  have hlocate := @locate_absolute { record with name := Path.unify record.name } hslash m engine
    parent
  rwa [Path.direct_unify] at hlocate

end Locate

end Resolver

/-! ## Outcomes -/

/-- The kinds of resource errors. -/
inductive ResourceError.Kind where
  | unreadable
  | incompatibleParent
  | untrustedDirectory
  | unsupportedKind
  deriving DecidableEq

/-- The kind of an error, without what it names. -/
def ResourceError.kind : ResourceError → Kind
  | unreadable .. => .unreadable
  | incompatibleParent .. => .incompatibleParent
  | untrustedDirectory .. => .untrustedDirectory
  | unsupportedKind .. => .unsupportedKind

namespace Resolver

/-- Two look-ups end alike: with errors of one kind, or both without an error and with the same
    path, identity and time. -/
inductive SameOutcome :
    Except ResourceError SourceRecord → Except ResourceError SourceRecord → Prop where
  | refused {e e' : ResourceError} (hkind : e.kind = e'.kind) : SameOutcome (.error e) (.error e')
  | ended {found found' : SourceRecord} (hpresent : found.present = found'.present)
      (hpath : found.filepath = found'.filepath) (huid : found.uid = found'.uid)
      (htime : found.timestamp = found'.timestamp) : SameOutcome (.ok found) (.ok found')

/-- Behind what is located, the name of a source does not count. -/
theorem sameOutcome_of_locate {m : Machine} {engine : Engine} {record : SourceRecord}
    {name : String} {parent : Option SourceRecord} (hkind : record.kind.isFileBacked = true)
    (h : locate m engine { record with name } parent = locate m engine record parent) :
    SameOutcome (populate m engine record parent)
      (populate m engine { record with name } parent) := by
  simp only [populate, lookUp, h, hkind, Bool.not_true, Bool.false_eq_true, if_false]
  -- The name is kept in the record and in nothing that is compared.
  cases locate m engine record parent with
  | error e => exact .refused rfl
  | ok path =>
    cases path with
    | none => exact .ended rfl rfl rfl rfl
    | some filepath =>
      cases htrust : checkTrust engine filepath record.sort with
      | error e =>
        simp only [htrust]
        exact .refused rfl
      | ok _ =>
        simp only [htrust]
        cases m.modified? filepath with
        | none => exact .ended rfl rfl rfl rfl
        | some modified => exact .ended rfl rfl rfl rfl

/-- The look-ups end alike where both spellings stand for themselves or neither does. -/
theorem sameOutcome_unify {m : Machine} {engine : Engine} {record : SourceRecord}
    (hkind : record.kind.isFileBacked = true) (parent : Option SourceRecord)
    (h : Path.isAbsoluteIdentifier (Path.unify record.name) =
      Path.isAbsoluteIdentifier record.name) :
    SameOutcome (populate m engine record parent)
      (populate m engine { record with name := Path.unify record.name } parent) := by
  obtain hsame | ⟨kind, herror, herror'⟩ := candidates_unify engine record parent m.workingDir h
  · apply sameOutcome_of_locate hkind
    simp only [locate, hsame]
  · -- The errors name the two spellings, but they are of one kind.
    have hrefused : locate m engine record parent =
        .error (.incompatibleParent record.name kind) := by
      simp only [locate, herror]
    have hrefused' : locate m engine { record with name := Path.unify record.name } parent =
        .error (.incompatibleParent (Path.unify record.name) kind) := by
      simp only [locate, herror']
    rw [populate_of_locate_error hkind hrefused,
      populate_of_locate_error (by exact hkind) hrefused']
    exact .refused rfl

end Resolver

/-- A name and the same name with slashes in place of its backslashes, on any machine, with any
    engine and requesting template, for a source that lives on the file system.

    The look-ups end alike, unless the name begins with a backslash, does not stand for itself as a
    drive letter does, and is held by a search directory. In that case it is located in the first
    directory that holds it, while with a slash at the front only the absolute path is tried. -/
theorem backslashes_count_as_slashes (m : Machine) (engine : Engine) {record : SourceRecord}
    (hkind : record.kind.isFileBacked = true) (parent : Option SourceRecord) :
    (record.name.toList.head? ≠ some '\\' ∨ Path.isAbsoluteIdentifier record.name = true ∨
        (∀ dir ∈ (engine.dirsFor record.sort).dirs,
          m.isFile (dir ++ Path.unify record.name) = false) →
      Resolver.SameOutcome (Resolver.populate m engine record parent)
        (Resolver.populate m engine { record with name := Path.unify record.name } parent)) ∧
    (record.name.toList.head? = some '\\' → Path.isAbsoluteIdentifier record.name = false →
      ∀ dir, m.FirstHolding (engine.dirsFor record.sort).dirs (Path.unify record.name) dir →
        Resolver.locate m engine record parent =
            .ok (some (Resolver.recordedPath (dir ++ Path.unify record.name))) ∧
          Resolver.locate m engine { record with name := Path.unify record.name } parent =
            .ok (if m.isFile (Path.direct record.name) then some (Path.direct record.name)
              else none)) := by
  refine ⟨fun hcase => ?_, fun hback hname dir hfirst => ⟨?_, ?_⟩⟩
  · have hunify := Path.isAbsoluteIdentifier_unify record.name
    by_cases hsame : Path.isAbsoluteIdentifier (Path.unify record.name) =
        Path.isAbsoluteIdentifier record.name
    · exact Resolver.sameOutcome_unify hkind parent hsame
    · -- A backslash at the front makes the difference, and then no directory holds the file.
      have hname : Path.isAbsoluteIdentifier record.name = false := by
        rw [← Bool.not_eq_true]
        intro hname
        rw [hunify, hname, Bool.true_or] at hsame
        exact hsame rfl
      have hback : record.name.toList.head? = some '\\' := by
        rw [hunify, hname, Bool.false_or, Bool.not_eq_false, beq_iff_eq] at hsame
        exact hsame
      obtain hfront | habsolute | hnone := hcase
      · exact absurd hback hfront
      · rw [hname] at habsolute
        cases habsolute
      · apply Resolver.sameOutcome_of_locate hkind
        rw [Resolver.locate_unify_of_backslash m engine parent hback hname,
          Resolver.locate_of_backslash m engine parent hback hname,
          Machine.search_eq_none_iff.mpr hnone, Option.none_or]
  · rw [Resolver.locate_of_backslash m engine parent hback hname, hfirst.search_eq, Option.some_or]
  · exact Resolver.locate_unify_of_backslash m engine parent hback hname

/-- The page finds the template one level up under both spellings. A backslash at the front counts
    as a slash as long as the search directory does not hold the file, and is taken for a place in
    the directory if it does. -/
theorem homePage_backslashes :
    Resolver.SameOutcome
        (Resolver.populate pagesMachine pagesEngine { name := "..\\part.tpl" } homePage)
        (Resolver.populate pagesMachine pagesEngine { name := "../part.tpl" } homePage) ∧
      Resolver.SameOutcome
        (Resolver.populate pagesMachine pagesEngine { name := "\\srv\\part.tpl" } none)
        (Resolver.populate pagesMachine pagesEngine { name := "/srv/part.tpl" } none) ∧
      Resolver.locate pagesMachine pagesEngine { name := "\\pages/home.tpl" } none =
        .ok (some "/srv//pages/home.tpl") := by
  have hboth := fun (name : String) (parent : Option SourceRecord) =>
    @backslashes_count_as_slashes pagesMachine pagesEngine { name } rfl parent
  -- The directory itself is written with a slash at its end, hence the two slashes of the path.
  have hfirst : pagesMachine.FirstHolding (pagesEngine.dirsFor .template).dirs
      (Path.unify "\\pages/home.tpl") "/srv/" := ⟨rfl, [], [], rfl, by simp⟩
  refine ⟨?_, ?_, ?_⟩
  · exact (hboth "..\\part.tpl" homePage).1 (.inl (by decide))
  · refine (hboth "\\srv\\part.tpl" none).1 (.inr (.inr ?_))
    exact List.forall_mem_singleton.mpr rfl
  · exact ((hboth "\\pages/home.tpl" none).2 (by decide) (by decide) "/srv/" hfirst).1

/-- The search directory holds the file of this name. With a slash at the front the name is an
    absolute path, and there is no such file. -/
theorem leadingBackslash_differs :
    Path.unify "\\part.tpl" = "/part.tpl" ∧
      (∃ found, Resolver.populate pagesMachine pagesEngine { name := "\\part.tpl" } none =
        .ok found ∧ found.present = true ∧ found.filepath = some "/srv//part.tpl") ∧
      (∃ missing, Resolver.populate pagesMachine pagesEngine { name := "/part.tpl" } none =
        .ok missing ∧ missing.present = false) ∧
      ¬ Resolver.SameOutcome
        (Resolver.populate pagesMachine pagesEngine { name := "\\part.tpl" } none)
        (Resolver.populate pagesMachine pagesEngine { name := "/part.tpl" } none) := by
  have hfound : ∃ found,
      Resolver.populate pagesMachine pagesEngine { name := "\\part.tpl" } none = .ok found ∧
        found.present = true ∧ found.filepath = some "/srv//part.tpl" := ⟨_, rfl, rfl, rfl⟩
  have hmissing : ∃ missing,
      Resolver.populate pagesMachine pagesEngine { name := "/part.tpl" } none = .ok missing ∧
        missing.present = false := ⟨_, rfl, rfl⟩
  refine ⟨by decide, hfound, hmissing, fun hsame => ?_⟩
  obtain ⟨found, hpopulate, hpresent, -⟩ := hfound
  obtain ⟨missing, hpopulate', hpresent'⟩ := hmissing
  rw [hpopulate, hpopulate'] at hsame
  -- One look-up finds a source and the other does not.
  cases hsame with
  | ended heq _ _ _ =>
    rw [hpresent, hpresent'] at heq
    cases heq

end TagPress
