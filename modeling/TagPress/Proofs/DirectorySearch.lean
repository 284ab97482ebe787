import Mathlib.Data.List.TakeWhile
import Mathlib.Logic.Relation
import TagPress.Proofs.RecordLife

/-!
# Directory search

A name that neither names a file by itself nor is taken from the directory of a requesting template
is looked up in the search directories, and the first that holds the file wins. So directories that
are added at the end change nothing for a file that was found, and the working directory only counts
if no search directory holds the file. Directories in brackets in front of the name take the place
of all of these. All that matters of them then is the list of directories that the tokens refer to,
and of a directory that is listed twice only the first place.

## Key results

- `Resolver.IsBracketed.bracketed?_eq`, `Resolver.exists_isBracketed`: the names with directories in
  brackets, as texts
- `Resolver.locate_plain`, `Resolver.locate_bracketed`: what is found for the two forms of names
- `SearchDirs.search_listed_eq`: tokens that can be put in or left out
- `directory_search_first_match`: the search under changes of the directories and of the tokens
-/

namespace TagPress

/-! ## Names in brackets -/

namespace Resolver

/-- A text that lists directories in brackets, with commas between them, and then names a file.
    There is something in the brackets, and the file is on one line. -/
structure IsBracketed (text : String) (tokens : List String) (file : String) : Prop where
  text_eq : text = "[" ++ Text.joinWith "," tokens ++ "]" ++ file
  inside_ne_empty : Text.joinWith "," tokens ≠ ""
  noComma : ∀ token ∈ tokens, ',' ∉ token.toList
  noBracket : ∀ token ∈ tokens, ']' ∉ token.toList
  file_ne_empty : file ≠ ""
  oneLine : '\n' ∉ file.toList

namespace IsBracketed

variable {text : String} {tokens : List String} {file : String}

/-- The characters of such a text. -/
theorem toList_eq (h : IsBracketed text tokens file) :
    text.toList = '[' :: ((Text.joinWith "," tokens).toList ++ ']' :: file.toList) := by
  rw [h.text_eq]
  simp

/-- The first closing bracket is the one behind the tokens. -/
theorem ne_close (h : IsBracketed text tokens file) :
    ∀ c ∈ (Text.joinWith "," tokens).toList, (c != ']') = true := by
  intro c hc
  rw [bne_iff_ne]
  rintro rfl
  obtain hcomma | ⟨token, htoken, hmem⟩ := Text.mem_joinWith hc
  · exact absurd hcomma (by decide)
  · exact h.noBracket token htoken hmem

/-- Cutting at the commas gives the tokens back. -/
theorem splitOn_eq (h : IsBracketed text tokens file) :
    (Text.joinWith "," tokens).toList.splitOn ',' = tokens.map String.toList := by
  -- There is a token, since something stands between the brackets.
  have hne : tokens.map String.toList ≠ [] := by
    intro hnil
    rw [List.map_eq_nil_iff] at hnil
    exact h.inside_ne_empty (by rw [hnil]; rfl)
  have hcomma : ∀ token ∈ tokens.map String.toList, ',' ∉ token :=
    List.forall_mem_map.mpr h.noComma
  rw [Text.toList_joinWith]
  exact List.splitOn_intercalate ',' hcomma hne

/-- Such a text is read as its tokens, without the blanks around them, and its file. -/
theorem bracketed?_eq (h : IsBracketed text tokens file) :
    bracketed? text = some (tokens.map Text.strip, file) := by
  -- The first closing bracket is the one behind the tokens, since they have none.
  have hinside : ((Text.joinWith "," tokens).toList ++ ']' :: file.toList).takeWhile (· != ']') =
      (Text.joinWith "," tokens).toList := by
    rw [List.takeWhile_append_of_pos h.ne_close]
    simp
  have hrest : ((Text.joinWith "," tokens).toList ++ ']' :: file.toList).dropWhile (· != ']') =
      ']' :: file.toList := by
    rw [List.dropWhile_append_of_pos h.ne_close]
    rfl
  have hshape : ((Text.joinWith "," tokens).toList.isEmpty || file.toList.isEmpty ||
      file.toList.contains '\n') = false := by
    simp [h.inside_ne_empty, h.file_ne_empty, h.oneLine]
  simp only [bracketed?, h.toList_eq, hinside, hrest, hshape, Bool.false_eq_true, if_false,
    h.splitOn_eq, List.map_map, String.ofList_toList]
  rfl

end IsBracketed

/-- Between the brackets, the tokens are the pieces between the commas. -/
theorem isBracketed_splitOn {text : String} {inside file : List Char}
    (htext : text.toList = '[' :: (inside ++ ']' :: file)) (hinside : inside ≠ [])
    (hclose : ']' ∉ inside) (hfile : file ≠ []) (hline : '\n' ∉ file) :
    IsBracketed text ((inside.splitOn ',').map String.ofList) (String.ofList file) := by
  -- The tokens are what stands between the commas, so joining them gives the inside back.
  have hjoin : Text.joinWith "," ((inside.splitOn ',').map String.ofList) =
      String.ofList inside := by
    rw [← String.toList_inj, Text.toList_joinWith, List.map_map]
    simp [Function.comp_def, List.intercalate_splitOn]
  constructor
  case text_eq =>
    rw [hjoin, ← String.toList_inj, htext]
    simp
  case inside_ne_empty =>
    rw [hjoin, ne_eq, ← String.toList_inj]
    simpa using hinside
  case noComma =>
    refine List.forall_mem_map.mpr fun token htoken => ?_
    rw [String.toList_ofList]
    exact fun hc => (Text.mem_of_mem_splitOn htoken hc).2 rfl
  case noBracket =>
    refine List.forall_mem_map.mpr fun token htoken => ?_
    rw [String.toList_ofList]
    exact fun hc => hclose (Text.mem_of_mem_splitOn htoken hc).1
  case file_ne_empty =>
    rw [ne_eq, ← String.toList_inj]
    simpa using hfile
  case oneLine => rwa [String.toList_ofList]

/-- Nothing else is read as tokens and a file. -/
theorem exists_isBracketed {text : String} {trimmed : List String} {file : String}
    (h : bracketed? text = some (trimmed, file)) :
    ∃ tokens, IsBracketed text tokens file ∧ trimmed = tokens.map Text.strip := by
  unfold bracketed? at h
  split at h
  · rename_i cs htext
    simp only at h
    split at h
    · rename_i rest hrest
      obtain ⟨hshape, hparts⟩ := Option.ite_none_left_eq_some.mp h
      cases hparts
      simp only [Bool.or_eq_true, List.isEmpty_iff, List.contains_iff_mem, not_or] at hshape
      obtain ⟨⟨hinside, hfile⟩, hline⟩ := hshape
      -- The text is cut at the first closing bracket, so none is left inside.
      have hclose : ']' ∉ cs.takeWhile (· != ']') := by
        intro hmem
        have hopen := List.mem_takeWhile_imp hmem
        simp at hopen
      have hcs := List.takeWhile_append_dropWhile (p := (· != ']')) (l := cs)
      rw [hrest] at hcs
      rw [← hcs] at htext
      refine ⟨_, isBracketed_splitOn htext hinside hclose hfile hline, ?_⟩
      simp [Text.strip, Function.comp_def]
    · cases h
  · cases h

/-- A text without directories in brackets in front. -/
def IsPlain (text : String) : Prop :=
  ∀ tokens file, ¬ IsBracketed text tokens file

/-- A text without directories in brackets is not read so. -/
theorem IsPlain.bracketed?_eq {text : String} (h : IsPlain text) : bracketed? text = none := by
  cases hbracketed : bracketed? text with
  | none => rfl
  | some parts =>
    obtain ⟨tokens, htokens, -⟩ := exists_isBracketed hbracketed
    exact absurd htokens (h tokens parts.2)

end Resolver

/-! ## First matches -/

/-- The path that is recorded for a file in a search directory. -/
def Resolver.recordedPath (path : String) : String :=
  if Path.hasDotSlash path then Path.normalize path else path

namespace Machine

/-- A directory of the list holds the file, and none before it does. -/
def FirstHolding (m : Machine) (dirs : List String) (file dir : String) : Prop :=
  m.isFile (dir ++ file) = true ∧ ∃ before after, dirs = before ++ dir :: after ∧
    ∀ d ∈ before, m.isFile (d ++ file) = false

/-- What is recorded for the first directory that holds the file. -/
def search (m : Machine) (dirs : List String) (file : String) : Option String :=
  (dirs.find? fun dir => m.isFile (dir ++ file)).map fun dir => Resolver.recordedPath (dir ++ file)

variable {m : Machine} {dirs : List String} {file : String}

/-- The candidates in search directories, as a search. -/
theorem find?_candidateIn (m : Machine) (dirs : List String) (file : String) :
    ((dirs.map (Resolver.candidateIn file)).find? fun c => m.isFile c.probe).map (·.stored) =
      m.search dirs file := by
  rw [List.find?_map, Option.map_map]
  rfl

/-- The first match is a directory that holds the file when none before it does. -/
theorem find?_eq_some_iff_firstHolding {dir : String} :
    (dirs.find? fun dir => m.isFile (dir ++ file)) = some dir ↔ m.FirstHolding dirs file dir := by
  rw [List.find?_eq_some_iff_append, FirstHolding]
  simp

/-- What is recorded for the first directory that holds the file. -/
theorem FirstHolding.search_eq {dir : String} (h : m.FirstHolding dirs file dir) :
    m.search dirs file = some (Resolver.recordedPath (dir ++ file)) := by
  rw [search, find?_eq_some_iff_firstHolding.mpr h, Option.map_some]

/-- A search finds what the first directory that holds the file has. -/
theorem search_eq_some_iff {path : String} :
    m.search dirs file = some path ↔
      ∃ dir, m.FirstHolding dirs file dir ∧ Resolver.recordedPath (dir ++ file) = path := by
  rw [search, Option.map_eq_some_iff]
  simp only [find?_eq_some_iff_firstHolding]

/-- A search finds nothing if no directory holds the file. -/
theorem search_eq_none_iff :
    m.search dirs file = none ↔ ∀ dir ∈ dirs, m.isFile (dir ++ file) = false := by
  rw [search, Option.map_eq_none_iff, List.find?_eq_none]
  simp

/-- More directories at the end change nothing, and nor does a machine that differs elsewhere. -/
theorem FirstHolding.widen {other : Machine} {dir : String} {wider : List String}
    (h : m.FirstHolding dirs file dir) (hwider : dirs <+: wider)
    (hsame : ∀ d ∈ dirs, other.isFile (d ++ file) = m.isFile (d ++ file)) :
    other.FirstHolding wider file dir := by
  obtain ⟨hfile, before, after, rfl, hbefore⟩ := h
  obtain ⟨more, rfl⟩ := hwider
  refine ⟨?_, before, after ++ more, by simp, fun d hd => ?_⟩
  · rw [hsame dir (by simp), hfile]
  · rw [hsame d (by simp [hd]), hbefore d hd]

end Machine

/-! ## Listed directories -/

namespace SearchDirs

/-- The directories that tokens refer to, in the order of the tokens. Tokens that refer to none are
    left out. -/
def listed (s : SearchDirs) (tokens : List String) : List String :=
  tokens.filterMap fun token => s.resolveToken? (Text.strip token)

/-- One token more that refers to no directory, or that was listed before. -/
inductive MoreTokens (s : SearchDirs) : List String → List String → Prop where
  /-- The token refers to no directory. -/
  | unresolved {token : String} (before after : List String)
    (hnone : s.resolveToken? (Text.strip token) = none) :
    MoreTokens s (before ++ after) (before ++ token :: after)
  /-- The token stands further in front, too. -/
  | repeated {token : String} (before after : List String) (hmem : token ∈ before) :
    MoreTokens s (before ++ after) (before ++ token :: after)

variable {s : SearchDirs} {tokens tokens' : List String}

/-- Tokens are taken one list after the other. -/
theorem listed_append (s : SearchDirs) (before after : List String) :
    s.listed (before ++ after) = s.listed before ++ s.listed after :=
  List.filterMap_append

/-- A token that refers to nothing is left out. -/
theorem listed_cons_of_none {token : String} (h : s.resolveToken? (Text.strip token) = none)
    (after : List String) : s.listed (token :: after) = s.listed after :=
  List.filterMap_cons_none h

/-- A token that refers to a directory puts it on the list. -/
theorem listed_cons_of_some {token dir : String} (h : s.resolveToken? (Text.strip token) = some dir)
    (after : List String) : s.listed (token :: after) = dir :: s.listed after :=
  List.filterMap_cons_some h

/-- One token more that refers to nothing, or that was listed before, changes nothing. -/
theorem MoreTokens.search_eq (h : s.MoreTokens tokens tokens') (m : Machine) (file : String) :
    m.search (s.listed tokens) file = m.search (s.listed tokens') file := by
  cases h with
  | unresolved before after hnone =>
    rw [listed_append, listed_append, listed_cons_of_none hnone]
  | @repeated token before after hmem =>
    cases hdir : s.resolveToken? (Text.strip token) with
    | none => rw [listed_append, listed_append, listed_cons_of_none hdir]
    | some dir =>
      have hearlier : dir ∈ s.listed before := List.mem_filterMap.mpr ⟨token, hmem, hdir⟩
      rw [listed_append, listed_append, listed_cons_of_some hdir, Machine.search, Machine.search,
        List.find?_append, List.find?_append]
      -- If the search goes on behind the first tokens, the directory is known not to hold the file.
      cases hfound : (s.listed before).find? fun dir => m.isFile (dir ++ file) with
      | some first => rfl
      | none =>
        have hmissing : m.isFile (dir ++ file) = false := by
          simpa using List.find?_eq_none.mp hfound dir hearlier
        rw [Option.none_or, Option.none_or, List.find?_cons_of_neg (by simp [hmissing])]

/-- What is found stays the same however often such tokens are put in or left out. -/
theorem search_listed_eq (h : Relation.EqvGen s.MoreTokens tokens tokens') (m : Machine)
    (file : String) : m.search (s.listed tokens) file = m.search (s.listed tokens') file := by
  -- By induction on how the two lists are related, in any number of steps and directions.
  induction h with
  | rel _ _ hmore => exact hmore.search_eq m file
  | refl => rfl
  | symm _ _ _ ih => exact ih.symm
  | trans _ _ _ _ _ ih ih' => exact ih.trans ih'

end SearchDirs

/-! ## Located files -/

namespace Resolver

/-- A name that is looked up in search directories: it names no file by itself, and it is not taken
    from the directory of a requesting template. -/
structure IsSearched (name : String) (parent : Option SourceRecord) : Prop where
  notAbsolute : Path.isAbsoluteIdentifier name = false
  notRelative : parent = none ∨ isParentRelative name = false

section Locate

variable {record : SourceRecord} {parent : Option SourceRecord}
  (h : IsSearched record.name parent) (m : Machine) (engine : Engine)

include h

/-- A name that is searched has the candidates of the search. -/
theorem IsSearched.candidates_eq (workingDir : Option String) :
    candidates engine workingDir record parent =
      .ok (searchCandidates (engine.dirsFor record.sort) workingDir record.name) := by
  cases parent with
  | none => simp only [candidates, h.notAbsolute, Bool.false_eq_true, if_false]
  | some p =>
    obtain hnone | hrelative := h.notRelative
    · cases hnone
    · simp only [candidates, h.notAbsolute, hrelative, Bool.false_eq_true, if_false]

/-- A name with directories in brackets is looked up in those and nowhere else. -/
theorem locate_bracketed {tokens : List String} {file : String}
    (hname : IsBracketed (Path.unify record.name) tokens file) :
    locate m engine record parent =
      .ok (m.search ((engine.dirsFor record.sort).listed tokens) file) := by
  have hlisted : (tokens.map Text.strip).filterMap (engine.dirsFor record.sort).resolveToken? =
      (engine.dirsFor record.sort).listed tokens :=
    List.filterMap_map
  simp only [locate, h.candidates_eq, searchCandidates, hname.bracketed?_eq, hlisted,
    Machine.find?_candidateIn]

/-- Any other name is looked up in all search directories, and then in the working directory. -/
theorem locate_plain (hname : IsPlain (Path.unify record.name)) :
    locate m engine record parent =
      .ok ((m.search (engine.dirsFor record.sort).dirs (Path.unify record.name)).or
        (if m.isFile (Path.absolute m.workingDir (Path.unify record.name)) then
          some (Path.absolute m.workingDir (Path.unify record.name)) else none)) := by
  simp only [locate, h.candidates_eq, searchCandidates, hname.bracketed?_eq, List.find?_append,
    Option.map_or, Candidate.find?_same, Machine.find?_candidateIn]

end Locate

end Resolver

/-- The search for a name that neither names a file by itself nor is taken from the directory of a
    requesting template, on any machine. Backslashes of the name count as slashes.

    Without brackets, what is found in the first directory that holds the file is found as well with
    more directories at the end, and on any machine that agrees about the file in these directories,
    whatever its working directory is. Only if no directory holds the file is it looked for in the
    working directory.

    With brackets, what is found is the file in the first listed directory that holds it, or nothing
    if there is none. All that matters of the search directories is which of them the tokens refer
    to. And nothing changes if tokens that refer to none, or that were listed before, are put in or
    left out. -/
theorem directory_search_first_match {record : SourceRecord} {parent : Option SourceRecord}
    (h : Resolver.IsSearched record.name parent) (m : Machine) (engine : Engine) :
    (Resolver.IsPlain (Path.unify record.name) →
      (∀ dir, m.FirstHolding (engine.dirsFor record.sort).dirs (Path.unify record.name) dir →
        ∀ (other : Machine) (wider : Engine),
          (engine.dirsFor record.sort).dirs <+: (wider.dirsFor record.sort).dirs →
          (∀ d ∈ (engine.dirsFor record.sort).dirs,
            other.isFile (d ++ Path.unify record.name) = m.isFile (d ++ Path.unify record.name)) →
          Resolver.locate other wider record parent =
            .ok (some (Resolver.recordedPath (dir ++ Path.unify record.name)))) ∧
      ((∀ dir ∈ (engine.dirsFor record.sort).dirs,
          m.isFile (dir ++ Path.unify record.name) = false) →
        Resolver.locate m engine record parent =
          .ok (if m.isFile (Path.absolute m.workingDir (Path.unify record.name)) then
            some (Path.absolute m.workingDir (Path.unify record.name)) else none))) ∧
    ∀ tokens file, Resolver.IsBracketed (Path.unify record.name) tokens file →
      (∀ path, Resolver.locate m engine record parent = .ok (some path) ↔
        ∃ dir, m.FirstHolding ((engine.dirsFor record.sort).listed tokens) file dir ∧
          Resolver.recordedPath (dir ++ file) = path) ∧
      (Resolver.locate m engine record parent = .ok none ↔
        ∀ dir ∈ (engine.dirsFor record.sort).listed tokens, m.isFile (dir ++ file) = false) ∧
      (∀ other : Engine, (other.dirsFor record.sort).listed tokens =
          (engine.dirsFor record.sort).listed tokens →
        Resolver.locate m other record parent = Resolver.locate m engine record parent) ∧
      ∀ name tokens', Resolver.IsSearched name parent →
        Resolver.IsBracketed (Path.unify name) tokens' file →
        Relation.EqvGen (engine.dirsFor record.sort).MoreTokens tokens tokens' →
        Resolver.locate m engine { record with name } parent =
          Resolver.locate m engine record parent := by
  refine ⟨fun hplain => ⟨?_, fun hnone => ?_⟩, fun tokens file hname => ?_⟩
  · intro dir hfirst other wider hwider hsame
    rw [Resolver.locate_plain h other wider hplain, (hfirst.widen hwider hsame).search_eq,
      Option.some_or]
  · rw [Resolver.locate_plain h m engine hplain, Machine.search_eq_none_iff.mpr hnone,
      Option.none_or]
  · -- The engine is left open, since one part compares two of them.
    have hlocate := fun other => Resolver.locate_bracketed h m other hname
    refine ⟨fun path => ?_, ?_, fun other hlisted => ?_, fun name tokens' h' hname' hmore => ?_⟩
    · rw [hlocate, Except.ok.injEq, Machine.search_eq_some_iff]
    · rw [hlocate, Except.ok.injEq, Machine.search_eq_none_iff]
    · rw [hlocate, hlocate, hlisted]
    · have hedited := @Resolver.locate_bracketed { record with name } parent h' m engine tokens'
        file hname'
      rw [hedited, hlocate, SearchDirs.search_listed_eq hmore]

/-- An edited name has to stay one that is searched: behind the bracket, a colon makes a name that
    names a file by itself. -/
example :
    Path.isAbsoluteIdentifier "[1,:]x.tpl" = false ∧
      Path.isAbsoluteIdentifier "[:,1]x.tpl" = true := by
  decide

/-- A file of one name in two directories and at the root. -/
def threefoldMachine : Machine :=
  { root := .folder "b" ⟨0⟩ (.file "x.tpl" .empty ⟨0⟩ .empty)
      (.folder "c" ⟨0⟩ (.file "x.tpl" .empty ⟨0⟩ .empty) (.file "x.tpl" .empty ⟨0⟩ .empty)) }

/-- An engine that looks in a directory that does not exist and then in one of the two. -/
def threefoldEngine : Engine :=
  { templateDirs := (({} : SearchDirs).push none "/a").push none "/b" }

/-- The name has no bracket in front. -/
theorem isPlain_threefold : Resolver.IsPlain (Path.unify "x.tpl") := by
  intro tokens file h
  have hfirst := h.toList_eq
  cases hfirst

/-- A name with three tokens and a backslash. -/
theorem isBracketed_threefold :
    Resolver.IsBracketed (Path.unify "[site, 1,0].\\x.tpl") ["site", " 1", "0"] "./x.tpl" :=
  ⟨by decide, by decide, by decide, by decide, by decide, by decide⟩

/-- The file is found in the second directory, also with the other directory behind it and from a
    working directory that has the file. With brackets it is found in the directory with the number,
    and without the name that is not known and with the number twice just the same. -/
theorem threefoldMachine_search :
    (Resolver.locate threefoldMachine threefoldEngine { name := "x.tpl" } none =
        .ok (some "/b/x.tpl") ∧
      Resolver.locate { threefoldMachine with workingPlace := ⟨["c"], 0⟩ }
          { templateDirs := threefoldEngine.templateDirs.push none "/c" } { name := "x.tpl" } none =
        .ok (some "/b/x.tpl")) ∧
    Resolver.locate threefoldMachine threefoldEngine { name := "[site, 1,0].\\x.tpl" } none =
        .ok (some "/b/x.tpl") ∧
      Resolver.locate threefoldMachine threefoldEngine { name := "[ 1,0, 1]./x.tpl" } none =
        .ok (some "/b/x.tpl") := by
  constructor
  · have hsearched : Resolver.IsSearched "x.tpl" none := ⟨by decide, .inl rfl⟩
    obtain ⟨hplain, -⟩ := @directory_search_first_match { name := "x.tpl" } none hsearched
      threefoldMachine threefoldEngine
    have hfirst : threefoldMachine.FirstHolding (threefoldEngine.dirsFor .template).dirs
        (Path.unify "x.tpl") "/b/" :=
      ⟨rfl, ["/a/"], [], rfl, List.forall_mem_singleton.mpr rfl⟩
    obtain ⟨hfound, -⟩ := hplain isPlain_threefold
    refine ⟨hfound "/b/" hfirst threefoldMachine threefoldEngine List.prefix_rfl fun _ _ => rfl, ?_⟩
    -- More directories behind the first that holds the file change nothing.
    refine hfound "/b/" hfirst _ _ ⟨["/c/"], rfl⟩ ?_
    exact List.forall_mem_cons.mpr ⟨rfl, List.forall_mem_singleton.mpr rfl⟩
  · have hsearched : Resolver.IsSearched "[site, 1,0].\\x.tpl" none := ⟨by decide, .inl rfl⟩
    obtain ⟨-, hbrackets⟩ := @directory_search_first_match { name := "[site, 1,0].\\x.tpl" } none
      hsearched threefoldMachine threefoldEngine
    obtain ⟨hfound, -, -, hedited⟩ := hbrackets _ _ isBracketed_threefold
    have hfirst : threefoldMachine.FirstHolding
        ((threefoldEngine.dirsFor .template).listed ["site", " 1", "0"]) "./x.tpl" "/b/" :=
      ⟨rfl, [], ["/a/"], rfl, by simp⟩
    -- A token that refers to nothing and one that is repeated can be taken away and added.
    have hlocate := (hfound "/b/x.tpl").mpr ⟨"/b/", hfirst, rfl⟩
    have hsearched' : Resolver.IsSearched "[ 1,0, 1]./x.tpl" none := ⟨by decide, .inl rfl⟩
    refine ⟨hlocate, (hedited _ [" 1", "0", " 1"] hsearched' ?_ ?_).trans hlocate⟩
    · exact ⟨by decide, by decide, by decide, by decide, by decide, by decide⟩
    · have hless : (threefoldEngine.dirsFor .template).MoreTokens [" 1", "0"] ["site", " 1", "0"] :=
        .unresolved [] [" 1", "0"] rfl
      have htwice : (threefoldEngine.dirsFor .template).MoreTokens [" 1", "0"] [" 1", "0", " 1"] :=
        .repeated [" 1", "0"] [] List.mem_cons_self
      exact .trans _ _ _ (.symm _ _ (.rel _ _ hless)) (.rel _ _ htwice)

end TagPress
