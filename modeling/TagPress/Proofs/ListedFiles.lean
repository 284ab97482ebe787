import Mathlib.Data.List.Nodup
import TagPress.Proofs.ListedTemplates
import TagPress.Proofs.NameBytes

/-!
# Listed files

Which files the listing of a directory names is said without the walk: those at the end of a path on
which every directory is shown and can be opened. A directory is hidden if its name is a text that
starts with a dot. One whose name is no text is entered, whatever its first byte is. The walk leaves
a hidden directory out with all that is below it, and likewise one whose path is too long. It sorts
the names of each directory and never the paths, and so lists `a/b.tpl` in front of `a.tpl`,
although the joined names stand the other way round.

What is shown of a name is read from its bytes. A text is shown as it is, and then the path of the
file is the directory with the shown name behind it. Other bytes are shown with replacement
characters, and the path keeps the bytes.

## Key results

- `Folder.mem_filePaths_iff`: the paths that are listed
- `Folder.pairwise_filePaths`: their order
- `listed_files_exact`: the listing of the search directories
- `odd_folders_listed`: a hidden directory that is entered, and a file that is not listed
-/

namespace TagPress

/-! ## Listed paths -/

namespace Folder

/-- The path leads to a file, and every directory on it is entered. The directory that it starts
    from is opened by a path of `used` bytes. -/
structure Lists (used : Nat) (content : Folder) (path : List NativeText) : Prop where
  /-- A file stands at the end of the path. -/
  file : ∃ bytes modified, content.entryAt? path = some (.file bytes modified)
  /-- The last name may be hidden, the others are not. -/
  shown : ∀ name ∈ path.dropLast, isHiddenName name = false
  /-- If the file is further down, the path of its directory is short enough. -/
  opened : path.dropLast ≠ [] → used + (NativeText.joined path.dropLast).size ≤ maxPathBytes

end Folder

/-- Whether the walk goes into a directory with this name. -/
structure NativeText.Entered (used : Nat) (name : NativeText) : Prop where
  shown : isHiddenName name = false
  opened : used + name.size ≤ Folder.maxPathBytes

/-- The test of the walk, which passes a directory over. -/
theorem NativeText.entered_iff {used : Nat} {name : NativeText} :
    name.Entered used ↔
      ¬ (isHiddenName name || decide (Folder.maxPathBytes < used + name.size)) = true := by
  rw [Bool.or_eq_true, decide_eq_true_eq, not_or, Bool.not_eq_true, Nat.not_lt]
  exact ⟨fun h => ⟨h.1, h.2⟩, fun h => ⟨h.1, h.2⟩⟩

/-- The names behind its own with which an entry is listed. -/
def Entry.Lists (used : Nat) (name : NativeText) : Entry → List NativeText → Prop
  | .file _ _, below => below = []
  | .link _, _ => False
  | .special _ _, _ => False
  | .folder _ inside, below => name.Entered used ∧ inside.Lists (used + name.size + 1) below

namespace Folder

variable {used : Nat} {content : Folder} {name : NativeText} {path below : List NativeText}

/-- The directory that a walk starts from is no file. -/
theorem not_lists_nil : ¬ content.Lists used [] := by
  rintro ⟨⟨bytes, modified, hfile⟩, -, -⟩
  cases hfile

/-- A path that starts with a directory: the directory is entered, and so are those behind it. -/
theorem entered_and_opened_iff {next : NativeText} :
    (isHiddenName name = false ∧ used + name.size ≤ maxPathBytes) ∧
        ((next :: below).dropLast ≠ [] → used + name.size + 1 +
          (NativeText.joined (next :: below).dropLast).size ≤ maxPathBytes) ↔
      isHiddenName name = false ∧
        used + (NativeText.joined (name :: (next :: below).dropLast)).size ≤ maxPathBytes := by
  -- If the next name is the file, the first directory is the only one to be opened.
  by_cases hdirs : (next :: below).dropLast = []
  · rw [hdirs]
    simp [NativeText.joined]
  · rw [NativeText.size_joined_cons name hdirs]
    constructor
    · rintro ⟨⟨hname, -⟩, hopened⟩
      have hlong := hopened hdirs
      exact ⟨hname, by omega⟩
    · rintro ⟨hname, hlong⟩
      exact ⟨⟨hname, by omega⟩, fun _ => by omega⟩

/-- Whether a path is listed is decided entry by entry. -/
theorem lists_cons_iff :
    content.Lists used (name :: below) ↔
      ∃ entry, content.child? name = some entry ∧ entry.Lists used name below := by
  -- The last name is not asked whether it is hidden, so it is treated apart.
  cases below with
  | nil =>
    constructor
    · rintro ⟨⟨bytes, modified, hfile⟩, -, -⟩
      exact ⟨_, hfile, rfl⟩
    · rintro ⟨entry, hchild, hentry⟩
      cases entry with
      | file bytes modified => exact ⟨⟨bytes, modified, hchild⟩, nofun, nofun⟩
      | link | special => cases hentry
      | folder => exact absurd hentry.2 not_lists_nil
  | cons next below =>
    have hdropLast : (name :: next :: below).dropLast = name :: (next :: below).dropLast :=
      List.dropLast_cons_cons
    constructor
    · rintro ⟨⟨bytes, modified, hfile⟩, hshown, hopened⟩
      rw [hdropLast] at hopened hshown
      rw [List.forall_mem_cons] at hshown
      -- The first directory is entered, and inside it the path is shorter.
      obtain ⟨⟨hname, hlong⟩, hinner⟩ :=
        entered_and_opened_iff.mpr ⟨hshown.1, hopened (List.cons_ne_nil _ _)⟩
      rw [entryAt?] at hfile
      split at hfile
      · rename_i inside hchild
        exact ⟨_, hchild, ⟨hname, hlong⟩, ⟨bytes, modified, hfile⟩, hshown.2, hinner⟩
      · cases hfile
      · simp
    · rintro ⟨entry, hchild, hentry⟩
      cases entry with
      | file => cases hentry
      | link | special => cases hentry
      | folder _ inside =>
        obtain ⟨⟨hname, hlong⟩, ⟨bytes, modified, hfile⟩, hshown, hinner⟩ := hentry
        obtain ⟨-, hopened⟩ := entered_and_opened_iff.mp ⟨⟨hname, hlong⟩, hinner⟩
        refine ⟨⟨bytes, modified, ?_⟩, ?_, ?_⟩
        · simp only [entryAt?, hchild]
          exact hfile
        · rw [hdropLast, List.forall_mem_cons]
          exact ⟨hname, hshown⟩
        · rw [hdropLast]
          exact fun _ => hopened

/-- A new entry adds what it lists itself. -/
theorem lists_cons (used : Nat) (hfresh : name ∉ content.names) (entry : Entry)
    (path : List NativeText) :
    (cons name entry content).Lists used path ↔
      (∃ below, entry.Lists used name below ∧ path = name :: below) ∨ content.Lists used path := by
  cases path with
  | nil => simp [not_lists_nil]
  | cons first below =>
    rw [lists_cons_iff, lists_cons_iff, child?_cons]
    by_cases hfirst : name = first
    · subst hfirst
      -- The name is new, so below the other entries nothing starts with it.
      have hnone : content.child? name = none :=
        Option.eq_none_iff_forall_ne_some.mpr fun _ h => hfresh (mem_names_of_child? h)
      simp [hnone]
    · simp [hfirst, Ne.symm hfirst]

/-- The walk passes a directory over with all that is below it, or goes into it. -/
theorem mem_contributions_iff (h : content.isProper = true) :
    (∃ part ∈ content.contributions used, path ∈ part.2) ↔ content.Lists used path := by
  -- By induction on the tree: each entry adds what it lists itself to what the others list.
  induction content generalizing used path with
  | empty =>
    cases path with
    | nil => simp [contributions, not_lists_nil]
    | cons => simp [contributions, lists_cons_iff, child?]
  | file name bytes modified rest ih =>
    simp only [isProper, Bool.and_eq_true, decide_eq_true_eq] at h
    have hcons := lists_cons used h.1.2 (.file bytes modified) path
    rw [contributions, List.exists_mem_cons_iff, ih h.2]
    refine Iff.trans ?_ hcons.symm
    simp [Entry.Lists]
  | link name target rest ih =>
    simp only [isProper, Bool.and_eq_true, decide_eq_true_eq] at h
    have hcons := lists_cons used h.1.2 (.link target) path
    rw [contributions, ih h.2]
    refine Iff.trans ?_ hcons.symm
    simp [Entry.Lists]
  | special name output modified rest ih =>
    simp only [isProper, Bool.and_eq_true, decide_eq_true_eq] at h
    have hcons := lists_cons used h.1.2 (.special output modified) path
    rw [contributions, ih h.2]
    refine Iff.trans ?_ hcons.symm
    simp [Entry.Lists]
  | folder name modified inside rest ihInside ih =>
    simp only [isProper, Bool.and_eq_true, decide_eq_true_eq] at h
    have hcons := lists_cons used h.1.1.2 (.folder modified inside) path
    refine Iff.trans ?_ hcons.symm
    rw [contributions]
    split
    · rename_i hpassed
      -- Nothing below the directory is listed either, since its name stands on every path.
      have hout : ¬ name.Entered used := fun hentered => NativeText.entered_iff.mp hentered hpassed
      rw [ih h.2]
      simp [Entry.Lists, hout]
    · rename_i hentered
      have hin : name.Entered used := NativeText.entered_iff.mpr hentered
      rw [List.exists_mem_cons_iff, ih h.2]
      simp only [List.mem_map, mem_inNameOrder, ihInside h.1.2, Entry.Lists, hin, true_and,
        eq_comm]

/-- The paths of the walk are those that the directory lists. -/
theorem mem_filePaths_iff (h : content.isProper = true) :
    path ∈ content.filePaths used ↔ content.Lists used path := by
  rw [filePaths, mem_inNameOrder, mem_contributions_iff h]

/-! ## Names on the way -/

/-- A proper name has no slash among its bytes. -/
theorem slash_notMem_of_isProperName (h : isProperName name = true) : 47 ∉ name.bytes := by
  cases name with
  | text value =>
    obtain ⟨hname, -, -⟩ := isProperName_iff.mp h
    -- In the bytes of a character, a byte below 128 is the character itself.
    intro hslash
    obtain ⟨c, hc, hmem⟩ := List.mem_flatMap.mp hslash
    have heq : c = '/' := Char.toNat_inj.mp (Text.toNat_eq_of_mem_utf8EncodeChar (by decide) hmem)
    exact hname.noSlash (heq ▸ hc)
  | raw bytes notText =>
    simp only [isProperName, Bool.and_eq_true, Bool.not_eq_true'] at h
    have hslash : 47 ∉ bytes := by simpa using h.1.1
    exact hslash

/-- The names of a proper directory are proper. -/
theorem isProperName_of_mem_names (h : content.isProper = true) (hname : name ∈ content.names) :
    isProperName name = true := by
  -- A directory has one more condition than the other entries, on what is inside.
  induction content with
  | empty => cases hname
  | file n _ _ rest ih | link n _ rest ih | special n _ _ rest ih =>
    simp only [isProper, Bool.and_eq_true] at h
    rw [names, List.mem_cons] at hname
    obtain rfl | hname := hname
    · exact h.1.1
    · exact ih h.2 hname
  | folder n _ _ rest _ ih =>
    simp only [isProper, Bool.and_eq_true] at h
    rw [names, List.mem_cons] at hname
    obtain rfl | hname := hname
    · exact h.1.1.1
    · exact ih h.2 hname

/-- A path in a proper tree has names, and none of them has a slash. -/
theorem Lists.noSlash (h : content.isProper = true) (hpath : content.Lists used path) :
    path ≠ [] ∧ ∀ name ∈ path, 47 ∉ name.bytes := by
  induction path generalizing content used with
  | nil => exact absurd hpath not_lists_nil
  | cons name below ih =>
    refine ⟨List.cons_ne_nil _ _, ?_⟩
    obtain ⟨entry, hchild, hentry⟩ := lists_cons_iff.mp hpath
    have hname := slash_notMem_of_isProperName
      (isProperName_of_mem_names h (mem_names_of_child? hchild))
    rw [List.forall_mem_cons]
    refine ⟨hname, ?_⟩
    -- A file ends the path, and below a directory the names are those of a proper tree again.
    cases entry with
    | file =>
      rw [show below = [] from hentry]
      nofun
    | link | special => cases hentry
    | folder modified inside => exact (ih (inherited_isProper.child? h hchild) hentry.2).2

/-! ## The order of the paths -/

/-- The names of a proper directory are distinct. -/
theorem nodup_names (h : content.isProper = true) : content.names.Nodup := by
  induction content with
  | empty => exact List.nodup_nil
  | file name _ _ rest ih | link name _ rest ih | special name _ _ rest ih =>
    simp only [isProper, Bool.and_eq_true, decide_eq_true_eq] at h
    exact List.nodup_cons.mpr ⟨h.1.2, ih h.2⟩
  | folder name _ _ rest _ ih =>
    simp only [isProper, Bool.and_eq_true, decide_eq_true_eq] at h
    exact List.nodup_cons.mpr ⟨h.1.1.2, ih h.2⟩

/-- An entry contributes under its own name at most. -/
theorem names_contributions_sublist (used : Nat) (content : Folder) :
    ((content.contributions used).map (·.1)).Sublist content.names := by
  induction content with
  | empty => exact List.Sublist.slnil
  | file name _ _ rest ih => exact ih.cons_cons name
  | link name _ rest ih | special name _ _ rest ih => exact ih.cons name
  | folder name _ _ rest _ ih =>
    rw [contributions, names]
    split
    · exact ih.cons name
    · exact ih.cons_cons name

/-- Parts of different names whose paths start with their names: sorting the names sorts the
    paths. -/
theorem pairwise_inNameOrder {parts : List (NativeText × List (List NativeText))}
    (hdistinct : (parts.map (·.1)).Nodup)
    (hstart : ∀ part ∈ parts, ∀ path ∈ part.2, ∃ below, path = part.1 :: below)
    (hparts : ∀ part ∈ parts, part.2.Pairwise (List.Lex NativeText.Before)) :
    (inNameOrder parts).Pairwise (List.Lex NativeText.Before) := by
  have hle : ∀ a b : NativeText × List (List NativeText),
      (!decide (b.1.bytes < a.1.bytes)) = true ↔ a.1.bytes ≤ b.1.bytes := by
    intro a b
    rw [Bool.not_eq_true', decide_eq_false_iff_not, List.not_lt]
  have hsorted : (parts.mergeSort fun a b => !decide (b.1.bytes < a.1.bytes)).Pairwise
      fun a b => (!decide (b.1.bytes < a.1.bytes)) = true := by
    refine List.pairwise_mergeSort (fun a b c => ?_) (fun a b => ?_) parts
    · simp only [hle]
      exact List.le_trans
    · rw [Bool.or_eq_true, hle, hle]
      exact List.le_total a.1.bytes b.1.bytes
  -- Sorting moves the parts, so that their names are still distinct.
  have hnames : (parts.mergeSort fun a b => !decide (b.1.bytes < a.1.bytes)).Pairwise
      fun a b => a.1 ≠ b.1 := by
    have hperm := (List.mergeSort_perm parts fun a b => !decide (b.1.bytes < a.1.bytes)).map (·.1)
    exact List.pairwise_map.mp (hperm.nodup_iff.mpr hdistinct)
  refine List.pairwise_flatMap.mpr ⟨fun part hpart => hparts part (List.mem_mergeSort.mp hpart), ?_⟩
  refine (hsorted.and hnames).imp_of_mem ?_
  rintro a b ha hb ⟨hab, hne⟩ path hpath other hother
  obtain ⟨_, rfl⟩ := hstart a (List.mem_mergeSort.mp ha) path hpath
  obtain ⟨_, rfl⟩ := hstart b (List.mem_mergeSort.mp hb) other hother
  -- Different names have different bytes, so the one in front has the lesser.
  have hlt : a.1.bytes < b.1.bytes := Decidable.byContradiction fun hnot =>
    hne (NativeText.bytes_inj (List.le_antisymm ((hle a b).mp hab) (List.not_lt.mp hnot)))
  exact .rel hlt

/-- What an entry contributes starts with its name. -/
theorem exists_below_of_mem_contributions {part : NativeText × List (List NativeText)}
    (hpart : part ∈ content.contributions used) (hpath : path ∈ part.2) :
    ∃ below, path = part.1 :: below := by
  induction content with
  | empty => cases hpart
  | file name _ _ rest ih =>
    obtain rfl | hpart := List.mem_cons.mp hpart
    · exact ⟨[], List.mem_singleton.mp hpath⟩
    · exact ih hpart
  | link _ _ rest ih | special _ _ _ rest ih => exact ih hpart
  | folder name _ inside rest _ ih =>
    rw [contributions] at hpart
    split at hpart
    · exact ih hpart
    · obtain rfl | hpart := List.mem_cons.mp hpart
      · obtain ⟨below, -, rfl⟩ := List.mem_map.mp hpath
        exact ⟨below, rfl⟩
      · exact ih hpart

/-- If the paths of each entry are in order, so are all of them. -/
theorem pairwise_inNameOrder_contributions (h : content.isProper = true)
    (hparts : ∀ part ∈ content.contributions used,
      part.2.Pairwise (List.Lex NativeText.Before)) :
    (inNameOrder (content.contributions used)).Pairwise (List.Lex NativeText.Before) :=
  pairwise_inNameOrder ((nodup_names h).sublist (names_contributions_sublist used content))
    (fun _ hpart _ hpath => exists_below_of_mem_contributions hpart hpath) hparts

/-- The paths that an entry contributes are in order. -/
theorem pairwise_contributions (h : content.isProper = true)
    {part : NativeText × List (List NativeText)} (hpart : part ∈ content.contributions used) :
    part.2.Pairwise (List.Lex NativeText.Before) := by
  -- By induction on the tree: inside a directory all paths get the same name in front.
  induction content generalizing used part with
  | empty => cases hpart
  | file name _ _ rest ih =>
    obtain rfl | hpart := List.mem_cons.mp hpart
    · exact List.pairwise_singleton _ _
    · exact ih (inherited_isProper.file h) hpart
  | link _ _ rest ih => exact ih (inherited_isProper.link h) hpart
  | special _ _ _ rest ih => exact ih (inherited_isProper.special h) hpart
  | folder name _ inside rest ihInside ih =>
    obtain ⟨hinside, hrest⟩ := inherited_isProper.folder h
    rw [contributions] at hpart
    split at hpart
    · exact ih hrest hpart
    · obtain rfl | hpart := List.mem_cons.mp hpart
      · have hinner : (inNameOrder (inside.contributions (used + name.size + 1))).Pairwise
            (List.Lex NativeText.Before) :=
          pairwise_inNameOrder_contributions hinside fun _ => ihInside hinside
        exact List.pairwise_map.mpr (hinner.imp .cons)
      · exact ih hrest hpart

/-- The paths are in the order of the bytes, name for name. -/
theorem pairwise_filePaths (h : content.isProper = true) :
    (content.filePaths used).Pairwise (List.Lex NativeText.Before) :=
  pairwise_inNameOrder_contributions h fun _ => pairwise_contributions h

end Folder

/-! ## The listing of the search directories -/

/-- No list of names comes before itself, nor before and behind another. -/
theorem NativeText.lex_asymm {path other : List NativeText} (h : List.Lex Before path other) :
    ¬ List.Lex Before other path := by
  -- By induction on where the two lists first differ.
  induction h with
  | nil => nofun
  | cons _ ih =>
    rintro (_ | hrel | hlex)
    · exact List.lt_irrefl _ hrel
    · exact ih hlex
  | rel h =>
    rintro (_ | hrel | hlex)
    · exact List.lt_asymm h hrel
    · exact List.lt_irrefl _ h

/-- The paths are those of the files below a directory on which every directory is entered, name for
    name in the order of the bytes, and no two of them are written alike. Without a directory there
    are none. -/
structure IsListing (m : Machine) (dir : String) (paths : List (List NativeText)) : Prop where
  mem_iff : ∀ path, path ∈ paths ↔
    ∃ content, m.folder? dir = some content ∧ content.Lists dir.utf8ByteSize path
  ordered : paths.Pairwise (List.Lex NativeText.Before)
  distinct : (paths.map NativeText.joined).Nodup

/-- Members and order determine a listing. -/
theorem IsListing.unique {m : Machine} {dir : String} {paths others : List (List NativeText)}
    (h : IsListing m dir paths) (hother : IsListing m dir others) : others = paths := by
  -- Two lists with the same members and without repetition differ by their order alone.
  have hperm : others.Perm paths := by
    refine (List.perm_ext_iff_of_nodup (.of_map _ hother.distinct) (.of_map _ h.distinct)).mpr ?_
    intro path
    rw [hother.mem_iff, h.mem_iff]
  refine hperm.eq_of_pairwise (fun path other _ _ hlt hlt' => ?_) hother.ordered h.ordered
  exact absurd hlt' (NativeText.lex_asymm hlt)

namespace Machine

/-- The paths below a directory in the order of the walk. -/
def listedPaths (m : Machine) (dir : String) : List (List NativeText) :=
  (m.folder? dir).elim [] (Folder.filePaths dir.utf8ByteSize)

/-- A directory is listed path by path. -/
theorem listDir_eq (m : Machine) (key : DirKey) (dir : String) :
    listDir m key dir = (m.listedPaths dir).map (.below key dir) := by
  rw [listDir, listedPaths]
  cases m.folder? dir <;> rfl

/-- The walk gives the listing of a directory. -/
theorem isListing_listedPaths {m : Machine} (hproper : m.root.isProper = true) (dir : String) :
    IsListing m dir (m.listedPaths dir) := by
  rw [listedPaths]
  cases hfolder : m.folder? dir with
  | none => exact ⟨by simp [hfolder], .nil, .nil⟩
  | some content =>
    obtain ⟨place, -, -, hplace⟩ := exists_place_of_folder? hfolder
    have hcontent : content.isProper = true := Folder.inherited_isProper.folderAt? hproper hplace
    have hordered : (content.filePaths dir.utf8ByteSize).Pairwise
        (List.Lex NativeText.Before) := Folder.pairwise_filePaths hcontent
    refine ⟨fun path => ?_, hordered, List.pairwise_map.mpr (hordered.imp_of_mem ?_)⟩
    · simp [hfolder, Folder.mem_filePaths_iff hcontent]
    · intro path other hpath hother hlt heq
      -- The names can be read off the paths, so two that are written alike are one.
      obtain ⟨hne, hnames⟩ := ((Folder.mem_filePaths_iff hcontent).mp hpath).noSlash hcontent
      obtain ⟨hne', hnames'⟩ := ((Folder.mem_filePaths_iff hcontent).mp hother).noSlash hcontent
      have hsame : path = other := NativeText.eq_of_joined_eq hne hne' hnames hnames' heq
      rw [hsame] at hlt
      exact NativeText.lex_asymm hlt hlt

end Machine

/-- In a tree of proper names, with links or without: there is one listing of each directory, and
    the search directories are listed one after the other in search order, each file with the key of
    its directory, the joined names of its path, and these behind the directory. Texts are joined as
    they are. Of other names the bytes are read, and the path keeps them. -/
theorem listed_files_exact {m : Machine} (hproper : m.root.isProper = true) (dirs : SearchDirs) :
    ∃ paths : String → List (List NativeText),
      (∀ dir others, IsListing m dir others ↔ others = paths dir) ∧
      (listIn m dirs = dirs.entries.entries.flatMap fun entry =>
        (paths entry.2).map (.below entry.1 entry.2)) ∧
      (∀ key dir names, ListEntry.below key dir (names.map .text) =
        ⟨key, Text.joinWith "/" names, .text (dir ++ Text.joinWith "/" names)⟩) ∧
      ∀ key dir path,
        (ListEntry.below key dir path).name = Text.joinWith "/"
          (path.map fun name => String.ofList (Text.readLossy none name.bytes)) ∧
        (ListEntry.below key dir path).path.bytes =
          dir.toUTF8.toList ++ [47].intercalate (path.map (·.bytes)) := by
  refine ⟨m.listedPaths, fun dir others => ⟨(m.isListing_listedPaths hproper dir).unique, ?_⟩, ?_,
    ListEntry.below_map_text, fun key dir path => ⟨?_, ?_⟩⟩
  · rintro rfl
    exact m.isListing_listedPaths hproper dir
  · simp only [listIn, Machine.listDir_eq]
  · simp only [ListEntry.below, NativeText.shown_eq]
  · rw [ListEntry.below, NativeText.bytes_append, NativeText.bytes_joined,
      Text.toUTF8_toList_eq_flatMap, NativeText.bytes]

/-- A hidden file, files in two hidden directories, a pipe, and two files whose joined names sort
    the other way round. -/
def hiddenContent : Folder :=
  .file "a.tpl" .empty ⟨0⟩ (.folder ".cache" ⟨0⟩ (.file "x.tpl" .empty ⟨0⟩ .empty)
    (.folder ".é" ⟨0⟩ (.file "y.tpl" .empty ⟨0⟩ .empty)
      (.folder "a" ⟨0⟩ (.file "b.tpl" .empty ⟨0⟩ .empty)
        (.special "pipe" (.ok .empty) ⟨0⟩ (.file ".top" .empty ⟨0⟩ .empty)))))

/-- The files that can be reached over names that are shown. -/
theorem lists_hiddenContent_iff {path : List NativeText} :
    hiddenContent.Lists 6 path ↔
      path = [.text "a.tpl"] ∨ path = [.text "a", .text "b.tpl"] ∨ path = [.text ".top"] := by
  have hcache : isHiddenName (.text ".cache") = true := by decide
  have haccent : isHiddenName (.text ".é") = true := by decide
  have hshown : isHiddenName (.text "a") = false := by decide
  have hshort : ¬ Folder.maxPathBytes < 6 + (NativeText.text "a").size := by decide
  rw [← Folder.mem_contributions_iff (by decide)]
  simp [hiddenContent, Folder.contributions, Folder.mem_inNameOrder, hcache, haccent, hshown,
    hshort, eq_comm]

/-- A machine with a hidden directory. -/
def hiddenMachine : Machine :=
  { root := .folder ".tpl" ⟨0⟩ hiddenContent .empty }

/-- The listing of the hidden directory itself. -/
theorem hiddenMachine_isListing :
    IsListing hiddenMachine "/.tpl/"
      [[.text ".top"], [.text "a", .text "b.tpl"], [.text "a.tpl"]] := by
  refine ⟨fun path => ?_, ?_, by decide⟩
  · have hfolder : hiddenMachine.folder? "/.tpl/" = some hiddenContent := rfl
    have hsize : "/.tpl/".utf8ByteSize = 6 := rfl
    simp only [hfolder, Option.some.injEq, exists_eq_left', hsize, lists_hiddenContent_iff,
      List.mem_cons, List.not_mem_nil, or_false]
    rw [or_comm, or_assoc, or_left_comm]
  · -- Names are compared by their bytes, one after the other.
    have hdot : NativeText.Before (.text ".top") (.text "a") := by
      unfold NativeText.Before
      decide
    have hfile : NativeText.Before (.text ".top") (.text "a.tpl") := by
      unfold NativeText.Before
      decide
    have hfolder : NativeText.Before (.text "a") (.text "a.tpl") := by
      unfold NativeText.Before
      decide
    simp [List.Lex.rel hdot, List.Lex.rel hfile, List.Lex.rel hfolder]

/-- A directory that is not there, and the hidden one. -/
def hiddenDirs : SearchDirs :=
  (({} : SearchDirs).push none "/missing").insertNamed none "site" "/.tpl"

/-- The hidden file is listed, and those in the hidden directories are not. -/
theorem hiddenDirs_listed :
    hiddenMachine.root.isProper = true ∧ "a.tpl" < "a/b.tpl" ∧
      listIn hiddenMachine hiddenDirs =
        [⟨.name "site", ".top", "/.tpl/.top"⟩, ⟨.name "site", "a/b.tpl", "/.tpl/a/b.tpl"⟩,
          ⟨.name "site", "a.tpl", "/.tpl/a.tpl"⟩] := by
  have hproper : hiddenMachine.root.isProper = true := by decide
  have hmissing : IsListing hiddenMachine "/missing/" [] := by
    have hfolder : hiddenMachine.folder? "/missing/" = none := rfl
    exact ⟨by simp [hfolder], .nil, .nil⟩
  have hentries : hiddenDirs.entries.entries =
      [(.index 0, "/missing/"), (.name "site", "/.tpl/")] := by
    decide
  obtain ⟨paths, hpaths, hlist, -⟩ := listed_files_exact hproper hiddenDirs
  -- The listings are determined, so it is enough to give them.
  refine ⟨hproper, by decide, ?_⟩
  rw [hlist, hentries]
  simp only [List.flatMap_cons, ← (hpaths _ _).mp hmissing,
    ← (hpaths _ _).mp hiddenMachine_isListing]
  rfl

/-- A name that starts with a dot and is no text. -/
def rawDotName : NativeText :=
  .raw [46, 255] rfl

/-- A file in a directory of that name. -/
def rawMachine : Machine :=
  { root := .folder "t" ⟨0⟩ (.folder rawDotName ⟨0⟩ (.file "x.tpl" .empty ⟨0⟩ .empty) .empty)
      .empty }

/-- The longest name. -/
def longName : String :=
  String.ofList (List.replicate Folder.maxNameBytes 'a')

/-- A file below some directories with long names. -/
def deepFolder : Nat → Folder
  | 0 => .file "x.tpl" .empty ⟨0⟩ .empty
  | depth + 1 => .folder longName ⟨0⟩ (deepFolder depth) .empty

/-- The characters of the longest name. -/
theorem toList_longName : longName.toList = List.replicate 255 'a' :=
  String.toList_ofList

/-- Each of them is one byte. -/
theorem size_longName : longName.utf8ByteSize = 255 := by
  decide +kernel

/-- It does not start with a dot. -/
theorem isHiddenName_longName : isHiddenName (.text longName) = false := by
  rw [isHiddenName, toList_longName]
  rfl

/-- It can stand in a directory. -/
theorem isProperName_longName : Folder.isProperName (.text longName) = true := by
  -- Evaluating the test would go through all the characters.
  have hmem : ∀ c ∈ longName.toList, c = 'a' := by
    rw [toList_longName]
    exact fun c => List.eq_of_mem_replicate
  refine Folder.isProperName_iff.mpr ⟨⟨?_, ?_, fun hslash => ?_⟩, fun hnul => ?_, size_longName.le⟩
  · rw [toList_longName]
    rfl
  · rw [toList_longName]
    nofun
  · exact absurd (hmem _ hslash) (by decide)
  · exact absurd (hmem _ hnul) (by decide)

/-- The tree is proper. -/
theorem isProper_deepFolder (depth : Nat) : (deepFolder depth).isProper = true := by
  induction depth with
  | zero => decide
  | succ depth ih => simp [deepFolder, Folder.isProper, Folder.names, isProperName_longName, ih]

/-- The file is there. -/
theorem entryAt?_deepFolder (depth : Nat) :
    (deepFolder depth).entryAt? (List.replicate depth (.text longName) ++ [.text "x.tpl"]) =
      some (.file .empty ⟨0⟩) := by
  induction depth with
  | zero => rfl
  | succ depth ih =>
    rw [List.replicate_succ, List.cons_append, Folder.entryAt?, deepFolder, Folder.child?,
      if_pos BEq.rfl]
    · exact ih
    · simp

/-- The walk stops at a directory whose path is too long. -/
theorem filePaths_deepFolder {used depth : Nat}
    (h : Folder.maxPathBytes < used + depth * 256 + 255) :
    (deepFolder (depth + 1)).filePaths used = [] := by
  have hsize : (NativeText.text longName).size = 255 := size_longName
  have hnone : Folder.inNameOrder (Folder.contributions used .empty) = [] := by
    simp [Folder.contributions, Folder.inNameOrder]
  -- By induction on how far down the file is, for every path to the directory.
  induction depth generalizing used with
  | zero =>
    have hlong : Folder.maxPathBytes < used + 255 := by omega
    rw [deepFolder, Folder.filePaths, Folder.contributions, hsize, if_pos (by simp [hlong]), hnone]
  | succ depth ih =>
    rw [deepFolder, Folder.filePaths, Folder.contributions, hsize]
    split
    · exact hnone
    · -- The file is still too far down, seen from the next directory.
      have hinside : Folder.inNameOrder
          (Folder.contributions (used + 255 + 1) (deepFolder (depth + 1))) = [] :=
        ih (by omega) (by simp [Folder.contributions, Folder.inNameOrder])
      rw [hinside]
      simp [Folder.contributions, Folder.inNameOrder]

/-- A file so far down that the path of its directory is too long. -/
def deepMachine : Machine :=
  { root := .folder "t" ⟨0⟩ (deepFolder 16) .empty }

/-- The directory of the two machines. -/
def topDirs : SearchDirs :=
  ({} : SearchDirs).push none "/t"

/-- A directory is entered although its name starts with a dot, since its name is no text. What is
    shown of the file is not what its path is made of. And a file is not listed although no
    directory above it is hidden, since the path of its directory is too long to be opened. -/
theorem odd_folders_listed :
    rawMachine.root.isLinkFree = true ∧ rawMachine.root.isProper = true ∧
      rawDotName.bytes.head? = some 46 ∧
      (listIn rawMachine topDirs).map (·.name) = [".\ufffd/x.tpl"] ∧
      (∀ e ∈ listIn rawMachine topDirs, e.path ≠ .text ("/t/" ++ e.name)) ∧
      deepMachine.root.isLinkFree = true ∧ deepMachine.root.isProper = true ∧
      (∃ bytes modified, (deepFolder 16).entryAt?
        (List.replicate 16 (.text longName) ++ [.text "x.tpl"]) = some (.file bytes modified)) ∧
      isHiddenName (.text longName) = false ∧ listIn deepMachine topDirs = [] := by
  -- The walk is not evaluated, since the path would have to grow to its limit.
  have hlisted : listIn deepMachine topDirs = [] := by
    show ((deepFolder 16).filePaths 3).map _ ++ [] = []
    rw [filePaths_deepFolder (by decide)]
    rfl
  have hproper : deepMachine.root.isProper = true := by
    simp [deepMachine, Folder.isProper, Folder.names, isProper_deepFolder]
    decide
  exact ⟨rfl, by decide +kernel, rfl, by decide +kernel, by decide +kernel, rfl, hproper,
    ⟨_, _, entryAt?_deepFolder 16⟩, isHiddenName_longName, hlisted⟩

end TagPress
