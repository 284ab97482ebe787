import TagPress.Proofs.DirectorySignature
import TagPress.Proofs.FoundFile
import TagPress.Text.Alphanumeric

/-!
# Stored directories and their keys

A search directory is stored in canonical form with one slash at its end, unless backslashes become
slashes behind the back of the canonical form. So a name that is put behind a stored directory gives
a canonical path again, and walking to it is walking to the directory and on. A directory is asked
for by its key. The written form of a key leads back to its directory, except that a name goes
before a number: a directory that has a numeral as its name takes the place of the one with that
number.

## Key results

- `Path.Trail.Canonical.isStored`: canonical paths without backslashes are stored canonical
- `Path.IsStored.normalize_append`: what lies below a stored directory is canonical
- `Path.IsStored.steps_append`: the names on the way to what lies below a stored directory
- `SearchDirs.Built.resolveToken?_render`: the directory that a written key refers to
- `SearchDirs.PlainlyBuilt.forall_entries`: keys and directories of a set without backslashes
-/

namespace TagPress

/-! ## Directories -/

namespace Path

/-- The written form of a trail with a slash behind every segment. -/
def Trail.directory (t : Trail) : String :=
  String.ofList ((if t.rooted then ['/'] else []) ++ slashed t.back.reverse)

/-- A directory in stored form: a canonical path with one slash at its end. -/
def IsStored (dir : String) : Prop :=
  ∃ t : Trail, t.Canonical ∧ (t.back = [] → t.rooted = true) ∧ dir = t.directory

/-- Apart from the root, a directory is a path with a slash at its end. -/
theorem Trail.directory_eq {t : Trail} (h : t.back ≠ []) : t.directory = t.render ++ "/" := by
  have hreverse : t.back.reverse ≠ [] := by simpa using h
  rw [← String.toList_inj, directory, render, String.toList_append, String.toList_ofList,
    String.toList_ofList, slashed_eq hreverse, ← List.append_assoc]
  rfl

/-- The written form of a trail with segments ends in the last of them. -/
theorem Trail.Canonical.getLast?_render {t : Trail} (h : t.Canonical) (hback : t.back ≠ []) :
    t.render.toList.getLast? ≠ some '/' := by
  obtain ⟨last, rest, hrest⟩ := List.exists_cons_of_ne_nil hback
  obtain ⟨hne, hslash⟩ := h.segment (hrest ▸ List.mem_cons_self)
  -- The last segment is not empty, so the path ends in its last character.
  have hlast : t.render.toList.getLast? = last.getLast? := by
    have hjoin : joinSegments [last] = last := List.intercalate_singleton ..
    rw [render, String.toList_ofList, hrest, List.reverse_cons,
      joinSegments_append rest.reverse (List.cons_ne_nil last []), hjoin, ← List.append_assoc,
      List.getLast?_append]
    cases hend : last.getLast? with
    | none => exact absurd (List.getLast?_eq_none_iff.mp hend) hne
    | some c => rfl
  rw [hlast]
  exact fun hend => hslash (List.mem_of_getLast? hend)

/-- Taking a path from another brings no characters in but a slash. -/
theorem notMem_join {c : Char} {a b : String} (hc : c ≠ '/') (ha : c ∉ a.toList)
    (hb : c ∉ b.toList) : c ∉ (join a b).toList := by
  unfold join
  repeat' split
  · exact hb
  · simp [ha, hb]
  · simp [ha, hb, hc]

/-- A canonical path without backslashes is stored canonical. -/
theorem Trail.Canonical.isStored {t : Trail} (h : t.Canonical) (hslash : '\\' ∉ t.render.toList) :
    IsStored (withTrailingSeparator t.render) := by
  rw [withTrailingSeparator, unify_eq_self hslash]
  by_cases hback : t.back = []
  · -- The root loses its slash and gets it back; the empty path becomes the root.
    refine ⟨⟨true, []⟩, ⟨[], 0, rfl, by simp, fun _ => rfl⟩, fun _ => rfl, ?_⟩
    rw [Trail.render, hback, String.toList_ofList]
    cases t.rooted <;> rfl
  · refine ⟨t, h, fun hnil => absurd hnil hback, ?_⟩
    have hkept : t.render.toList.reverse.dropWhile (· == '/') = t.render.toList.reverse := by
      have hlast := h.getLast?_render hback
      rw [← List.head?_reverse] at hlast
      cases hreverse : t.render.toList.reverse with
      | nil => rfl
      | cons c rest =>
        rw [hreverse] at hlast
        exact List.dropWhile_cons_of_neg fun hc => hlast (by rw [eq_of_beq hc]; rfl)
    rw [hkept, List.reverse_reverse, Trail.directory_eq hback, String.ofList_append,
      String.ofList_toList]

/-! ## Below a directory -/

/-- A path below a directory is written from the longer trail. -/
theorem Trail.directory_append (t : Trail) {names : List (List Char)} (h : names ≠ []) :
    t.directory ++ String.ofList (joinSegments names) =
      Trail.render ⟨t.rooted, names.reverse ++ t.back⟩ := by
  rw [directory, render, ← String.ofList_append, List.reverse_append, List.reverse_reverse,
    joinSegments_append t.back.reverse h, List.append_assoc]

/-- Names on top of a canonical trail keep it canonical. -/
theorem Trail.Canonical.append {t : Trail} (h : t.Canonical) {names : List (List Char)}
    (hnames : ∀ name ∈ names, IsName name) :
    Trail.Canonical ⟨t.rooted, names.reverse ++ t.back⟩ := by
  obtain ⟨inner, climbs, hback, hinner, hrooted⟩ := h
  refine ⟨names.reverse ++ inner, climbs, ?_, ?_, hrooted⟩
  · rw [hback, List.append_assoc]
  · intro name hname
    obtain hname | hname := List.mem_append.mp hname
    · exact hnames name (List.mem_reverse.mp hname)
    · exact hinner name hname

namespace IsStored

variable {dir : String} {names : List (List Char)}

/-- What lies below a stored directory is canonical. -/
theorem normalize_append (h : IsStored dir) (hne : names ≠ [])
    (hnames : ∀ name ∈ names, IsName name) :
    normalize (dir ++ String.ofList (joinSegments names)) =
      dir ++ String.ofList (joinSegments names) := by
  obtain ⟨t, ht, -, rfl⟩ := h
  rw [t.directory_append hne, normalize_eq_render, (ht.append hnames).trail_render]

/-- The directory is asked for with a dot, and what lies below it with its own names in place of the
    dot. -/
theorem steps_append (h : IsStored dir) (hne : names ≠ [])
    (hnames : ∀ name ∈ names, IsName name) :
    ∃ way, Folder.steps dir = way ++ ["."] ∧
      Folder.steps (dir ++ String.ofList (joinSegments names)) =
        way ++ names.map String.ofList := by
  obtain ⟨t, ht, hroot, rfl⟩ := h
  refine ⟨t.back.reverse.map String.ofList, ?_, ?_⟩
  · -- The root is its own slash, and any other directory gets one behind its path.
    by_cases hback : t.back = []
    · rw [Trail.directory, hroot hback, hback]
      rfl
    · rw [Trail.directory_eq hback, Folder.steps_append_slash, Folder.namesOf_segments_render ht]
  · rw [t.directory_append hne, Folder.steps_render (ht.append hnames) (by simp [hne])]
    simp

/-- What lies below a stored directory is absolute exactly if the directory is. -/
theorem isAbsolute_append (h : IsStored dir) (name : String) :
    isAbsolute (dir ++ name) = isAbsolute dir := by
  -- A stored directory has a first character, which decides.
  have hne : dir.toList ≠ [] := by
    obtain ⟨t, -, hroot, rfl⟩ := h
    rw [Trail.directory, String.toList_ofList]
    by_cases hback : t.back = []
    · simp [hroot hback]
    · rw [slashed_eq (by simpa using hback)]
      simp
  obtain ⟨c, cs, hcs⟩ := List.exists_cons_of_ne_nil hne
  rw [isAbsolute, isAbsolute, String.toList_append, hcs]
  rfl

end IsStored

end Path

/-! ## Keys -/

namespace SearchDirs

/-- The keys of a set are distinct. -/
theorem Built.nodup_keys {s : SearchDirs} (h : s.Built) : s.entries.keys.Nodup := by
  induction h with
  | empty => exact List.nodup_nil
  | push _ _ _ ih => exact OrderedMap.nodup_keys_insert ih _ _
  | insertNamed _ _ _ _ ih => exact OrderedMap.nodup_keys_insert ih _ _

/-- The directory that has the numeral of a number key as its name. -/
def shadow? (s : SearchDirs) : DirKey → Option String
  | .index n => s.get? (.name (Text.showNat n))
  | .name _ => none

/-- The written form of a key refers to the directory of the key, or to the one in its shadow. -/
theorem Built.resolveToken?_render {s : SearchDirs} (h : s.Built) {key : DirKey} {dir : String}
    (hmem : (key, dir) ∈ s.entries.entries) :
    s.resolveToken? key.render = some ((s.shadow? key).getD dir) := by
  have hget : s.get? key = some dir := OrderedMap.get?_of_mem h.nodup_keys hmem
  cases key with
  | name text => simp only [resolveToken?, DirKey.render, hget, shadow?, Option.getD_none]
  | index n =>
    -- A name goes first; only without one is the numeral read back.
    simp only [resolveToken?, DirKey.render, shadow?]
    cases s.get? (.name (Text.showNat n)) with
    | some other => rfl
    | none => simp only [Text.readNat?_showNat, hget, Option.getD_none]

/-- Whether a character is a letter, a digit, `_` or `-`. -/
def isKeyChar (c : Char) : Bool :=
  Text.isWordChar c || c == '-'

/-- Whether a name of a directory is not empty and made of letters, digits, `_` and `-`. -/
def isKeyName (name : String) : Bool :=
  !name.isEmpty && name.toList.all isKeyChar

/-- The names of keys, character by character. -/
theorem isKeyName_iff {name : String} :
    isKeyName name = true ↔ name ≠ "" ∧ ∀ c ∈ name.toList, isKeyChar c = true := by
  rw [isKeyName, Bool.and_eq_true, List.all_eq_true, Bool.not_eq_true', ← Bool.not_eq_true,
    String.isEmpty_iff]

/-- Numerals are such names. -/
theorem isKeyName_showNat (n : Nat) : isKeyName (Text.showNat n) = true := by
  have hdigits : ∀ c ∈ Nat.toDigits 10 n, c.isDigit = true := fun c hc =>
    Nat.isDigit_of_mem_toDigits (by decide) (by decide) hc
  rw [isKeyName_iff, Text.showNat, String.toList_ofList]
  constructor
  · intro hempty
    rw [← String.toList_inj, String.toList_ofList] at hempty
    exact Nat.toDigits_ne_nil hempty
  · intro c hc
    -- Below 128 no table is needed to tell a digit.
    have hsmall : c.toNat < 128 := by
      have hdigit := hdigits c hc
      simp only [Char.isDigit, Bool.and_eq_true, decide_eq_true_eq, UInt32.le_iff_toNat_le]
        at hdigit
      exact Nat.lt_of_le_of_lt hdigit.2 (by decide)
    simp [isKeyChar, Text.isWordChar, Text.isAlphanumeric, hsmall, Char.isAlphanum, hdigits c hc]

/-- A character that is none of these does not occur in such a name. -/
theorem notMem_of_isKeyName {name : String} (h : isKeyName name = true) {c : Char}
    (hc : isKeyChar c = false) : c ∉ name.toList := by
  intro hmem
  rw [(isKeyName_iff.mp h).2 c hmem] at hc
  cases hc

/-- Blanks do not occur in such names. -/
theorem isKeyChar_of_isBlank {c : Char} (h : Text.isBlank c = true) : isKeyChar c = false := by
  have hne : ∀ d, Text.isBlank d = false → (c == d) = false := by
    intro d hd
    rw [beq_eq_false_iff_ne]
    rintro rfl
    rw [h] at hd
    cases hd
  rw [isKeyChar, Text.isWordChar, Text.isAlphanumeric_of_isBlank h, hne '_' (by decide),
    hne '-' (by decide)]
  rfl

/-! ## Sets without backslashes -/

/-- Neither the directory nor, where it counts, the working directory has a backslash. -/
def BackslashFree (workingDir : Option String) (dir : String) : Prop :=
  '\\' ∉ dir.toList ∧ (Path.isAbsolute dir = false → ∀ w ∈ workingDir, '\\' ∉ w.toList)

/-- Search directories that were added one after the other, without backslashes and under names of
    letters, digits, `_` and `-`. -/
inductive PlainlyBuilt : SearchDirs → Prop where
  | empty : PlainlyBuilt {}
  | push {s : SearchDirs} (h : PlainlyBuilt s) {workingDir : Option String} {dir : String}
      (hdir : BackslashFree workingDir dir) : PlainlyBuilt (s.push workingDir dir)
  | insertNamed {s : SearchDirs} (h : PlainlyBuilt s) {workingDir : Option String}
      {name dir : String} (hdir : BackslashFree workingDir dir) (hname : isKeyName name = true) :
      PlainlyBuilt (s.insertNamed workingDir name dir)

/-- Leaving backslashes out is one way to build a set. -/
theorem PlainlyBuilt.built {s : SearchDirs} (h : s.PlainlyBuilt) : s.Built := by
  induction h with
  | empty => exact .empty
  | push _ _ ih => exact ih.push _ _
  | insertNamed _ _ _ ih => exact ih.insertNamed _ _ _

/-- A directory without backslashes is stored canonical. -/
theorem BackslashFree.isStored {workingDir : Option String} {dir : String}
    (h : BackslashFree workingDir dir) : Path.IsStored (prepare workingDir dir) := by
  -- The canonical form only leaves characters out, so it brings no backslash in.
  have hnormal : ∀ p : String, '\\' ∉ p.toList →
      Path.IsStored (Path.withTrailingSeparator (Path.normalize p)) := by
    intro p hp
    have hsub := Path.normalize_sublist p
    rw [Path.normalize_eq_render] at hsub ⊢
    exact (Path.Trail.canonical_trail p).isStored fun hmem => hp (hsub.subset hmem)
  rw [prepare]
  unfold Path.absolute
  split
  · exact hnormal dir h.1
  · rename_i hrelative
    split
    · rename_i w
      have hw : '\\' ∉ w.toList := h.2 (Bool.not_eq_true _ ▸ hrelative) w rfl
      exact hnormal _ (Path.notMem_join (by decide) hw h.1)
    · exact hnormal dir h.1

/-- In a set without backslashes every directory is stored canonical, and every name is a name of
    letters, digits, `_` and `-`. -/
theorem PlainlyBuilt.forall_entries {s : SearchDirs} (h : s.PlainlyBuilt) :
    ∀ entry ∈ s.entries.entries,
      isKeyName entry.1.render = true ∧ Path.IsStored entry.2 := by
  -- By induction on how the set was built.
  induction h with
  | empty => nofun
  | push _ hdir ih =>
    intro entry hentry
    obtain rfl | hold := OrderedMap.mem_insertEntry hentry
    · exact ⟨isKeyName_showNat _, hdir.isStored⟩
    · exact ih entry hold
  | insertNamed _ hdir hname ih =>
    intro entry hentry
    obtain rfl | hold := OrderedMap.mem_insertEntry hentry
    · exact ⟨hname, hdir.isStored⟩
    · exact ih entry hold

end SearchDirs

end TagPress
