import TagPress.Proofs.CacheIdentity
import TagPress.Proofs.CanonicalPath
import TagPress.Settings

/-!
# Signatures of search directories

The search directories of a class go into every cache identity as one text, with a number sign
between them. Every stored directory ends in a slash, so what the text of one directory can be
mistaken for is known: a number sign behind a slash, with the beginning of a directory behind it.
Where no directory has such a place, the directories can be read off the signature. But a directory
may be named with a number sign, and then one directory can stand for two: every set of two or more
directories, the first of them absolute, shares its signature with a set that is shorter by one.

## Key results

- `SearchDirs.Built.dirs_push`: directories without a name go to the end
- `SearchDirs.joinWith_inj`: lists of directories that can be read off their signature
- `uid_eq_iff_dirs_eq`: the identities of one path under two sets of directories
- `SearchDirs.Built.exists_joined_eq`: signatures that stand for two sets
- `numberSign_uid_eq`: two sets of directories under which one file has the same identity
-/

namespace TagPress

namespace SearchDirs

/-! ## Sets of directories -/

/-- Search directories that were added one after the other, each seen from some working directory
    or from none. -/
inductive Built : SearchDirs → Prop where
  | empty : Built {}
  | push {s : SearchDirs} (h : Built s) (workingDir : Option String) (dir : String) :
      Built (s.push workingDir dir)
  | insertNamed {s : SearchDirs} (h : Built s) (workingDir : Option String) (name dir : String) :
      Built (s.insertNamed workingDir name dir)

/-- An insertion brings in no value besides its own. -/
theorem mem_values_insert {entries : OrderedMap DirKey String} {key : DirKey} {value dir : String}
    (h : dir ∈ (entries.insert key value).values) : dir = value ∨ dir ∈ entries.values := by
  obtain ⟨entry, hentry, rfl⟩ := List.mem_map.mp h
  obtain rfl | hold := OrderedMap.mem_insertEntry hentry
  · exact .inl rfl
  · exact .inr (List.mem_map_of_mem hold)

/-- Every directory of a set is the stored form of one that was given. -/
theorem Built.exists_prepare {s : SearchDirs} (h : s.Built) {dir : String} (hdir : dir ∈ s.dirs) :
    ∃ workingDir given, dir = prepare workingDir given := by
  -- By induction on how the set was built; only what is added is new.
  induction h with
  | empty => cases hdir
  | push _ workingDir given ih =>
    obtain rfl | hold := mem_values_insert hdir
    · exact ⟨workingDir, given, rfl⟩
    · exact ih hold
  | insertNamed _ workingDir _ given ih =>
    obtain rfl | hold := mem_values_insert hdir
    · exact ⟨workingDir, given, rfl⟩
    · exact ih hold

/-- Only numbers below the counter have been given. -/
theorem Built.index_lt {s : SearchDirs} (h : s.Built) {n : Nat}
    (hn : .index n ∈ s.entries.entries.map (·.1)) : n < s.unnamed := by
  -- By induction on how the set was built; only an addition without a name gives a number.
  induction h with
  | empty => cases hn
  | push _ workingDir given ih =>
    obtain ⟨entry, hentry, hkey⟩ := List.mem_map.mp hn
    simp only [SearchDirs.push]
    obtain rfl | hold := OrderedMap.mem_insertEntry hentry
    · cases hkey
      omega
    · have hlt := ih (hkey ▸ List.mem_map_of_mem hold)
      omega
  | insertNamed _ workingDir _ given ih =>
    obtain ⟨entry, hentry, hkey⟩ := List.mem_map.mp hn
    obtain rfl | hold := OrderedMap.mem_insertEntry hentry
    · cases hkey
    · exact ih (hkey ▸ List.mem_map_of_mem hold)

/-- A directory without a name goes to the end. -/
theorem Built.dirs_push {s : SearchDirs} (h : s.Built) (workingDir : Option String)
    (given : String) :
    (s.push workingDir given).dirs = s.dirs ++ [prepare workingDir given] := by
  -- The counter was never given out, so the insertion does not replace anything.
  have hnew : DirKey.index s.unnamed ∉ s.entries.entries.map (·.1) := fun hmem =>
    absurd (h.index_lt hmem) (by omega)
  simp only [dirs, SearchDirs.push, OrderedMap.values, OrderedMap.insert,
    OrderedMap.insertEntry_of_notMem hnew, List.map_append, List.map_cons, List.map_nil]

/-- Stored directories can be added one after the other. -/
theorem Built.exists_append {s : SearchDirs} (h : s.Built) {ds : List String}
    (hds : ∀ d ∈ ds, ∃ workingDir given, d = prepare workingDir given) :
    ∃ s' : SearchDirs, s'.Built ∧ s'.dirs = s.dirs ++ ds := by
  induction ds generalizing s with
  | nil => exact ⟨s, h, (List.append_nil _).symm⟩
  | cons d ds ih =>
    obtain ⟨⟨workingDir, given, rfl⟩, hrest⟩ := List.forall_mem_cons.mp hds
    obtain ⟨s', hs', hdirs⟩ := ih (h.push workingDir given) hrest
    refine ⟨s', hs', ?_⟩
    rw [hdirs, h.dirs_push, List.append_assoc, List.singleton_append]

/-! ## Reading directories off a signature -/

/-- What follows the first directory in a signature. -/
def behind : List String → List Char
  | [] => []
  | dirs => '#' :: (Text.joinWith "#" dirs).toList

/-- A signature is its first directory and what follows. -/
theorem toList_joinWith_cons (d : String) (ds : List String) :
    (Text.joinWith "#" (d :: ds)).toList = d.toList ++ behind ds := by
  cases ds with
  | nil => simp [Text.joinWith, behind]
  | cons e ds => simp [Text.joinWith, behind]

/-- What follows a directory determines the signature of the others. -/
theorem joinWith_eq_of_behind {ds es : List String} (h : behind ds = behind es) :
    Text.joinWith "#" ds = Text.joinWith "#" es := by
  cases ds with
  | nil =>
    cases es with
    | nil => rfl
    | cons e es => cases h
  | cons d ds =>
    cases es with
    | nil => cases h
    | cons e es => exact String.toList_inj.mp (List.cons.inj h).2

/-- In no directory does a number sign stand between a slash and the first character of a directory.
    For absolute directories that is to say that none has the segment `#`. -/
def Unmistakable (dirs : List String) : Prop :=
  ∀ d ∈ dirs, ∀ e ∈ dirs, ∀ c ∈ e.toList.head?, ¬ ['/', '#', c] <:+: d.toList

/-- Fewer directories can be mistaken for less. -/
theorem Unmistakable.subset {ds es : List String} (h : Unmistakable ds) (hsub : es ⊆ ds) :
    Unmistakable es := fun d hd e he => h d (hsub hd) e (hsub he)

/-- If a directory goes on where another ends, what it goes on with would be the beginning of the
    directories behind that one. -/
theorem eq_nil_of_behind {d e : String} {ds : List String} {extra rest : List Char}
    (hd : d.toList.getLast? = some '/') (he : e.toList.getLast? = some '/')
    (hds : ∀ dir ∈ ds, dir.toList.getLast? = some '/')
    (hclear : ∀ dir ∈ ds, ∀ c ∈ dir.toList.head?, ¬ ['/', '#', c] <:+: e.toList)
    (hextra : e.toList = d.toList ++ extra) (hbehind : behind ds = extra ++ rest) : extra = [] := by
  -- First the number sign, then the first character of the next directory, which is excluded.
  cases extra with
  | nil => rfl
  | cons sign extra =>
    cases ds with
    | nil => cases hbehind
    | cons first ds =>
      obtain ⟨rfl, hjoined⟩ := List.cons.inj hbehind
      rw [toList_joinWith_cons] at hjoined
      cases extra with
      | nil =>
        -- The number sign would end the directory, but a slash does.
        rw [hextra, List.getLast?_concat] at he
        cases he
      | cons c extra =>
        cases hfirst : first.toList with
        | nil =>
          have hend := hds first List.mem_cons_self
          rw [hfirst] at hend
          cases hend
        | cons c' cs =>
          rw [hfirst] at hjoined
          obtain ⟨rfl, -⟩ := List.cons.inj hjoined
          obtain ⟨front, hfront⟩ := List.getLast?_eq_some_iff.mp hd
          refine absurd ?_ (hclear first List.mem_cons_self c' (by rw [hfirst]; rfl))
          exact ⟨front, extra, by rw [hextra, hfront]; simp⟩

/-- A signature with a directory is not the empty text. -/
theorem joinWith_cons_ne_empty {d : String} (hd : d.toList.getLast? = some '/')
    (ds : List String) : Text.joinWith "#" (d :: ds) ≠ "" := by
  intro hempty
  have hnil : d.toList ++ behind ds = [] := by
    rw [← toList_joinWith_cons, hempty]
    rfl
  rw [(List.append_eq_nil_iff.mp hnil).1] at hd
  cases hd

/-- Directories that end in slashes and cannot be mistaken for several can be read off their
    signature. -/
theorem joinWith_inj {ds es : List String} (hds : ∀ d ∈ ds, d.toList.getLast? = some '/')
    (hes : ∀ e ∈ es, e.toList.getLast? = some '/') (hclear : Unmistakable (ds ++ es))
    (h : Text.joinWith "#" ds = Text.joinWith "#" es) : ds = es := by
  -- The first directories are compared, and the others have a shorter signature.
  induction ds generalizing es with
  | nil =>
    cases es with
    | nil => rfl
    | cons e es => exact absurd h.symm (joinWith_cons_ne_empty (hes e List.mem_cons_self) es)
  | cons d ds ih =>
    cases es with
    | nil => exact absurd h (joinWith_cons_ne_empty (hds d List.mem_cons_self) ds)
    | cons e es =>
      obtain ⟨hd, hrest⟩ := List.forall_mem_cons.mp hds
      obtain ⟨he, hrest'⟩ := List.forall_mem_cons.mp hes
      have htext : d.toList ++ behind ds = e.toList ++ behind es := by
        rw [← toList_joinWith_cons, ← toList_joinWith_cons, h]
      have hmemd : d ∈ (d :: ds) ++ (e :: es) := by simp
      have hmeme : e ∈ (d :: ds) ++ (e :: es) := by simp
      -- One of the two first directories goes on where the other ends, and then with nothing.
      obtain ⟨rfl, hbehind⟩ : d = e ∧ behind ds = behind es := by
        obtain ⟨extra, hextra, hbehind⟩ | ⟨extra, hextra, hbehind⟩ :=
          List.append_eq_append_iff.mp htext
        · have hnil : extra = [] := eq_nil_of_behind hd he hrest
            (fun dir hdir => hclear e hmeme dir (by simp [hdir])) hextra hbehind
          rw [hnil, List.append_nil] at hextra
          rw [hnil, List.nil_append] at hbehind
          exact ⟨String.toList_inj.mp hextra.symm, hbehind⟩
        · have hnil : extra = [] := eq_nil_of_behind he hd hrest'
            (fun dir hdir => hclear d hmemd dir (by simp [hdir])) hextra hbehind
          rw [hnil, List.append_nil] at hextra
          rw [hnil, List.nil_append] at hbehind
          exact ⟨String.toList_inj.mp hextra, hbehind.symm⟩
      -- The first directories are gone, and the rest cannot be mistaken either.
      have hsub : ds ++ es ⊆ (d :: ds) ++ (d :: es) := by
        intro dir hdir
        obtain hdir | hdir := List.mem_append.mp hdir <;> simp [hdir]
      rw [ih hrest hrest' (hclear.subset hsub) (joinWith_eq_of_behind hbehind)]

/-- Absolute directories cannot be mistaken for several unless one of them has the segment `#`. -/
theorem unmistakable_of_isAbsolute {dirs : List String}
    (h : ∀ d ∈ dirs, Path.isAbsolute d = true ∧ ['#'] ∉ Path.segments d) : Unmistakable dirs := by
  rintro d hd e he c hc ⟨front, back, hinfix⟩
  -- All directories start with a slash, so a number sign between two slashes would be a segment.
  have hslash : c = '/' := by
    have habsolute := (h e he).1
    rw [Path.isAbsolute, beq_iff_eq] at habsolute
    exact Option.some.inj (hc.symm.trans habsolute)
  refine (h d hd).2 ?_
  rw [Path.segments, ← hinfix, hslash]
  have hsplit : (front ++ '/' :: (['#'] ++ '/' :: back)).splitOn '/' =
      front.splitOn '/' ++ (['#'].splitOn '/' ++ back.splitOn '/') := by
    rw [List.splitOn_append_cons_self, List.splitOn_append_cons_self]
  have hmem : ['#'] ∈ (front ++ '/' :: (['#'] ++ '/' :: back)).splitOn '/' := by
    rw [hsplit]
    exact List.mem_append_right _ (List.mem_append_left _ List.mem_cons_self)
  simpa using hmem

/-! ## Stored directories -/

/-- A stored directory has one slash at its end and no backslash. -/
theorem toList_prepare (workingDir : Option String) (given : String) :
    ∃ cs, (prepare workingDir given).toList = cs ++ ['/'] ∧ cs.getLast? ≠ some '/' ∧
      '\\' ∉ cs := by
  rw [prepare, Path.withTrailingSeparator]
  -- Whatever the path is, it is unified and its slashes at the end are replaced by one.
  generalize Path.absolute workingDir given = dir
  refine ⟨((Path.unify dir).toList.reverse.dropWhile (· == '/')).reverse,
    String.toList_ofList, ?_, ?_⟩
  · rw [List.getLast?_reverse]
    generalize (Path.unify dir).toList.reverse = back
    intro hhead
    have hstop := List.head?_dropWhile_not (fun c : Char => c == '/') back
    rw [hhead] at hstop
    exact absurd hstop (by decide)
  · intro hmem
    have hunified : '\\' ∈ (Path.unify dir).toList :=
      List.mem_reverse.mp (List.dropWhile_subset _ (List.mem_reverse.mp hmem))
    exact Path.backslash_notMem_unify dir hunified

/-- All directories of a set end in a slash. -/
theorem Built.getLast?_eq {s : SearchDirs} (h : s.Built) :
    ∀ dir ∈ s.dirs, dir.toList.getLast? = some '/' := by
  intro dir hdir
  obtain ⟨workingDir, given, rfl⟩ := h.exists_prepare hdir
  obtain ⟨cs, hcs, -⟩ := toList_prepare workingDir given
  rw [hcs, List.getLast?_concat]

/-- The directories of a set can be read off its signature if they are unmistakable. -/
theorem Built.joined_eq_iff {s s' : SearchDirs} (h : s.Built) (h' : s'.Built)
    (hclear : Unmistakable (s.dirs ++ s'.dirs)) : s.joined = s'.joined ↔ s.dirs = s'.dirs := by
  refine ⟨joinWith_inj h.getLast?_eq h'.getLast?_eq hclear, fun hdirs => ?_⟩
  rw [joined, joined, hdirs]

/-! ## Shared signatures -/

/-- A text with backslashes in place of its slashes, which is one name. -/
def hideSlashes (cs : List Char) : List Char :=
  cs.map fun c => if c == '/' then '\\' else c

/-- With its slashes hidden, a text with a number sign is a name. -/
theorem isName_hideSlashes {cs : List Char} (h : '#' ∈ cs) : Path.IsName (hideSlashes cs) := by
  have hsign : '#' ∈ hideSlashes cs := List.mem_map.mpr ⟨'#', h, rfl⟩
  -- The sign is in none of the texts that are no names.
  have hne : ∀ {other : List Char}, '#' ∉ other → hideSlashes cs ≠ other := fun hother heq =>
    hother (heq ▸ hsign)
  refine ⟨?_, hne (by decide), fun hslash => ?_⟩
  · rw [Path.isVoid, beq_eq_false_iff_ne.mpr (hne (by decide)),
      beq_eq_false_iff_ne.mpr (hne (by decide))]
    rfl
  · obtain ⟨c, -, hc⟩ := List.mem_map.mp hslash
    split at hc
    · cases hc
    · rename_i hslash
      exact hslash (by rw [hc]; rfl)

/-- Unifying separators brings the slashes back. -/
theorem map_unify_hideSlashes {cs : List Char} (h : '\\' ∉ cs) :
    (hideSlashes cs).map Path.unifyChar = cs := by
  rw [hideSlashes, List.map_map]
  refine (List.map_congr_left fun c hc => ?_).trans (List.map_id cs)
  have hne : c ≠ '\\' := fun heq => h (heq ▸ hc)
  by_cases hslash : c = '/'
  · subst hslash
    rfl
  · simp [hslash, Path.unifyChar_of_ne hne]

/-- A path from the root that ends in no slash, holds no backslash and has a number sign somewhere
    is stored for some directory that is given, whatever the working directory. -/
theorem exists_prepare_eq {cs : List Char} (hback : '\\' ∉ cs)
    (hlast : ('/' :: cs).getLast? ≠ some '/') (hsign : '#' ∈ cs) :
    ∃ given, ∀ workingDir, prepare workingDir given = String.ofList ('/' :: cs ++ ['/']) := by
  -- The directory that is given has all of `cs` as its one name below the root.
  have hcanonical : Path.Trail.Canonical ⟨true, [hideSlashes cs]⟩ :=
    ⟨[hideSlashes cs], 0, rfl, by simpa using isName_hideSlashes hsign, fun _ => rfl⟩
  have hrender : Path.Trail.render ⟨true, [hideSlashes cs]⟩ =
      String.ofList ('/' :: hideSlashes cs) := by
    rw [Path.Trail.render, Path.joinSegments, List.reverse_singleton, List.intercalate_singleton]
    rfl
  have hnormal : Path.normalize (String.ofList ('/' :: hideSlashes cs)) =
      String.ofList ('/' :: hideSlashes cs) := by
    rw [← hrender, Path.normalize_eq_render, hcanonical.trail_render]
  have habsolute : Path.isAbsolute (String.ofList ('/' :: hideSlashes cs)) = true := by
    rw [← hrender, hcanonical.isAbsolute_render]
  have hunify : (Path.unify (String.ofList ('/' :: hideSlashes cs))).toList = '/' :: cs := by
    rw [Path.toList_unify, String.toList_ofList, List.map_cons, map_unify_hideSlashes hback]
    rfl
  -- There is no slash at the end to be taken off before the one that is added.
  have hkept : ('/' :: cs).reverse.dropWhile (· == '/') = ('/' :: cs).reverse := by
    rw [← List.head?_reverse] at hlast
    cases hreverse : ('/' :: cs).reverse with
    | nil => rfl
    | cons c rest =>
      rw [hreverse] at hlast
      exact List.dropWhile_cons_of_neg fun hc => hlast (by rw [eq_of_beq hc]; rfl)
  refine ⟨String.ofList ('/' :: hideSlashes cs), fun workingDir => ?_⟩
  simp only [prepare, Path.absolute, habsolute, if_true]
  rw [hnormal, Path.withTrailingSeparator, hunify, hkept, List.reverse_reverse]

/-- Every set of directories that begins with an absolute one and has another behind it shares its
    signature with a set that has one directory in place of the two. -/
theorem Built.exists_joined_eq {s : SearchDirs} (h : s.Built) {d e : String} {rest : List String}
    (hdirs : s.dirs = d :: e :: rest) (habsolute : Path.isAbsolute d = true) :
    ∃ s' : SearchDirs, s'.Built ∧ s'.joined = s.joined ∧ s'.dirs = (d ++ "#" ++ e) :: rest := by
  -- All that is needed of the directories is that each is a stored form.
  have hstored : ∀ dir ∈ d :: e :: rest, ∃ workingDir given, dir = prepare workingDir given :=
    fun dir hdir => h.exists_prepare (hdirs ▸ hdir)
  obtain ⟨cs, hcs, hback⟩ : ∃ cs, d.toList = '/' :: cs ∧ '\\' ∉ '/' :: cs := by
    obtain ⟨workingDir, given, rfl⟩ := hstored d (by simp)
    obtain ⟨cs, hcs, -, hback⟩ := toList_prepare workingDir given
    rw [Path.isAbsolute, beq_iff_eq] at habsolute
    obtain ⟨tail, htail⟩ := List.head?_eq_some_iff.mp habsolute
    refine ⟨tail, htail, ?_⟩
    rw [← htail, hcs]
    simpa using hback
  obtain ⟨cs', hcs', hlast', hback'⟩ : ∃ cs', e.toList = cs' ++ ['/'] ∧ cs'.getLast? ≠ some '/' ∧
      '\\' ∉ cs' := by
    obtain ⟨workingDir, given, rfl⟩ := hstored e (by simp)
    exact toList_prepare workingDir given
  -- The two directories with the number sign between them are a path of their own.
  obtain ⟨given, hgiven⟩ : ∃ given, ∀ workingDir,
      prepare workingDir given = String.ofList ('/' :: (cs ++ '#' :: cs') ++ ['/']) := by
    refine exists_prepare_eq ?_ ?_ (by simp)
    · have hcs : '\\' ∉ cs := fun hmem => hback (List.mem_cons_of_mem _ hmem)
      simp [hcs, hback']
    · rw [← List.cons_append, List.getLast?_append]
      cases cs' with
      | nil => simp
      | cons c cs' =>
        rw [List.getLast?_cons_cons, Option.or_of_isSome (by simp)]
        exact hlast'
  have hmerged : prepare none given = d ++ "#" ++ e := by
    rw [hgiven, ← String.toList_inj]
    simp [hcs, hcs']
  have hrest : ∀ dir ∈ rest, ∃ workingDir given, dir = prepare workingDir given :=
    fun dir hdir => hstored dir (by simp [hdir])
  obtain ⟨s', hs', hdirs'⟩ := (Built.empty.push none given).exists_append hrest
  have hnone : ({} : SearchDirs).dirs = [] := rfl
  rw [Built.empty.dirs_push, hmerged, hnone, List.nil_append, List.singleton_append] at hdirs'
  refine ⟨s', hs', ?_, hdirs'⟩
  rw [joined, joined, hdirs', hdirs, ← String.toList_inj]
  simp [toList_joinWith_cons, behind]

end SearchDirs

/-! ## Identities under other directories -/

/-- The search directories that settings list are a set in this sense. -/
theorem Settings.built_searchDirs (s : Settings) (workingDir : Option String)
    (entries : List DirEntry) : (s.searchDirs workingDir entries).Built := by
  refine List.foldlRecOn entries _ SearchDirs.Built.empty fun dirs hdirs entry _ => ?_
  cases entry with
  | numbered path => exact hdirs.push workingDir _
  | named key path => exact hdirs.insertNamed workingDir key _

/-- Two sources with the same class and path, found on any machines by engines with any two sets of
    search directories. As long as no directory can be mistaken for several, and the digest does not
    collide, the identities agree exactly if the directories do. But if the first of two or more
    directories is absolute, there is a set with one directory less and the same identity. -/
theorem uid_eq_iff_dirs_eq {m m' : Machine} {engine engine' : Engine}
    {record record' found found' : SourceRecord} {parent parent' : Option SourceRecord}
    {filepath : String}
    (h : Resolver.populate m engine record parent = .ok found) (hpresent : found.present = true)
    (h' : Resolver.populate m' engine' record' parent' = .ok found')
    (hpresent' : found'.present = true) (hsort : found.sort = found'.sort)
    (hpath : found.filepath = some filepath) (hpath' : found'.filepath = some filepath)
    (hbuilt : (engine.dirsFor found.sort).Built) (hbuilt' : (engine'.dirsFor found.sort).Built) :
    (SearchDirs.Unmistakable
          ((engine.dirsFor found.sort).dirs ++ (engine'.dirsFor found.sort).dirs) →
        ¬ Digest.Collide (engine.identityInput found) (engine'.identityInput found') →
        (found.uid = found'.uid ↔
          (engine.dirsFor found.sort).dirs = (engine'.dirsFor found.sort).dirs)) ∧
      ∀ d e rest, (engine.dirsFor found.sort).dirs = d :: e :: rest → Path.isAbsolute d = true →
        ∃ dirs : SearchDirs, dirs.Built ∧ dirs.dirs = (d ++ "#" ++ e) :: rest ∧
          found.uid = Digest.sha256Hex (Resolver.identityBytes found.sort filepath dirs) := by
  -- Identities are compared by what they are digests of, and these by their signatures.
  refine ⟨fun hclear hfree => ?_, fun d e rest hdirs habsolute => ?_⟩
  · rw [Resolver.uid_eq_iff_identityInput h hpresent h' hpresent' hfree,
      Resolver.identityInput_eq_iff h hpresent h' hpresent', hpath, hpath', ← hsort,
      ← hbuilt.joined_eq_iff hbuilt' hclear]
    simp
  · obtain ⟨dirs, hdouble, hjoined, hmerged⟩ := hbuilt.exists_joined_eq hdirs habsolute
    refine ⟨dirs, hdouble, hmerged, ?_⟩
    rw [Resolver.uid_eq_sha256Hex h hpresent, Engine.identityInput, hpath, Option.getD_some,
      Resolver.identityBytes, Resolver.identityBytes, hjoined]

/-- An engine that searches the listed directories for templates. -/
def listedEngine (dirs : List String) : Engine :=
  { templateDirs := ({} : Settings).searchDirs none (dirs.map .numbered) }

/-- The record of the one file, looked up by its path with the listed directories. -/
def listedRecord (dirs : List String) : SourceRecord :=
  lookedUp (listedEngine dirs) "/srv/x.tpl" .template

/-- Whatever directories are listed, the file is found by its path. -/
theorem listedRecord_found (dirs : List String) :
    Resolver.populate oneFile (listedEngine dirs) (.parse "/srv/x.tpl" .template) none =
        .ok (listedRecord dirs) ∧
      (listedRecord dirs).present = true ∧ (listedRecord dirs).sort = .template ∧
      (listedRecord dirs).filepath = some "/srv/x.tpl" :=
  ⟨rfl, rfl, rfl, rfl⟩

/-- What the identity of the record is made from. -/
theorem identityInput_listedRecord (dirs : List String) :
    (listedEngine dirs).identityInput (listedRecord dirs) =
      Resolver.identityBytes .template "/srv/x.tpl" (listedEngine dirs).templateDirs := by
  obtain ⟨-, -, hsort, hpath⟩ := listedRecord_found dirs
  rw [Engine.identityInput, hsort, hpath, Option.getD_some, Engine.dirsFor]

/-- Two directories in either order give one file two identities, although one of them has a number
    sign in its name. -/
theorem listedRecord_uid_ne :
    (listedEngine ["/srv", "/b#/c"]).templateDirs.dirs = ["/srv/", "/b#/c/"] ∧
      (listedEngine ["/b#/c", "/srv"]).templateDirs.dirs = ["/b#/c/", "/srv/"] ∧
      (listedRecord ["/srv", "/b#/c"]).uid ≠ (listedRecord ["/b#/c", "/srv"]).uid := by
  obtain ⟨hfound, hpresent, hsort, hpath⟩ := listedRecord_found ["/srv", "/b#/c"]
  obtain ⟨hfound', hpresent', hsort', hpath'⟩ := listedRecord_found ["/b#/c", "/srv"]
  have hbuilt : ∀ dirs sort, ((listedEngine dirs).dirsFor sort).Built := by
    intro dirs sort
    cases sort with
    | template => exact Settings.built_searchDirs {} none (dirs.map .numbered)
    | config => exact .empty
  have hdirs : (listedEngine ["/srv", "/b#/c"]).templateDirs.dirs = ["/srv/", "/b#/c/"] := by
    decide +kernel
  have hdirs' : (listedEngine ["/b#/c", "/srv"]).templateDirs.dirs = ["/b#/c/", "/srv/"] := by
    decide +kernel
  -- The digests are computed, so it is known that they do not collide.
  have hfree : ¬ Digest.Collide
      ((listedEngine ["/srv", "/b#/c"]).identityInput (listedRecord ["/srv", "/b#/c"]))
      ((listedEngine ["/b#/c", "/srv"]).identityInput (listedRecord ["/b#/c", "/srv"])) := by
    rw [identityInput_listedRecord, identityInput_listedRecord, Resolver.identityBytes_eq,
      Resolver.identityBytes_eq]
    decide +kernel
  have hiff := (uid_eq_iff_dirs_eq hfound hpresent hfound' hpresent' (hsort.trans hsort'.symm)
    hpath hpath' (hbuilt _ _) (hbuilt _ _)).1
  rw [hsort, Engine.dirsFor, Engine.dirsFor, hdirs, hdirs'] at hiff
  have hclear : SearchDirs.Unmistakable (["/srv/", "/b#/c/"] ++ ["/b#/c/", "/srv/"]) :=
    SearchDirs.unmistakable_of_isAbsolute (by decide)
  exact ⟨hdirs, hdirs', fun heq => absurd ((hiff hclear hfree).mp heq) (by decide)⟩

/-- Two directories, and one whose path is those two with a number sign between them: the sets
    differ, and the file has one identity under both. -/
theorem numberSign_uid_eq :
    Resolver.populate oneFile (listedEngine ["/srv", "/etc"]) (.parse "/srv/x.tpl" .template) none =
        .ok (listedRecord ["/srv", "/etc"]) ∧
      Resolver.populate oneFile (listedEngine ["/srv/#/etc"]) (.parse "/srv/x.tpl" .template) none =
        .ok (listedRecord ["/srv/#/etc"]) ∧
      (listedRecord ["/srv", "/etc"]).present = true ∧
      (listedRecord ["/srv/#/etc"]).present = true ∧
      (listedRecord ["/srv", "/etc"]).filepath = some "/srv/x.tpl" ∧
      (listedRecord ["/srv/#/etc"]).filepath = some "/srv/x.tpl" ∧
      (listedEngine ["/srv", "/etc"]).templateDirs.dirs = ["/srv/", "/etc/"] ∧
      (listedEngine ["/srv/#/etc"]).templateDirs.dirs = ["/srv/#/etc/"] ∧
      (listedRecord ["/srv", "/etc"]).uid = (listedRecord ["/srv/#/etc"]).uid := by
  obtain ⟨hfound, hpresent, -, hpath⟩ := listedRecord_found ["/srv", "/etc"]
  obtain ⟨hfound', hpresent', -, hpath'⟩ := listedRecord_found ["/srv/#/etc"]
  have hdirs : (listedEngine ["/srv", "/etc"]).templateDirs.dirs = ["/srv/", "/etc/"] := by
    decide +kernel
  have hdirs' : (listedEngine ["/srv/#/etc"]).templateDirs.dirs = ["/srv/#/etc/"] := by
    decide +kernel
  refine ⟨hfound, hfound', hpresent, hpresent', hpath, hpath', hdirs, hdirs', ?_⟩
  -- The two sets have one signature, and nothing else of them goes into the identity.
  have hjoined : (listedEngine ["/srv", "/etc"]).templateDirs.joined =
      (listedEngine ["/srv/#/etc"]).templateDirs.joined := by
    rw [SearchDirs.joined, SearchDirs.joined, hdirs, hdirs']
    decide
  rw [Resolver.uid_eq_sha256Hex hfound hpresent, Resolver.uid_eq_sha256Hex hfound' hpresent',
    identityInput_listedRecord, identityInput_listedRecord, Resolver.identityBytes,
    Resolver.identityBytes, hjoined]

end TagPress
