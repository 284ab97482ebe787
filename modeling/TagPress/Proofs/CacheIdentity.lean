import TagPress.Proofs.RecordLife

/-!
# Cache identities

The cache identity of a found source is the digest of its class, its path and the signature of the
search directories, with a zero byte between them. The first two hold no zero byte: the classes are
two fixed words, and a path with the character NUL leads nowhere. So the fields can be cut apart
again, whatever the signature contains, and as far as the digest has no collisions, two identities
agree exactly if all three fields do.

No statement here assumes that the digest is injective, which it cannot be. What is assumed is that
the two messages at hand do not collide.

## Key results

- `Text.zero_mem_toUTF8_iff`: the zero byte stands for the character NUL only
- `Digest.sha256Hex_inj`: the written digests of messages that do not collide
- `Resolver.identityBytes_eq_iff`: the fields of an identity can be cut apart
- `Resolver.uid_eq_iff_identityInput`: identities of found sources and what they are digests of
- `uid_eq_iff`: two identities agree exactly if class, path and signature do
-/

namespace TagPress

/-! ## Bytes of texts -/

namespace Text

/-- The loop behind `ByteArray.toList` appends the remaining bytes to those it has. -/
private theorem toList_loop_eq (bytes : ByteArray) (i : Nat) (done : List UInt8) :
    ByteArray.toList.loop bytes i done = done.reverse ++ bytes.data.toList.drop i := by
  -- The loop is well-founded, so the induction follows its own recursion.
  fun_induction ByteArray.toList.loop bytes i done with
  | case1 i done hi ih =>
    have hlength : i < bytes.data.toList.length := by simpa using hi
    rw [ih, List.drop_eq_getElem_cons hlength]
    simp [ByteArray.get!, hi]
  | case2 i done hi =>
    have hlength : bytes.data.toList.length ≤ i := by simpa using Nat.le_of_not_lt hi
    rw [List.drop_eq_nil_of_le hlength, List.append_nil]

/-- The bytes of a text, as a list of its array. -/
theorem toUTF8_toList_eq (s : String) : s.toUTF8.toList = s.toByteArray.data.toList := by
  rw [String.toUTF8_eq_toByteArray, ByteArray.toList, toList_loop_eq]
  rfl

/-- A text can be read off its bytes. -/
theorem toUTF8_toList_inj {s t : String} : s.toUTF8.toList = t.toUTF8.toList ↔ s = t := by
  refine ⟨fun h => ?_, fun h => by rw [h]⟩
  rw [toUTF8_toList_eq, toUTF8_toList_eq] at h
  exact String.toByteArray_inj.mp (ByteArray.ext (Array.toList_inj.mp h))

/-- The bytes of a text are those of its characters. -/
theorem toUTF8_toList_eq_flatMap (s : String) :
    s.toUTF8.toList = s.toList.flatMap String.utf8EncodeChar := by
  have hencode : s.toByteArray = s.toList.utf8Encode := by
    rw [← String.toByteArray_ofList, String.ofList_toList]
  rw [toUTF8_toList_eq, hencode, List.utf8Encode, List.toList_data_toByteArray]

/-- A byte below 128 is a character by itself and is part of no other. -/
theorem toNat_eq_of_mem_utf8EncodeChar {c : Char} {b : UInt8} (hb : b.toNat < 128)
    (h : b ∈ String.utf8EncodeChar c) : c.toNat = b.toNat := by
  have hbyte : ∀ n, 128 ≤ n % 256 → b ≠ UInt8.ofNat n := by
    intro n hn heq
    have hmod : b.toNat = n % 256 := by simpa using congrArg UInt8.toNat heq
    omega
  unfold String.utf8EncodeChar at h
  simp only at h
  -- One to four bytes. All but the single byte of an ASCII character have their highest bit set.
  split at h
  · rename_i hone
    rw [List.mem_singleton.mp h, UInt8.toNat_ofNat_of_lt' (show _ < 256 by omega)]
    rfl
  · refine absurd h ?_
    repeat' split
    all_goals
      simp only [List.mem_cons, List.not_mem_nil, or_false, not_or]
      refine ⟨hbyte _ (by omega), ?_⟩
    · exact hbyte _ (by omega)
    · exact ⟨hbyte _ (by omega), hbyte _ (by omega)⟩
    · exact ⟨hbyte _ (by omega), hbyte _ (by omega), hbyte _ (by omega)⟩

/-- The zero byte encodes the character NUL and is part of no other character. -/
theorem zero_mem_toUTF8_iff {s : String} : 0 ∈ s.toUTF8.toList ↔ '\x00' ∈ s.toList := by
  rw [toUTF8_toList_eq_flatMap, List.mem_flatMap]
  constructor
  · rintro ⟨c, hc, hzero⟩
    have hnul : c = '\x00' := Char.toNat_inj.mp (toNat_eq_of_mem_utf8EncodeChar (by decide) hzero)
    exact hnul ▸ hc
  · exact fun hnul => ⟨'\x00', hnul, by decide⟩

/-! ## Written digests -/

/-- A hexadecimal digit stands for one number. -/
theorem digitChar_inj {a b : Nat} (ha : a < 16) (hb : b < 16)
    (h : Nat.digitChar a = Nat.digitChar b) : a = b := by
  -- There are sixteen digits, which can be compared with each other.
  have hall : ∀ a b : Fin 16, Nat.digitChar a = Nat.digitChar b → a = b := by decide
  exact Fin.val_congr (hall ⟨a, ha⟩ ⟨b, hb⟩ h)

/-- A byte can be read off its two digits. -/
theorem hexByte_inj {a b : UInt8} (h : hexByte a = hexByte b) : a = b := by
  have ha := a.toNat_lt
  have hb := b.toNat_lt
  simp only [hexByte, List.cons.injEq, and_true] at h
  have hhigh := digitChar_inj (by omega) (by omega) h.1
  have hlow := digitChar_inj (by omega) (by omega) h.2
  exact UInt8.toNat_inj.mp (by omega)

/-- Bytes can be read off their digits. -/
theorem flatMap_hexByte_inj {as bs : List UInt8} (h : as.flatMap hexByte = bs.flatMap hexByte) :
    as = bs := by
  induction as generalizing bs with
  | nil =>
    cases bs with
    | nil => rfl
    | cons b bs => simp [hexByte] at h
  | cons a as ih =>
    cases bs with
    | nil => simp [hexByte] at h
    | cons b bs =>
      -- Every byte is written with two digits, so the first two are those of the first byte.
      rw [List.flatMap_cons, List.flatMap_cons] at h
      obtain ⟨hbyte, hrest⟩ := List.append_inj h rfl
      rw [hexByte_inj hbyte, ih hrest]

end Text

namespace Digest

/-- Digests agree exactly if their written forms do. -/
theorem sha256Hex_eq_iff {a b : List UInt8} :
    sha256Hex a = sha256Hex b ↔ sha256 a = sha256 b := by
  refine ⟨fun h => ?_, fun h => by rw [sha256Hex, sha256Hex, h]⟩
  exact Text.flatMap_hexByte_inj (String.ofList_injective h)

/-- Two different messages have the same digest. -/
def Collide (a b : List UInt8) : Prop :=
  a ≠ b ∧ sha256 a = sha256 b

instance (a b : List UInt8) : Decidable (Collide a b) :=
  inferInstanceAs (Decidable (_ ∧ _))

/-- The written digests of two messages that do not collide agree exactly if the messages do. -/
theorem sha256Hex_inj {a b : List UInt8} (hfree : ¬ Collide a b) :
    sha256Hex a = sha256Hex b ↔ a = b := by
  refine ⟨fun h => ?_, fun h => by rw [h]⟩
  have hdigest : sha256 a = sha256 b := sha256Hex_eq_iff.mp h
  exact Decidable.byContradiction fun hne => hfree ⟨hne, hdigest⟩

end Digest

/-! ## Cutting the fields apart -/

/-- What stands before the first separator and what stands behind it. Nothing is asked of the part
    behind, which may hold the separator again. -/
theorem append_cons_inj {α : Type} {a : α} {xs ys zs ws : List α} (hxs : a ∉ xs) (hys : a ∉ ys) :
    xs ++ a :: zs = ys ++ a :: ws ↔ xs = ys ∧ zs = ws := by
  constructor
  · intro h
    -- The first separator comes at the same place on both sides, or one of the fronts would hold
    -- it.
    induction xs generalizing ys with
    | nil =>
      cases ys with
      | nil => exact ⟨rfl, (List.cons.inj h).2⟩
      | cons y ys =>
        have hy : a = y := (List.cons.inj h).1
        exact absurd (hy ▸ List.mem_cons_self) hys
    | cons x xs ih =>
      cases ys with
      | nil =>
        have hx : x = a := (List.cons.inj h).1
        exact absurd (hx ▸ List.mem_cons_self) hxs
      | cons y ys =>
        obtain ⟨rfl, hrest⟩ := List.cons.inj h
        rw [List.mem_cons, not_or] at hxs hys
        obtain ⟨hfront, hback⟩ := ih hxs.2 hys.2 hrest
        exact ⟨by rw [hfront], hback⟩
  · rintro ⟨rfl, rfl⟩
    rfl

/-- The two classes have different words. -/
theorem ResourceClass.name_inj {a b : ResourceClass} : a.name = b.name ↔ a = b := by
  cases a <;> cases b <;> decide

/-- The word of a class holds no NUL. -/
theorem ResourceClass.nul_notMem_name (sort : ResourceClass) : '\x00' ∉ sort.name.toList := by
  cases sort <;> decide

namespace Resolver

/-- Class, path and signature can be read off the bytes of an identity if the paths hold no NUL. The
    signatures may hold any characters. -/
theorem identityBytes_eq_iff {sort sort' : ResourceClass} {p q : String} (hp : '\x00' ∉ p.toList)
    (hq : '\x00' ∉ q.toList) {dirs dirs' : SearchDirs} :
    identityBytes sort p dirs = identityBytes sort' q dirs' ↔
      sort = sort' ∧ p = q ∧ dirs.joined = dirs'.joined := by
  -- In the two fields before the signature there is no zero byte to cut at too early.
  have hzero : ∀ {s : String}, '\x00' ∉ s.toList → 0 ∉ s.toUTF8.toList := fun h =>
    mt Text.zero_mem_toUTF8_iff.mp h
  simp only [identityBytes, List.append_assoc, List.cons_append]
  rw [append_cons_inj (hzero sort.nul_notMem_name) (hzero sort'.nul_notMem_name),
    append_cons_inj (hzero hp) (hzero hq), Text.toUTF8_toList_inj, Text.toUTF8_toList_inj,
    Text.toUTF8_toList_inj, ResourceClass.name_inj]

/-- The bytes of an identity, with the encoding of the characters written out. -/
theorem identityBytes_eq (sort : ResourceClass) (p : String) (dirs : SearchDirs) :
    identityBytes sort p dirs =
      sort.name.toList.flatMap String.utf8EncodeChar ++
        0 :: p.toList.flatMap String.utf8EncodeChar ++
        0 :: dirs.joined.toList.flatMap String.utf8EncodeChar := by
  simp only [identityBytes, Text.toUTF8_toList_eq_flatMap]

end Resolver

/-! ## Identities of found sources -/

/-- A path that has a time was looked up, so it holds no NUL. -/
theorem Machine.nul_notMem_of_modified? {m : Machine} {p : String} {modified : Instant}
    (h : m.modified? p = some modified) : '\x00' ∉ p.toList := by
  intro hnul
  have hlookup : m.lookup p = .error .nulInPath := by
    rw [lookup, if_pos (List.contains_iff_mem.mpr hnul)]
  simp only [modified?, hlookup, reduceCtorEq] at h

/-- What the cache identity of a found record is the digest of. -/
def Engine.identityInput (engine : Engine) (found : SourceRecord) : List UInt8 :=
  Resolver.identityBytes found.sort (found.filepath.getD "") (engine.dirsFor found.sort)

namespace Resolver

variable {m m' : Machine} {engine engine' : Engine} {record record' found found' : SourceRecord}
  {parent parent' : Option SourceRecord}

/-- The identity of a found source comes from its class and its path, which holds no NUL. -/
theorem uid_of_populate (h : populate m engine record parent = .ok found)
    (hpresent : found.present = true) :
    ∃ filepath, found.filepath = some filepath ∧ '\x00' ∉ filepath.toList ∧
      found.uid = identity engine found.sort filepath := by
  obtain ⟨filepath, modified, -, -, hmodified, rfl⟩ := exists_markFound_of_populate h hpresent
  exact ⟨filepath, rfl, Machine.nul_notMem_of_modified? hmodified, rfl⟩

/-- The identity of a found source is the digest of its input. -/
theorem uid_eq_sha256Hex (h : populate m engine record parent = .ok found)
    (hpresent : found.present = true) :
    found.uid = Digest.sha256Hex (engine.identityInput found) := by
  obtain ⟨filepath, hfilepath, -, huid⟩ := uid_of_populate h hpresent
  rw [huid, identity, Engine.identityInput, hfilepath, Option.getD_some]

/-- Identities agree exactly if their inputs do, as long as these do not collide. -/
theorem uid_eq_iff_identityInput (h : populate m engine record parent = .ok found)
    (hpresent : found.present = true) (h' : populate m' engine' record' parent' = .ok found')
    (hpresent' : found'.present = true)
    (hfree : ¬ Digest.Collide (engine.identityInput found) (engine'.identityInput found')) :
    found.uid = found'.uid ↔ engine.identityInput found = engine'.identityInput found' := by
  rw [uid_eq_sha256Hex h hpresent, uid_eq_sha256Hex h' hpresent', Digest.sha256Hex_inj hfree]

/-- The inputs agree exactly if class, path and signature do. -/
theorem identityInput_eq_iff (h : populate m engine record parent = .ok found)
    (hpresent : found.present = true) (h' : populate m' engine' record' parent' = .ok found')
    (hpresent' : found'.present = true) :
    engine.identityInput found = engine'.identityInput found' ↔
      found.sort = found'.sort ∧ found.filepath = found'.filepath ∧
        (engine.dirsFor found.sort).joined = (engine'.dirsFor found'.sort).joined := by
  obtain ⟨filepath, hfilepath, hnul, -⟩ := uid_of_populate h hpresent
  obtain ⟨filepath', hfilepath', hnul', -⟩ := uid_of_populate h' hpresent'
  simp only [Engine.identityInput, hfilepath, hfilepath', Option.getD_some,
    identityBytes_eq_iff hnul hnul', Option.some.injEq]

end Resolver

/-- The identities of two found sources, on any two machines and engines and for any names and
    requesting templates, agree exactly if the classes, the paths and the signatures of the search
    directories do, provided that the digest does not happen to collide on the two inputs. -/
theorem uid_eq_iff {m m' : Machine} {engine engine' : Engine}
    {record record' found found' : SourceRecord} {parent parent' : Option SourceRecord}
    (h : Resolver.populate m engine record parent = .ok found) (hpresent : found.present = true)
    (h' : Resolver.populate m' engine' record' parent' = .ok found')
    (hpresent' : found'.present = true)
    (hfree : ¬ Digest.Collide (engine.identityInput found) (engine'.identityInput found')) :
    found.uid = found'.uid ↔
      found.sort = found'.sort ∧ found.filepath = found'.filepath ∧
        (engine.dirsFor found.sort).joined = (engine'.dirsFor found'.sort).joined := by
  rw [Resolver.uid_eq_iff_identityInput h hpresent h' hpresent' hfree,
    Resolver.identityInput_eq_iff h hpresent h' hpresent']

/-- An engine that looks for sources of both classes in one directory, and for configuration files
    in another one first. -/
def sharedEngine : Engine :=
  { templateDirs := ({} : SearchDirs).push none "/srv"
    configDirs := (({} : SearchDirs).push none "/etc").push none "/srv" }

/-- The same engine without directories for configuration files. -/
def templateEngine : Engine :=
  { sharedEngine with configDirs := {} }

/-- An engine with one more directory, whose name holds the character NUL. -/
def nulEngine : Engine :=
  { templateDirs := (({} : SearchDirs).push none "/srv").push none "/b\x00/srv" }

/-- The record of the one file after an engine has looked it up under a name. -/
def lookedUp (engine : Engine) (name : String) (sort : ResourceClass) : SourceRecord :=
  (Resolver.lookUp oneFile engine (.parse name sort) none).2

/-- One file has one identity as a template under two names, whatever the directories of the other
    class are. It has another one as a configuration file, and a third one under directories with a
    NUL. -/
theorem sharedEngine_uids :
    (lookedUp sharedEngine "x.tpl" .template).filepath = some "/srv/x.tpl" ∧
      (lookedUp sharedEngine "x.tpl" .config).filepath = some "/srv/x.tpl" ∧
      nulEngine.templateDirs.joined = "/srv/#/b\x00/srv/" ∧
      (lookedUp sharedEngine "x.tpl" .template).uid =
        (lookedUp sharedEngine "/srv/./x.tpl" .template).uid ∧
      (lookedUp sharedEngine "x.tpl" .template).uid =
        (lookedUp templateEngine "x.tpl" .template).uid ∧
      (lookedUp sharedEngine "x.tpl" .template).uid ≠
        (lookedUp sharedEngine "x.tpl" .config).uid ∧
      (lookedUp sharedEngine "x.tpl" .template).uid ≠
        (lookedUp nulEngine "[0]x.tpl" .template).uid := by
  have hsearched : Resolver.populate oneFile sharedEngine (.parse "x.tpl" .template) none =
      .ok (lookedUp sharedEngine "x.tpl" .template) := rfl
  have hnamed : Resolver.populate oneFile sharedEngine (.parse "/srv/./x.tpl" .template) none =
      .ok (lookedUp sharedEngine "/srv/./x.tpl" .template) := rfl
  have halone : Resolver.populate oneFile templateEngine (.parse "x.tpl" .template) none =
      .ok (lookedUp templateEngine "x.tpl" .template) := rfl
  have hconfig : Resolver.populate oneFile sharedEngine (.parse "x.tpl" .config) none =
      .ok (lookedUp sharedEngine "x.tpl" .config) := rfl
  have hother : Resolver.populate oneFile nulEngine (.parse "[0]x.tpl" .template) none =
      .ok (lookedUp nulEngine "[0]x.tpl" .template) := rfl
  -- The digests of the three inputs are computed and differ.
  have hclasses : ¬ Digest.Collide
      (Resolver.identityBytes .template "/srv/x.tpl" sharedEngine.templateDirs)
      (Resolver.identityBytes .config "/srv/x.tpl" sharedEngine.configDirs) := by
    rw [Resolver.identityBytes_eq, Resolver.identityBytes_eq]
    decide +kernel
  have hdirs : ¬ Digest.Collide
      (Resolver.identityBytes .template "/srv/x.tpl" sharedEngine.templateDirs)
      (Resolver.identityBytes .template "/srv/x.tpl" nulEngine.templateDirs) := by
    rw [Resolver.identityBytes_eq, Resolver.identityBytes_eq]
    decide +kernel
  refine ⟨rfl, rfl, by decide, ?_, ?_, fun heq => ?_, fun heq => ?_⟩
  · -- The two inputs are the same, so there is no collision to be excluded.
    exact (uid_eq_iff hsearched rfl hnamed rfl fun hcollide => hcollide.1 rfl).mpr ⟨rfl, rfl, rfl⟩
  · exact (uid_eq_iff hsearched rfl halone rfl fun hcollide => hcollide.1 rfl).mpr ⟨rfl, rfl, rfl⟩
  · have hsame := (uid_eq_iff hsearched rfl hconfig rfl hclasses).mp heq
    exact absurd hsame.1 (by decide)
  · have hsame := (uid_eq_iff hsearched rfl hother rfl hdirs).mp heq
    exact absurd hsame.2.2 (by decide)

end TagPress
