import TagPress.Resolver

/-!
# The life of a source record

A record is looked up and brought up to date again and again, while files come and go. The four
facts about a found source are written together: at every point of its life a record says that the
source is present and has a path, a cache identity and a time, or it has none of them. What the
record was made from never changes, and a look-up that fails changes nothing at all.

## Key results

- `Resolver.lookUp_ends`: the ways in which a look-up ends
- `Resolver.exists_markFound_of_populate`: what a look-up that finds the source has established
- `Digest.length_sha256Hex`: a cache identity has 64 digits
- `SourceRecord.Consistent.run`: every call keeps the four facts together
- `SourceRecord.life`: the life of a record from its beginning
-/

namespace TagPress

/-! ## The length of a digest -/

namespace Digest

/-- As many bytes as are asked for. -/
theorem length_bigEndian (count n : Nat) : (bigEndian count n).length = count := by
  rw [bigEndian, List.length_map, List.length_range]

/-- A digest has 32 bytes. -/
theorem length_sha256 (message : List UInt8) : (sha256 message).length = 32 := by
  simp [sha256, length_bigEndian]

/-- A digest is written with 64 digits. -/
theorem length_sha256Hex (message : List UInt8) : (sha256Hex message).length = 64 := by
  have hbyte : (fun b => (Text.hexByte b).length) = fun _ => 2 := rfl
  rw [sha256Hex, String.length_ofList, List.length_flatMap, hbyte, List.map_const',
    List.sum_replicate_nat, length_sha256]

end Digest

namespace Resolver

/-- A cache identity is never the empty text, which stands for none. -/
theorem identity_ne_empty (engine : Engine) (sort : ResourceClass) (filepath : String) :
    identity engine sort filepath ≠ "" := by
  intro hempty
  have hlength := Digest.length_sha256Hex (identityBytes sort filepath (engine.dirsFor sort))
  rw [← identity, hempty] at hlength
  exact absurd hlength (by decide)

/-- How a look-up ends, and what decides it. -/
inductive Ends (m : Machine) (engine : Engine) (r : SourceRecord) (parent : Option SourceRecord) :
    Except ResourceError Unit × SourceRecord → Prop where
  | unsupported (hkind : r.kind.isFileBacked = false) :
      Ends m engine r parent (.error (.unsupportedKind r.kind.name), r)
  | unplaced {e : ResourceError} (hkind : r.kind.isFileBacked = true)
      (hlocate : locate m engine r parent = .error e) : Ends m engine r parent (.error e, r)
  | untrusted {filepath : String} {e : ResourceError} (hkind : r.kind.isFileBacked = true)
      (hlocate : locate m engine r parent = .ok (some filepath))
      (htrust : checkTrust engine filepath r.sort = .error e) : Ends m engine r parent (.error e, r)
  | absent (hkind : r.kind.isFileBacked = true) (hlocate : locate m engine r parent = .ok none) :
      Ends m engine r parent (.ok (), r.markMissing)
  | vanished {filepath : String} (hkind : r.kind.isFileBacked = true)
      (hlocate : locate m engine r parent = .ok (some filepath))
      (htrust : checkTrust engine filepath r.sort = .ok ())
      (hmodified : m.modified? filepath = none) : Ends m engine r parent (.ok (), r.markMissing)
  | found {filepath : String} {modified : Instant} (hkind : r.kind.isFileBacked = true)
      (hlocate : locate m engine r parent = .ok (some filepath))
      (htrust : checkTrust engine filepath r.sort = .ok ())
      (hmodified : m.modified? filepath = some modified) :
      Ends m engine r parent (.ok (),
        r.markFound filepath (identity engine r.sort filepath) modified.seconds)

/-- Every look-up ends in one of these ways. -/
theorem lookUp_ends (m : Machine) (engine : Engine) (r : SourceRecord)
    (parent : Option SourceRecord) : Ends m engine r parent (lookUp m engine r parent) := by
  unfold lookUp
  -- The look-up asks one question after the other, and each way to end is one of its answers.
  cases hkind : r.kind.isFileBacked with
  | false => exact .unsupported hkind
  | true =>
    rw [Bool.not_true, if_neg Bool.false_ne_true]
    cases hlocate : locate m engine r parent with
    | error e => exact .unplaced hkind hlocate
    | ok path =>
      cases path with
      | none => exact .absent hkind hlocate
      | some filepath =>
        cases htrust : checkTrust engine filepath r.sort with
        | error e =>
          simp only [htrust]
          exact .untrusted hkind hlocate htrust
        | ok _ =>
          simp only [htrust]
          cases hmodified : m.modified? filepath with
          | none => exact .vanished hkind hlocate htrust hmodified
          | some modified => exact .found hkind hlocate htrust hmodified

/-- A look-up that does not fail and finds the source has located it, checked its path and read its
    time. -/
theorem exists_markFound_of_populate {m : Machine} {engine : Engine} {r found : SourceRecord}
    {parent : Option SourceRecord} (h : populate m engine r parent = .ok found)
    (hpresent : found.present = true) :
    ∃ filepath modified, locate m engine r parent = .ok (some filepath) ∧
      checkTrust engine filepath r.sort = .ok () ∧ m.modified? filepath = some modified ∧
      found = r.markFound filepath (identity engine r.sort filepath) modified.seconds := by
  have hends := lookUp_ends m engine r parent
  unfold populate at h
  generalize lookUp m engine r parent = result at h hends
  cases hends with
  | unsupported | unplaced | untrusted => cases h
  | absent | vanished =>
    -- The look-up succeeds here, but with a record of nothing found.
    cases h
    cases hpresent
  | found hkind hlocate htrust hmodified =>
    cases h
    exact ⟨_, _, hlocate, htrust, hmodified, rfl⟩

/-- The errors of a look-up: the record's kind lives elsewhere, the requesting template's kind does,
    or the directory is not trusted. Only a gate that is no policy can refuse a path with an error
    of its own. -/
inductive IsLookUpError (engine : Engine) : ResourceError → Prop where
  | unsupportedKind (kind : String) : IsLookUpError engine (.unsupportedKind kind)
  | incompatibleParent (name kind : String) : IsLookUpError engine (.incompatibleParent name kind)
  | untrustedDirectory (path : String) : IsLookUpError engine (.untrustedDirectory path)
  | vetoed {gate : Gate} {filepath : String} {sort : ResourceClass} {e : ResourceError}
      (hgate : engine.gate = some gate) (hforeign : ∀ policy : Policy, gate ≠ policy.gate)
      (hveto : gate.checkPath filepath sort = .error e) : IsLookUpError engine e

/-- Looking for the place of a source can fail only because of the requesting template. -/
theorem isLookUpError_of_locate {m : Machine} {engine : Engine} {r : SourceRecord}
    {parent : Option SourceRecord} {e : ResourceError} (h : locate m engine r parent = .error e) :
    IsLookUpError engine e := by
  unfold locate at h
  split at h
  · rename_i e' hcandidates
    cases h
    -- Only the candidates below a requesting template can fail.
    unfold candidates parentCandidates at hcandidates
    repeat' split at hcandidates
    all_goals cases hcandidates
    exact .incompatibleParent _ _
  · cases h

/-- A policy refuses a path by its directory, and any other gate as it likes. -/
theorem isLookUpError_of_checkTrust {engine : Engine} {filepath : String} {sort : ResourceClass}
    {e : ResourceError} (h : checkTrust engine filepath sort = .error e) :
    IsLookUpError engine e := by
  unfold checkTrust at h
  split at h
  · rename_i gate hgate
    -- Whether a gate is that of a policy cannot be decided by a program, so this is classical.
    by_cases hpolicy : ∃ policy : Policy, gate = policy.gate
    · obtain ⟨policy, rfl⟩ := hpolicy
      simp only [Policy.gate, Policy.checkPath] at h
      split at h
      · cases h
      · cases h
        exact .untrustedDirectory _
    · exact .vetoed hgate (not_exists.mp hpolicy) h
  · cases h

end Resolver

/-! ## Calls -/

/-- A call on a record, each with the machine as it is at that time. -/
inductive RecordCall where
  /-- Looks the record up for a requesting template. -/
  | lookUp (m : Machine) (engine : Engine) (parent : Option SourceRecord)
  /-- Brings the modification time up to date. -/
  | refresh (m : Machine)

/-- The record after a call. -/
def RecordCall.run (r : SourceRecord) : RecordCall → SourceRecord
  | lookUp m engine parent => (Resolver.lookUp m engine r parent).2
  | refresh m => Resolver.refresh m r

namespace SourceRecord

/-- The record after some calls, one after the other. -/
def afterCalls (r : SourceRecord) (calls : List RecordCall) : SourceRecord :=
  calls.foldl RecordCall.run r

/-- The record says that the source is present, and has a path, a time and an identity, or none of
    them. -/
structure Consistent (r : SourceRecord) : Prop where
  filepath : r.filepath.isSome = true ↔ r.present = true
  timestamp : r.timestamp.isSome = true ↔ r.present = true
  uid : r.uid ≠ "" ↔ r.present = true

/-- Two records were made from the same name. -/
structure SameSource (r r' : SourceRecord) : Prop where
  name : r'.name = r.name
  kind : r'.kind = r.kind
  sort : r'.sort = r.sort

/-- A record of nothing found has none of the four facts. -/
theorem consistent_markMissing (r : SourceRecord) : r.markMissing.Consistent :=
  ⟨by simp [markMissing], by simp [markMissing], by simp [markMissing]⟩

/-- A record of a found source has all of them, given an identity. -/
theorem consistent_markFound (r : SourceRecord) (filepath : String) {uid : String}
    (huid : uid ≠ "") (timestamp : Int) : (r.markFound filepath uid timestamp).Consistent :=
  ⟨by simp [markFound], by simp [markFound], by simp [markFound, huid]⟩

/-- A record that is made from a name has none of the four facts. -/
theorem consistent_new (name : String) (kind : ResourceKind) (sort : ResourceClass) :
    ({ name, kind, sort } : SourceRecord).Consistent :=
  ⟨by simp, by simp, by simp⟩

/-- A record that is made from an identifier is made from its parts. -/
theorem parse_eq_new (resource : String) (sort : ResourceClass) :
    ∃ name kind, parse resource sort = { name, kind, sort } := by
  unfold parse
  repeat' split
  all_goals exact ⟨_, _, rfl⟩

theorem SameSource.refl (r : SourceRecord) : r.SameSource r := ⟨rfl, rfl, rfl⟩

/-- Records in a row that were made from one name. -/
theorem SameSource.trans {r₁ r₂ r₃ : SourceRecord} (h : r₁.SameSource r₂) (h' : r₂.SameSource r₃) :
    r₁.SameSource r₃ :=
  ⟨h'.name.trans h.name, h'.kind.trans h.kind, h'.sort.trans h.sort⟩

/-- A look-up that fails does so for one of the reasons above and leaves the record as it was. -/
theorem eq_of_lookUp_error {m : Machine} {engine : Engine} {r : SourceRecord}
    {parent : Option SourceRecord} {e : ResourceError}
    (h : (Resolver.lookUp m engine r parent).1 = .error e) :
    (Resolver.lookUp m engine r parent).2 = r ∧ Resolver.IsLookUpError engine e := by
  have hends := Resolver.lookUp_ends m engine r parent
  generalize Resolver.lookUp m engine r parent = result at h hends ⊢
  -- Three of the ways in which a look-up ends are errors, and they leave the record alone.
  cases hends with
  | unsupported hkind =>
    cases h
    exact ⟨rfl, .unsupportedKind _⟩
  | unplaced hkind hlocate =>
    cases h
    exact ⟨rfl, Resolver.isLookUpError_of_locate hlocate⟩
  | untrusted hkind hlocate htrust =>
    cases h
    exact ⟨rfl, Resolver.isLookUpError_of_checkTrust htrust⟩
  | absent => cases h
  | vanished => cases h
  | found => cases h

/-- A call keeps the four facts together and does not touch what the record was made from. -/
theorem Consistent.run {r : SourceRecord} (h : r.Consistent) (call : RecordCall) :
    (call.run r).Consistent ∧ r.SameSource (call.run r) := by
  cases call with
  | lookUp m engine parent =>
    have hends := Resolver.lookUp_ends m engine r parent
    simp only [RecordCall.run]
    generalize Resolver.lookUp m engine r parent = result at hends ⊢
    -- A failed look-up writes nothing, and the others write all fields at once.
    cases hends with
    | unsupported | unplaced | untrusted => exact ⟨h, .refl r⟩
    | absent | vanished => exact ⟨consistent_markMissing r, rfl, rfl, rfl⟩
    | found =>
      have huid := Resolver.identity_ne_empty engine r.sort
      exact ⟨consistent_markFound r _ (huid _) _, rfl, rfl, rfl⟩
  | refresh m =>
    simp only [RecordCall.run, Resolver.refresh]
    split
    · exact ⟨h, .refl r⟩
    · rename_i filepath hfilepath
      -- A record with a path is present, so only the time and the flag are written again.
      have hpresent : r.present = true := h.filepath.mp (by rw [hfilepath]; rfl)
      rw [hpresent, Bool.true_or, if_pos rfl]
      split
      · refine ⟨⟨?_, ?_, ?_⟩, rfl, rfl, rfl⟩
        · simp [hfilepath]
        · simp
        · simpa using h.uid.mpr hpresent
      · exact ⟨consistent_markMissing r, rfl, rfl, rfl⟩

/-- The four facts stay together over any number of calls. -/
theorem Consistent.afterCalls {r : SourceRecord} (h : r.Consistent) (calls : List RecordCall) :
    (r.afterCalls calls).Consistent ∧ r.SameSource (r.afterCalls calls) := by
  -- Each call starts from the record that the calls before have left.
  induction calls generalizing r with
  | nil => exact ⟨h, .refl r⟩
  | cons call calls ih =>
    obtain ⟨hcall, hsame⟩ := h.run call
    obtain ⟨hcalls, hsame'⟩ := ih hcall
    exact ⟨hcalls, hsame.trans hsame'⟩

/-- The life of a record that was made from an identifier or from its parts. After any calls, with
    any changes of the machine between them, the record has all four facts about a found source or
    none, and its name, kind and class are those that it was made with. A look-up that fails then
    leaves it exactly as it was. -/
theorem life {start : SourceRecord}
    (hstart : (∃ resource sort, start = parse resource sort) ∨
      ∃ name kind sort, start = { name, kind, sort }) (calls : List RecordCall) :
    (start.afterCalls calls).Consistent ∧ start.SameSource (start.afterCalls calls) ∧
      ∀ m engine parent e,
        (Resolver.lookUp m engine (start.afterCalls calls) parent).1 = .error e →
        (Resolver.lookUp m engine (start.afterCalls calls) parent).2 = start.afterCalls calls ∧
          Resolver.IsLookUpError engine e := by
  have hconsistent : start.Consistent := by
    obtain ⟨resource, sort, rfl⟩ | ⟨name, kind, sort, rfl⟩ := hstart
    · obtain ⟨name, kind, hparse⟩ := parse_eq_new resource sort
      rw [hparse]
      exact consistent_new name kind sort
    · exact consistent_new name kind sort
  obtain ⟨hcalls, hsame⟩ := hconsistent.afterCalls calls
  exact ⟨hcalls, hsame, fun m engine parent e => eq_of_lookUp_error⟩

end SourceRecord

/-- A machine with one file. -/
def oneFile : Machine :=
  { root := .folder "srv" ⟨0⟩ (.file "x.tpl" .empty ⟨5000000000⟩ .empty) .empty }

/-- The record of its file, found. -/
def foundRecord : SourceRecord :=
  (SourceRecord.parse "file:/srv/x.tpl" .template).afterCalls [.lookUp oneFile {} none]

/-- An engine with a policy that trusts nothing. -/
def distrusting : Engine :=
  { gate := some (Policy.gate {}) }

/-- The found file is refused by a policy that trusts nothing, which changes nothing. After that it
    is lost. -/
theorem foundRecord_life :
    foundRecord.present = true ∧ foundRecord.timestamp = some 5 ∧ foundRecord.uid ≠ "" ∧
      (Resolver.lookUp oneFile distrusting foundRecord none).1 =
        .error (.untrustedDirectory "/srv") ∧
      (Resolver.lookUp oneFile distrusting foundRecord none).2 = foundRecord ∧
      foundRecord.name = "/srv/x.tpl" ∧
      (foundRecord.afterCalls [.lookUp oneFile distrusting none, .refresh {}]) =
        { name := "/srv/x.tpl" } := by
  have hpresent : foundRecord.present = true := rfl
  have hrefused : (Resolver.lookUp oneFile distrusting foundRecord none).1 =
      .error (.untrustedDirectory "/srv") := rfl
  obtain ⟨hconsistent, hsame, herror⟩ :=
    SourceRecord.life (.inl ⟨"file:/srv/x.tpl", .template, rfl⟩) [.lookUp oneFile {} none]
  exact ⟨hpresent, rfl, hconsistent.uid.mpr hpresent, hrefused, (herror _ _ _ _ hrefused).1,
    hsame.name, rfl⟩

end TagPress
