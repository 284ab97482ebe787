import TagPress.Proofs.FoundFile

/-!
# Rechecks of a found source

A look-up takes regular files only. Bringing the record of a source up to date later is not a second
look-up: it asks for the time of whatever stands at the recorded path, and a directory or a pipe has
a time too. So a record stays alive as long as its path leads to something at every recheck, and it
is cleared as a whole the first time that the path leads nowhere. Then it stays cleared, even if a
file comes back. While it is alive, nothing but the time changes. What stands in the place of the
file is not noticed.

## Key results

- `Machine.modified?_eq_some_iff`: whatever a path leads to has a time
- `Resolver.consistent_of_populate`: the record that a look-up gives has all four facts or none
- `Resolver.refresh_of_consistent`: what one recheck makes of such a record
- `SourceRecord.refresh_rechecked_of_leads`, `SourceRecord.rechecked_of_gone`: any number of them
- `recheck_keeps_iff_path_leads`: which records are kept, and what they say then
- `folder_keeps_record`: a record that outlives its file
-/

namespace TagPress

/-! ## What stands at a path -/

/-- A path leads to something: a regular file, a directory or a special file. -/
def Machine.Leads (m : Machine) (p : String) : Prop :=
  ∃ node, m.lookup p = .ok node

/-- Whatever a path leads to has a time. -/
theorem Machine.modified?_eq_some_iff {m : Machine} {p : String} {time : Instant} :
    m.modified? p = some time ↔ ∃ node, m.lookup p = .ok node ∧ m.modifiedOf node = time := by
  unfold modified?
  cases m.lookup p with
  | error e => simp
  | ok node => simp

/-- Only a path that leads nowhere has no time. -/
theorem Machine.modified?_eq_none_iff {m : Machine} {p : String} :
    m.modified? p = none ↔ ¬ m.Leads p := by
  unfold modified? Leads
  cases m.lookup p with
  | error e => simp
  | ok node => simp

/-- A record of a source that was not found. -/
structure SourceRecord.Cleared (r : SourceRecord) : Prop where
  filepath : r.filepath = none
  present : r.present = false
  uid : r.uid = ""
  timestamp : r.timestamp = none

/-- Marking a record as missing clears it. -/
theorem SourceRecord.cleared_markMissing (r : SourceRecord) : r.markMissing.Cleared :=
  ⟨rfl, rfl, rfl, rfl⟩

/-- A record without a path has nothing to clear. -/
theorem SourceRecord.Consistent.markMissing_eq {r : SourceRecord} (h : r.Consistent)
    (hpath : r.filepath = none) : r.markMissing = r := by
  -- Without a path the other fields are empty, too, and that is what clearing writes.
  have hpresent : r.present = false := by
    rw [← Bool.not_eq_true]
    exact fun hpresent => absurd (h.filepath.mpr hpresent) (by simp [hpath])
  have htimestamp : r.timestamp = none := by
    rw [← Option.not_isSome_iff_eq_none]
    exact fun hsome => absurd (h.timestamp.mp hsome) (by simp [hpresent])
  have huid : r.uid = "" := Decidable.byContradiction fun hne =>
    absurd (h.uid.mp hne) (by simp [hpresent])
  rw [markMissing, ← hpath, ← hpresent, ← htimestamp, ← huid]

/-! ## One recheck -/

namespace Resolver

/-- Whatever record a look-up starts from, it writes all four facts or none. -/
theorem consistent_of_populate {m : Machine} {engine : Engine} {record found : SourceRecord}
    {parent : Option SourceRecord} (h : populate m engine record parent = .ok found) :
    found.Consistent := by
  have hends := lookUp_ends m engine record parent
  unfold populate at h
  generalize lookUp m engine record parent = result at h hends
  -- What the record said before is overwritten, so it need not have been consistent.
  cases hends with
  | unsupported | unplaced | untrusted => cases h
  | absent | vanished =>
    cases h
    exact SourceRecord.consistent_markMissing record
  | found =>
    cases h
    exact SourceRecord.consistent_markFound record _ (identity_ne_empty engine record.sort _) _

/-- A recheck writes the time of what stands at the path, or it clears the record. -/
theorem refresh_of_consistent {r : SourceRecord} (h : r.Consistent) (m : Machine) :
    (∃ filepath node, r.filepath = some filepath ∧ m.lookup filepath = .ok node ∧
        refresh m r = { r with timestamp := some (m.modifiedOf node).seconds }) ∨
      (∀ filepath, r.filepath = some filepath → ¬ m.Leads filepath) ∧
        refresh m r = r.markMissing := by
  cases hpath : r.filepath with
  | none =>
    refine .inr ⟨nofun, ?_⟩
    rw [refresh, hpath, h.markMissing_eq hpath]
  | some filepath =>
    -- A record with a path is present, so it is not asked whether the path leads to a file.
    have hpresent : r.present = true := h.filepath.mp (by rw [hpath]; rfl)
    cases htime : m.modified? filepath with
    | some time =>
      obtain ⟨node, hlookup, rfl⟩ := Machine.modified?_eq_some_iff.mp htime
      refine .inl ⟨filepath, node, rfl, hlookup, ?_⟩
      simp [refresh, hpath, hpresent, htime]
    | none =>
      refine .inr ⟨fun other hother => ?_, ?_⟩
      · rw [← Option.some.inj hother]
        exact Machine.modified?_eq_none_iff.mp htime
      · simp [refresh, hpath, hpresent, htime]

end Resolver

/-! ## Rechecks one after the other -/

namespace SourceRecord

/-- The record after rechecks in some states of the machine, one after the other. -/
def rechecked (r : SourceRecord) (states : List Machine) : SourceRecord :=
  r.afterCalls (states.map .refresh)

theorem rechecked_cons (r : SourceRecord) (m : Machine) (states : List Machine) :
    r.rechecked (m :: states) = (Resolver.refresh m r).rechecked states := rfl

/-- The last of several rechecks comes after the others. -/
theorem rechecked_concat (r : SourceRecord) (states : List Machine) (m : Machine) :
    r.rechecked (states ++ [m]) = Resolver.refresh m (r.rechecked states) := by
  simp [rechecked, afterCalls, RecordCall.run]

variable {r : SourceRecord} {filepath : String} {states : List Machine}

/-- Rechecks keep the four facts together. -/
theorem Consistent.rechecked (h : r.Consistent) (states : List Machine) :
    (r.rechecked states).Consistent :=
  (h.afterCalls (states.map .refresh)).1

/-- As long as the path leads to something, nothing but the time changes. -/
theorem rechecked_of_leads (h : r.Consistent) (hpath : r.filepath = some filepath)
    (hstates : ∀ state ∈ states, state.Leads filepath) :
    ∃ timestamp, r.rechecked states = { r with timestamp } := by
  -- The record changes in its time on the way, and with it the start of the remaining rechecks.
  induction states generalizing r with
  | nil => exact ⟨r.timestamp, rfl⟩
  | cons m states ih =>
    obtain ⟨hm, hstates⟩ := List.forall_mem_cons.mp hstates
    obtain ⟨recorded, node, -, -, hrefresh⟩ | ⟨hgone, -⟩ := Resolver.refresh_of_consistent h m
    · have hconsistent : (Resolver.refresh m r).Consistent := h.rechecked [m]
      rw [rechecked_cons, hrefresh]
      rw [hrefresh] at hconsistent
      exact ih hconsistent hpath hstates
    · exact absurd hm (hgone filepath hpath)

/-- The last recheck writes the time. -/
theorem refresh_rechecked_of_leads (h : r.Consistent) (hpath : r.filepath = some filepath)
    {later : Machine} (hstates : ∀ state ∈ states ++ [later], state.Leads filepath) :
    ∃ node, later.lookup filepath = .ok node ∧
      Resolver.refresh later (r.rechecked states) =
        { r with timestamp := some (later.modifiedOf node).seconds } := by
  obtain ⟨hearlier, hlater⟩ := List.forall_mem_append.mp hstates
  -- Up to the last state the record has changed in its time only.
  obtain ⟨timestamp, hkept⟩ := rechecked_of_leads h hpath hearlier
  have hbefore := h.rechecked states
  rw [hkept] at hbefore ⊢
  obtain ⟨recorded, node, hrecorded, hlookup, hrefresh⟩ | ⟨hgone, -⟩ :=
    Resolver.refresh_of_consistent hbefore later
  · obtain rfl : filepath = recorded := Option.some.inj (hpath.symm.trans hrecorded)
    exact ⟨node, hlookup, hrefresh⟩
  · exact absurd (hlater later List.mem_cons_self) (hgone filepath hpath)

/-- If the path leads nowhere at one of the rechecks, the record is cleared and stays so. -/
theorem rechecked_of_gone (h : r.Consistent)
    (hgone : ∀ filepath, r.filepath = some filepath →
      ∃ state ∈ states, ¬ state.Leads filepath) : r.rechecked states = r.markMissing := by
  -- The hypothesis is about the path that the record has, so it still makes sense for a record that
  -- has been cleared: that one has no path.
  induction states generalizing r with
  | nil =>
    cases hpath : r.filepath with
    | none => exact (h.markMissing_eq hpath).symm
    | some filepath =>
      obtain ⟨state, hstate, -⟩ := hgone filepath hpath
      cases hstate
  | cons m states ih =>
    have hconsistent : (Resolver.refresh m r).Consistent := h.rechecked [m]
    rw [rechecked_cons]
    obtain ⟨filepath, node, hpath, hlookup, hrefresh⟩ | ⟨-, hrefresh⟩ :=
      Resolver.refresh_of_consistent h m
    · -- The path leads to something here, so it is one of the states behind this one.
      rw [hrefresh] at hconsistent ⊢
      refine ih hconsistent fun other hother => ?_
      obtain ⟨state, hstate, hnone⟩ := hgone other hother
      obtain rfl | hstate := List.mem_cons.mp hstate
      · rw [hpath, Option.some.injEq] at hother
        exact absurd ⟨node, hother ▸ hlookup⟩ hnone
      · exact ⟨state, hstate, hnone⟩
    · rw [hrefresh] at hconsistent ⊢
      exact ih hconsistent nofun

end SourceRecord

/-- The record of any look-up that does not fail, after some rechecks and one more, each in any
    state of the machine. It is present exactly if it was found and its path has led to something at
    every recheck, be it a regular file or not. Then it has the time of what stands at the path now,
    and all else is as the look-up wrote it. Otherwise it is cleared as a whole. -/
theorem recheck_keeps_iff_path_leads {m : Machine} {engine : Engine} {record found : SourceRecord}
    {parent : Option SourceRecord} (h : Resolver.populate m engine record parent = .ok found)
    (earlier : List Machine) (later : Machine) :
    ((Resolver.refresh later (found.rechecked earlier)).present = true ↔
        ∃ filepath, found.filepath = some filepath ∧
          ∀ state ∈ earlier ++ [later], state.Leads filepath) ∧
      ((Resolver.refresh later (found.rechecked earlier)).present = true →
        ∃ filepath node, found.filepath = some filepath ∧ later.lookup filepath = .ok node ∧
          Resolver.refresh later (found.rechecked earlier) =
            { found with timestamp := some (later.modifiedOf node).seconds }) ∧
      ((Resolver.refresh later (found.rechecked earlier)).present = false →
        (Resolver.refresh later (found.rechecked earlier)).Cleared) := by
  have hconsistent := Resolver.consistent_of_populate h
  -- One of the two run lemmas applies, and each settles all three parts.
  by_cases halive : ∃ filepath, found.filepath = some filepath ∧
      ∀ state ∈ earlier ++ [later], state.Leads filepath
  · obtain ⟨filepath, hpath, hstates⟩ := halive
    have hpresent : found.present = true := hconsistent.filepath.mp (by rw [hpath]; rfl)
    obtain ⟨node, hlookup, hrefresh⟩ :=
      SourceRecord.refresh_rechecked_of_leads hconsistent hpath hstates
    rw [hrefresh]
    refine ⟨⟨fun _ => ⟨filepath, hpath, hstates⟩, fun _ => hpresent⟩,
      fun _ => ⟨filepath, node, hpath, hlookup, rfl⟩, fun habsent => ?_⟩
    exact absurd hpresent (by simpa using habsent)
  · -- Somewhere on the way the path has led nowhere, and a cleared record stays cleared.
    have hgone : ∀ filepath, found.filepath = some filepath →
        ∃ state ∈ earlier ++ [later], ¬ state.Leads filepath := by
      intro filepath hpath
      apply Classical.byContradiction
      intro hnone
      refine halive ⟨filepath, hpath, fun state hstate => ?_⟩
      exact Classical.byContradiction fun hnot => hnone ⟨state, hstate, hnot⟩
    rw [← SourceRecord.rechecked_concat, SourceRecord.rechecked_of_gone hconsistent hgone]
    refine ⟨⟨nofun, fun hleads => absurd hleads halive⟩, nofun, fun _ => ?_⟩
    exact SourceRecord.cleared_markMissing found

/-- A machine with one file that was written at some second. -/
def fileAt (second : Int) : Machine :=
  { root := .folder "srv" ⟨0⟩ (.file "x.tpl" .empty ⟨second * 1000000000⟩ .empty) .empty }

/-- A machine with a directory in the place of the file. -/
def folderInPlace : Machine :=
  { root := .folder "srv" ⟨0⟩ (.folder "x.tpl" ⟨7000000000⟩ .empty .empty) .empty }

/-- A machine with a socket in the place of the file. -/
def socketInPlace : Machine :=
  { root := .folder "srv" ⟨0⟩ (.special "x.tpl"
      (.error (.other "No such device or address (os error 6)")) ⟨8000000000⟩ .empty) .empty }

/-- The look-up of the one file gives its record. -/
theorem populate_foundRecord :
    Resolver.populate oneFile {} (.parse "file:/srv/x.tpl" .template) none = .ok foundRecord :=
  rfl

/-- A file that was written again gives the record its new time, and so does a socket that stands in
    its place. A file that comes back after it was gone at a recheck does not bring the record
    back. -/
theorem foundRecord_rechecks :
    Resolver.refresh (fileAt 9) foundRecord = { foundRecord with timestamp := some 9 } ∧
      (fileAt 9).isFile "/srv/x.tpl" = true ∧
      (Resolver.refresh socketInPlace (foundRecord.rechecked [fileAt 6, folderInPlace])).present =
        true ∧
      (Resolver.refresh (fileAt 9) (foundRecord.rechecked [fileAt 6, {}])).Cleared := by
  obtain ⟨-, hkept, -⟩ := recheck_keeps_iff_path_leads populate_foundRecord [] (fileAt 9)
  obtain ⟨hsocket, -, -⟩ :=
    recheck_keeps_iff_path_leads populate_foundRecord [fileAt 6, folderInPlace] socketInPlace
  obtain ⟨-, -, hcleared⟩ :=
    recheck_keeps_iff_path_leads populate_foundRecord [fileAt 6, {}] (fileAt 9)
  obtain ⟨filepath, node, hpath, hlookup, hrefresh⟩ := hkept rfl
  obtain rfl : filepath = "/srv/x.tpl" := (Option.some.inj hpath).symm
  obtain rfl : .file ⟨["srv"], 0⟩ "x.tpl" .empty ⟨9000000000⟩ = node := Except.ok.inj hlookup
  refine ⟨hrefresh, rfl, hsocket.mpr ⟨"/srv/x.tpl", rfl, fun state hstate => ?_⟩, hcleared rfl⟩
  simp only [List.cons_append, List.nil_append, List.mem_cons, List.not_mem_nil, or_false]
    at hstate
  -- A file, a directory and a socket: the path leads somewhere each time.
  obtain rfl | rfl | rfl := hstate
  · exact ⟨_, rfl⟩
  · exact ⟨_, rfl⟩
  · exact ⟨_, rfl⟩

/-- A found file is replaced by a directory. The path leads to no regular file any more, but the
    record stays present, with the time of the directory, and its content cannot be read. -/
theorem folder_keeps_record :
    Resolver.populate oneFile {} (.parse "file:/srv/x.tpl" .template) none = .ok foundRecord ∧
      foundRecord.filepath = some "/srv/x.tpl" ∧ folderInPlace.isFile "/srv/x.tpl" = false ∧
      (Resolver.refresh folderInPlace foundRecord).present = true ∧
      (Resolver.refresh folderInPlace foundRecord).timestamp = some 7 ∧
      ¬ (Resolver.refresh folderInPlace foundRecord).Cleared ∧
      Resolver.content folderInPlace (Resolver.refresh folderInPlace foundRecord) =
        .error (.unreadable .template "file" "/srv/x.tpl") := by
  refine ⟨rfl, rfl, rfl, rfl, rfl, fun hcleared => ?_, rfl⟩
  exact absurd hcleared.present (by decide)

end TagPress
