import TagPress.Proofs.InsertionOrder
import TagPress.SearchDirs

/-!
# Keys of search directories

Search directories are added in any order, with and without names. What the set then holds can be
told from the list of calls: the directories without a name are numbered in turn, a name has the
directory that was given last, and every key stands where it was first used. A token can address a
directory in three ways, and a name goes before a number and a number before a place.

## Key results

- `SearchDirs.ofCalls_eq`: the entries and the counter after any calls
- `SearchDirs.get?_ofCalls_index`, `SearchDirs.get?_ofCalls_name`: the directory of each key
- `SearchDirs.resolveToken?_of_name`, `SearchDirs.resolveToken?_of_numeral`: the ways of a token
- `directory_keys_after_calls`: keys, order and tokens after any calls
-/

namespace TagPress

/-- The value at a place is the value of the key at that place. -/
theorem OrderedMap.getElem?_values {α β : Type} [BEq α] [LawfulBEq α] {m : OrderedMap α β}
    (h : m.keys.Nodup) (i : Nat) : m.values[i]? = m.keys[i]?.bind m.get? := by
  rw [values, keys, List.getElem?_map, List.getElem?_map]
  cases hentry : m.entries[i]? with
  | none => rfl
  | some entry =>
    have hget := get?_of_mem h (List.mem_of_getElem? hentry)
    simp [hget]

namespace SearchDirs

/-! ## Calls -/

/-- A directory that is added, under a name or without one. Each call sees the working directory of
    its own time. -/
structure Call where
  /-- The name of the directory. -/
  name : Option String := none
  /-- The working directory that the directory is seen from. -/
  workingDir : Option String := none
  /-- The directory as it is given. -/
  dir : String

/-- The directory that a call stores. -/
def Call.stored (call : Call) : String :=
  prepare call.workingDir call.dir

/-- The set after a call. -/
def Call.run (s : SearchDirs) (call : Call) : SearchDirs :=
  match call.name with
  | none => s.push call.workingDir call.dir
  | some name => s.insertNamed call.workingDir name call.dir

/-- The set that calls make of the empty one. -/
def ofCalls (calls : List Call) : SearchDirs :=
  calls.foldl Call.run {}

/-- The directories that were added without a name, in order. -/
def pushed (calls : List Call) : List String :=
  (calls.filter (·.name == none)).map Call.stored

/-- The directories that were added under the name, in order. -/
def named (name : String) (calls : List Call) : List String :=
  (calls.filter (·.name == some name)).map Call.stored

/-- The keys and directories of calls, in order, if `count` directories without a name were there
    before. -/
def writes : Nat → List Call → List (DirKey × String)
  | _, [] => []
  | count, call :: calls =>
    match call.name with
    | none => (.index count, call.stored) :: writes (count + 1) calls
    | some name => (.name name, call.stored) :: writes count calls

/-! ## What calls leave -/

/-- Calls insert what they write, and the counter goes on by the directories without a name. -/
theorem foldl_run (s : SearchDirs) (calls : List Call) :
    calls.foldl Call.run s =
      ⟨(writes s.unnamed calls).foldl (fun m (key, value) => m.insert key value) s.entries,
        s.unnamed + (pushed calls).length⟩ := by
  -- The counter runs along, and `writes` starts from where it is.
  induction calls generalizing s with
  | nil => rfl
  | cons call calls ih =>
    rw [List.foldl_cons, ih]
    cases hname : call.name with
    | none =>
      -- A directory without a name takes the number of the counter.
      simp only [Call.run, writes, pushed, hname, push, Call.stored, List.foldl_cons,
        List.filter_cons, BEq.rfl, if_true, List.map_cons, List.length_cons]
      congr 1
      omega
    | some name => simp [Call.run, writes, pushed, hname, insertNamed, Call.stored]

/-- The entries and the counter after any calls. -/
theorem ofCalls_eq (calls : List Call) :
    ofCalls calls = ⟨.ofList (writes 0 calls), (pushed calls).length⟩ := by
  rw [ofCalls, foldl_run, Nat.zero_add]
  rfl

/-- Of what calls write, a number has the directory that was the so many-th without a name. -/
theorem lookup_writes_index (count : Nat) (calls : List Call) (i : Nat) :
    (writes count calls).reverse.lookup (.index i) =
      if count ≤ i then (pushed calls)[i - count]? else none := by
  -- Look-ups go from the last write to the first, and the counter grows with the calls.
  induction calls generalizing count with
  | nil => simp [writes, pushed]
  | cons call calls ih =>
    cases hname : call.name with
    | some name =>
      have hother : (DirKey.index i == DirKey.name name) = false := rfl
      simp [writes, pushed, hname, ih, List.lookup_append, List.lookup_cons, hother]
    | none =>
      simp only [writes, hname, List.reverse_cons, List.lookup_append, ih, List.lookup_cons,
        List.lookup_nil]
      have hpushed : pushed (call :: calls) = call.stored :: pushed calls := by
        simp [pushed, hname]
      rw [hpushed]
      -- Numbers below the counter were used before, and the counter is the number of this call.
      obtain hlt | rfl | hgt := Nat.lt_trichotomy i count
      · have hne : (DirKey.index i == DirKey.index count) = false := by simp; omega
        simp [hne, show ¬ count + 1 ≤ i by omega, show ¬ count ≤ i by omega]
      · simp [show ¬ i + 1 ≤ i by omega]
      · have hne : (DirKey.index i == DirKey.index count) = false := by simp; omega
        have hsucc : i - count = i - (count + 1) + 1 := by omega
        simp [hne, show count + 1 ≤ i by omega, show count ≤ i by omega, hsucc]

/-- Of what calls write, a name has the directory that was written last. -/
theorem lookup_writes_name (count : Nat) (calls : List Call) (name : String) :
    (writes count calls).reverse.lookup (.name name) = (named name calls).getLast? := by
  induction calls generalizing count with
  | nil => rfl
  | cons call calls ih =>
    cases hname : call.name with
    | none =>
      have hother : ∀ n, (DirKey.name name == DirKey.index n) = false := fun _ => rfl
      simp [writes, named, hname, ih, List.lookup_append, List.lookup_cons, hother]
    | some other =>
      simp only [writes, hname, List.reverse_cons, List.lookup_append, ih, List.lookup_cons,
        List.lookup_nil]
      -- The first call for the name counts only if no later one has it.
      by_cases heq : other = name
      · subst heq
        have hnamed : named other (call :: calls) = call.stored :: named other calls := by
          simp [named, hname]
        rw [hnamed, List.getLast?_cons]
        cases (named other calls).getLast? <;> simp
      · have hne : (DirKey.name name == DirKey.name other) = false := by
          simpa using Ne.symm heq
        simp [named, hname, heq, hne]

section Keys

variable (calls : List Call)

/-- No key occurs twice. -/
theorem nodup_keys_ofCalls : (ofCalls calls).entries.keys.Nodup := by
  rw [ofCalls_eq]
  exact OrderedMap.nodup_keys_ofList _

/-- Every key stands where it was first used. -/
theorem keys_ofCalls :
    (ofCalls calls).entries.keys = ((writes 0 calls).map (·.1)).eraseDups := by
  rw [ofCalls_eq, OrderedMap.keys_ofList]

/-- The number of a directory without a name is its place among those. -/
theorem get?_ofCalls_index (i : Nat) : (ofCalls calls).get? (.index i) = (pushed calls)[i]? := by
  rw [ofCalls_eq, get?, OrderedMap.get?_ofList, lookup_writes_index]
  simp

/-- A name has the directory that was given for it last. -/
theorem get?_ofCalls_name (name : String) :
    (ofCalls calls).get? (.name name) = (named name calls).getLast? := by
  rw [ofCalls_eq, get?, OrderedMap.get?_ofList, lookup_writes_name]

/-- Numbers are given without gaps. -/
theorem index_mem_keys_ofCalls_iff (i : Nat) :
    .index i ∈ (ofCalls calls).entries.keys ↔ i < (pushed calls).length := by
  have hget := get?_ofCalls_index calls i
  rw [get?] at hget
  rw [← OrderedMap.contains_iff_mem_keys, OrderedMap.contains, hget]
  simp

/-- The directory at a place is the one of the key at that place. -/
theorem getElem?_dirs_ofCalls (i : Nat) :
    (ofCalls calls).dirs[i]? =
      ((writes 0 calls).map (·.1)).eraseDups[i]?.bind (ofCalls calls).get? := by
  rw [dirs, OrderedMap.getElem?_values (nodup_keys_ofCalls calls), keys_ofCalls]
  rfl

end Keys

/-! ## Tokens -/

section Tokens

variable {s : SearchDirs} {token : String}

/-- A name goes before everything else. -/
theorem resolveToken?_of_name {dir : String} (h : s.get? (.name token) = some dir) :
    s.resolveToken? token = some dir := by
  simp only [resolveToken?, h]

/-- Without a name, a number is tried as a key and then as a place. -/
theorem resolveToken?_of_numeral (h : s.get? (.name token) = none) {i : Nat}
    (hi : Text.IsNumeral token i) :
    s.resolveToken? token = (s.get? (.index i)).or s.dirs[i]? := by
  simp only [resolveToken?, h, Text.readNat?_eq_some_iff.mpr hi]
  cases s.get? (.index i) <;> rfl

/-- A token that is neither a name nor a numeral refers to nothing. -/
theorem resolveToken?_eq_none (h : s.get? (.name token) = none)
    (hno : ∀ i, ¬ Text.IsNumeral token i) : s.resolveToken? token = none := by
  have hread : Text.readNat? token.toList = none :=
    Option.eq_none_iff_forall_ne_some.mpr fun i hi => hno i (Text.readNat?_eq_some_iff.mp hi)
  simp only [resolveToken?, h, hread]

end Tokens

end SearchDirs

open SearchDirs in
/-- The set that any calls make of the empty one, with and without names and each from a working
    directory of its own.

    The keys are distinct. The numbers are those below the number of directories without a name, and
    the number `i` has the `i`-th of them. A name has the directory that was given for it last. The
    keys are in the order in which they were first used, and the `i`-th directory is the one of the
    `i`-th key.

    A token refers to the directory with that name. If there is none and the token is a numeral, it
    refers to the directory with the number, or else to the one at that place. Any other token
    refers to nothing. -/
theorem directory_keys_after_calls (calls : List Call) :
    (ofCalls calls).entries.keys.Nodup ∧
    (∀ i, .index i ∈ (ofCalls calls).entries.keys ↔ i < (pushed calls).length) ∧
    (∀ i, (ofCalls calls).get? (.index i) = (pushed calls)[i]?) ∧
    (∀ name, (ofCalls calls).get? (.name name) = (named name calls).getLast?) ∧
    (ofCalls calls).entries.keys = ((writes 0 calls).map (·.1)).eraseDups ∧
    (∀ i : Nat, (ofCalls calls).dirs[i]? =
      ((writes 0 calls).map (·.1)).eraseDups[i]?.bind (ofCalls calls).get?) ∧
    ∀ token,
      (∀ dir, (named token calls).getLast? = some dir →
        (ofCalls calls).resolveToken? token = some dir) ∧
      (named token calls = [] →
        (∀ i, Text.IsNumeral token i →
          (ofCalls calls).resolveToken? token = (pushed calls)[i]?.or (ofCalls calls).dirs[i]?) ∧
        ((∀ i, ¬ Text.IsNumeral token i) → (ofCalls calls).resolveToken? token = none)) := by
  refine ⟨nodup_keys_ofCalls calls, index_mem_keys_ofCalls_iff calls, get?_ofCalls_index calls,
    get?_ofCalls_name calls, keys_ofCalls calls, getElem?_dirs_ofCalls calls, fun token => ?_⟩
  -- A token is read as a name first, so the calls with that name decide.
  have hname := get?_ofCalls_name calls token
  refine ⟨fun dir hdir => ?_, fun hnone => ?_⟩
  · apply resolveToken?_of_name
    rw [hname, hdir]
  · rw [hnone, List.getLast?_nil] at hname
    refine ⟨fun i hi => ?_, resolveToken?_eq_none hname⟩
    rw [resolveToken?_of_numeral hname hi, get?_ofCalls_index]

/-- Calls with a name that is given twice, a name that is a numeral, and a relative directory. -/
def siteCalls : List SearchDirs.Call :=
  [{ name := "admin", dir := "/srv/admin" }, { dir := "/srv/main" }, { name := "1", dir := "/one" },
    { workingDir := "/srv/site", dir := "../shared" }, { name := "admin", dir := "/adm//" }]

/-- The name that is given twice keeps its place and has the second directory. The name `1` hides
    the directory with that number, which can still be had by its place. -/
theorem siteCalls_keys :
    (SearchDirs.ofCalls siteCalls).entries.keys =
        [.name "admin", .index 0, .name "1", .index 1] ∧
      (SearchDirs.ofCalls siteCalls).get? (.index 1) = some "/srv/shared/" ∧
      (SearchDirs.ofCalls siteCalls).resolveToken? "admin" = some "/adm/" ∧
      (SearchDirs.ofCalls siteCalls).resolveToken? "1" = some "/one/" ∧
      (SearchDirs.ofCalls siteCalls).resolveToken? "+0" = some "/srv/main/" ∧
      (SearchDirs.ofCalls siteCalls).resolveToken? "03" = some "/srv/shared/" ∧
      (SearchDirs.ofCalls siteCalls).resolveToken? "7" = none ∧
      (SearchDirs.ofCalls siteCalls).resolveToken? "main" = none := by
  obtain ⟨-, -, hindex, -, hkeys, -, htoken⟩ := directory_keys_after_calls siteCalls
  -- Numerals are recognised by reading them.
  have hnumeral : ∀ token i, Text.readNat? token.toList = some i → Text.IsNumeral token i :=
    fun _ _ => Text.readNat?_eq_some_iff.mp
  have hword : ∀ i, ¬ Text.IsNumeral "main" i := by
    intro i hi
    have hnone : Text.readNat? "main".toList = none := by decide
    rw [← Text.readNat?_eq_some_iff, hnone] at hi
    cases hi
  refine ⟨hkeys.trans (by decide), (hindex 1).trans (by decide), ?_, ?_, ?_, ?_, ?_, ?_⟩
  · exact (htoken "admin").1 "/adm/" (by decide)
  · exact (htoken "1").1 "/one/" (by decide)
  · exact (((htoken "+0").2 (by decide)).1 0 (hnumeral _ _ (by decide))).trans (by decide)
  · exact (((htoken "03").2 (by decide)).1 3 (hnumeral _ _ (by decide))).trans (by decide)
  · exact (((htoken "7").2 (by decide)).1 7 (hnumeral _ _ (by decide))).trans (by decide)
  · exact ((htoken "main").2 (by decide)).2 hword

end TagPress
