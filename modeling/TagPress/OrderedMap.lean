/-!
# Maps that remember insertion order

An `OrderedMap` is a list of entries. Inserting a key that is already there replaces its value and
keeps its place; a new key goes to the end.
-/

namespace TagPress

/-- Entries in the order in which their keys were first inserted. -/
structure OrderedMap (α β : Type) where
  /-- The entries, first inserted first. -/
  entries : List (α × β) := []
  deriving DecidableEq

namespace OrderedMap

variable {α β : Type} [BEq α]

/-- The map without entries. -/
def empty : OrderedMap α β := ⟨[]⟩

instance : Inhabited (OrderedMap α β) := ⟨empty⟩

/-- The value of a key. -/
def get? (m : OrderedMap α β) (key : α) : Option β :=
  m.entries.lookup key

/-- Whether a key has a value. -/
def contains (m : OrderedMap α β) (key : α) : Bool :=
  (m.get? key).isSome

/-- Replaces the value of `key` in a list of entries, or adds it at the end. -/
def insertEntry (key : α) (value : β) : List (α × β) → List (α × β)
  | [] => [(key, value)]
  | (k, v) :: rest => if key == k then (k, value) :: rest else (k, v) :: insertEntry key value rest

/-- Gives `key` a value; a key that was there keeps its place. -/
def insert (m : OrderedMap α β) (key : α) (value : β) : OrderedMap α β :=
  ⟨insertEntry key value m.entries⟩

/-- The map that results from inserting the entries of a list one after the other. -/
def ofList (entries : List (α × β)) : OrderedMap α β :=
  entries.foldl (fun m (key, value) => m.insert key value) empty

/-- The keys in order. -/
def keys (m : OrderedMap α β) : List α :=
  m.entries.map (·.1)

/-- The values in order. -/
def values (m : OrderedMap α β) : List β :=
  m.entries.map (·.2)

/-- The number of entries. -/
def size (m : OrderedMap α β) : Nat :=
  m.entries.length

/-- Inserting into a list of entries changes what is found under the inserted key only. -/
theorem lookup_insertEntry [LawfulBEq α] (key : α) (value : β) (entries : List (α × β)) (k : α) :
    (insertEntry key value entries).lookup k =
      if k == key then some value else entries.lookup k := by
  induction entries with
  | nil => cases hk : k == key <;> simp [insertEntry, List.lookup_cons, hk]
  | cons entry rest ih =>
    obtain ⟨k₀, v₀⟩ := entry
    -- The first entry is replaced, or it is kept and asked before the others.
    by_cases h : key = k₀
    · subst h
      cases hk : k == key <;> simp [insertEntry, List.lookup_cons, hk]
    · have hne : (key == k₀) = false := beq_eq_false_iff_ne.mpr h
      simp only [insertEntry, hne, Bool.false_eq_true, if_false, List.lookup_cons, ih]
      cases hk : k == k₀ with
      | false => rfl
      | true =>
        have hkey : (k == key) = false := beq_eq_false_iff_ne.mpr fun hkey =>
          h (hkey.symm.trans (eq_of_beq hk))
        simp [hkey]

/-- An insertion brings in no entry besides its own. -/
theorem mem_insertEntry [LawfulBEq α] {key : α} {value : β} {entries : List (α × β)} {entry : α × β}
    (h : entry ∈ insertEntry key value entries) : entry = (key, value) ∨ entry ∈ entries := by
  induction entries with
  | nil => exact .inl (List.mem_singleton.mp h)
  | cons first rest ih =>
    obtain ⟨k, v⟩ := first
    rw [insertEntry] at h
    split at h
    · rename_i hkey
      obtain rfl | hrest := List.mem_cons.mp h
      · exact .inl (by rw [eq_of_beq hkey])
      · exact .inr (List.mem_cons_of_mem _ hrest)
    · obtain rfl | hrest := List.mem_cons.mp h
      · exact .inr List.mem_cons_self
      · exact (ih hrest).imp_right (List.mem_cons_of_mem _)

/-- A new key goes to the end. -/
theorem insertEntry_of_notMem [LawfulBEq α] {key : α} {value : β} {entries : List (α × β)}
    (h : key ∉ entries.map (·.1)) : insertEntry key value entries = entries ++ [(key, value)] := by
  induction entries with
  | nil => rfl
  | cons first rest ih =>
    rw [List.map_cons, List.mem_cons, not_or] at h
    have hne : (key == first.1) = false := beq_eq_false_iff_ne.mpr h.1
    rw [insertEntry, if_neg (by rw [hne]; decide), ih h.2, List.cons_append]

/-- The keys of a list of entries after an insertion. -/
theorem map_fst_insertEntry [LawfulBEq α] (key : α) (value : β) (entries : List (α × β)) :
    (insertEntry key value entries).map (·.1) =
      if (entries.map (·.1)).contains key then entries.map (·.1)
      else entries.map (·.1) ++ [key] := by
  induction entries with
  | nil => rfl
  | cons first rest ih =>
    obtain ⟨k, v⟩ := first
    rw [insertEntry, List.map_cons, List.contains_cons]
    -- A key that is found keeps its place, so the keys stay what they are.
    cases hk : key == k with
    | true => simp
    | false =>
      simp only [Bool.false_eq_true, if_false, Bool.false_or, List.map_cons, ih]
      split <;> rfl

/-- Insertions keep the keys distinct. -/
theorem nodup_keys_insert [LawfulBEq α] {m : OrderedMap α β} (h : m.keys.Nodup) (key : α)
    (value : β) : (m.insert key value).keys.Nodup := by
  have hkeys : (m.insert key value).keys = _ := map_fst_insertEntry key value m.entries
  rw [hkeys]
  split
  · exact h
  · rename_i hnew
    have hnotMem : key ∉ m.entries.map (·.1) := fun hmem => hnew (List.contains_iff_mem.mpr hmem)
    refine List.nodup_append.mpr ⟨h, by simp, fun k hk k' hk' heq => hnotMem ?_⟩
    rw [List.mem_singleton.mp hk'] at heq
    exact heq ▸ hk

/-- What is found under a key is an entry. -/
theorem mem_of_get? [LawfulBEq α] {m : OrderedMap α β} {key : α} {value : β}
    (h : m.get? key = some value) : (key, value) ∈ m.entries := by
  obtain ⟨front, back, hentries, -⟩ := List.lookup_eq_some_iff.mp h
  rw [hentries]
  exact List.mem_append_right _ List.mem_cons_self

/-- With distinct keys, every entry is found under its key. -/
theorem get?_of_mem [LawfulBEq α] {m : OrderedMap α β} (h : m.keys.Nodup) {key : α} {value : β}
    (hmem : (key, value) ∈ m.entries) : m.get? key = some value := by
  obtain ⟨entries⟩ := m
  rw [get?]
  rw [keys] at h
  induction entries with
  | nil => cases hmem
  | cons first rest ih =>
    obtain ⟨hfirst, hrest⟩ := List.nodup_cons.mp h
    -- Distinct keys rule out an earlier entry that would be found instead.
    obtain rfl | hmem := List.mem_cons.mp hmem
    · rw [List.lookup_cons_self]
    · have hkey : key ∈ rest.map (·.1) := List.mem_map_of_mem hmem
      have hne : (key == first.1) = false := beq_eq_false_iff_ne.mpr fun heq => by
        rw [heq] at hkey
        exact hfirst hkey
      rw [List.lookup_cons, hne]
      exact ih hrest hmem

/-- The values after an insertion. -/
theorem get?_insert [LawfulBEq α] (m : OrderedMap α β) (key : α) (value : β) (k : α) :
    (m.insert key value).get? k = if k == key then some value else m.get? k :=
  lookup_insertEntry key value m.entries k

/-- An insertion is not seen under another key. -/
theorem get?_insert_of_ne [LawfulBEq α] (m : OrderedMap α β) {key k : α} (value : β) (h : k ≠ key) :
    (m.insert key value).get? k = m.get? k := by
  rw [get?_insert, if_neg (by simpa using h)]

end OrderedMap

end TagPress
