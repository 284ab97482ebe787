import Mathlib.Data.List.Basic
import Mathlib.Data.List.Induction
import TagPress.OrderedMap

/-!
# Insertion order

A map that is filled from a list keeps each key where it first stands, with the value it last has.

## Key results

- `OrderedMap.keys_ofList`, `OrderedMap.get?_ofList`: the order of the keys and their values
- `OrderedMap.entries_ofList`: each key of a list where it first stands, with its last value
-/

namespace TagPress

namespace OrderedMap

variable {α β : Type} [BEq α] [LawfulBEq α]

/-- A map contains its keys. -/
theorem contains_iff_mem_keys {m : OrderedMap α β} {key : α} :
    m.contains key = true ↔ key ∈ m.keys := by
  rw [contains, get?, List.lookup_isSome_iff, keys, List.mem_map]
  constructor
  · rintro ⟨entry, hentry, hkey⟩
    exact ⟨entry, hentry, (eq_of_beq hkey).symm⟩
  · rintro ⟨entry, hentry, rfl⟩
    exact ⟨entry, hentry, BEq.rfl⟩

/-- An insertion adds its key. -/
theorem mem_keys_insert {m : OrderedMap α β} {key k : α} {value : β} :
    k ∈ (m.insert key value).keys ↔ k = key ∨ k ∈ m.keys := by
  rw [← contains_iff_mem_keys, ← contains_iff_mem_keys, contains, get?_insert, contains]
  by_cases hk : k = key
  · simp [hk]
  · rw [if_neg (by simpa using hk)]
    simp [hk]

omit [LawfulBEq α] in
/-- The last entry of a list is inserted last. -/
theorem ofList_concat (entries : List (α × β)) (key : α) (value : β) :
    ofList (entries ++ [(key, value)]) = (ofList entries).insert key value := by
  rw [ofList, List.foldl_append]
  rfl

/-- The keys of a list, each where it first stands. -/
theorem keys_ofList (entries : List (α × β)) :
    (ofList entries).keys = (entries.map (·.1)).eraseDups := by
  -- Keys are added at the end, so the list is taken apart from its end.
  induction entries using List.reverseRecOn with
  | nil => rfl
  | append_singleton entries entry ih =>
    obtain ⟨key, value⟩ := entry
    have hkeys : ((ofList entries).insert key value).keys = _ :=
      map_fst_insertEntry key value (ofList entries).entries
    rw [ofList_concat, hkeys, ← keys, ih, List.map_append, List.eraseDups_append,
      List.map_singleton]
    by_cases hkey : key ∈ entries.map (·.1)
    · have hold : [key].removeAll (entries.map (·.1)) = [] := by
        simpa [List.removeAll] using hkey
      rw [if_pos (by simpa using hkey), hold, List.eraseDups_nil, List.append_nil]
    · have hnew : [key].removeAll (entries.map (·.1)) = [key] := by
        simpa [List.removeAll] using hkey
      rw [if_neg (by simpa using hkey), hnew]
      rfl

/-- The keys of a map that is filled from a list are distinct. -/
theorem nodup_keys_ofList (entries : List (α × β)) : (ofList entries).keys.Nodup := by
  induction entries using List.reverseRecOn with
  | nil => exact List.nodup_nil
  | append_singleton entries entry ih =>
    rw [ofList_concat]
    exact nodup_keys_insert ih _ _

/-- The value of a key is the last one in the list. -/
theorem get?_ofList (entries : List (α × β)) (key : α) :
    (ofList entries).get? key = entries.reverse.lookup key := by
  induction entries using List.reverseRecOn with
  | nil => rfl
  | append_singleton entries entry ih =>
    rw [ofList_concat, get?_insert, ih, List.reverse_append, List.reverse_singleton,
      List.singleton_append, List.lookup_cons]
    cases key == entry.1 <;> rfl

omit [LawfulBEq α] in
/-- Each key of a list once, where it first stands, with the value it last has. -/
def lastValues (entries : List (α × β)) : List (α × β) :=
  (entries.map (·.1)).eraseDups.filterMap fun key =>
    (entries.reverse.lookup key).map fun value => (key, value)

/-- The entries of a map that is filled from a list. -/
theorem entries_ofList (entries : List (α × β)) :
    (ofList entries).entries = lastValues entries := by
  rw [lastValues, ← keys_ofList, keys, List.filterMap_map]
  -- With distinct keys, looking the key of an entry up gives the entry back.
  refine ((List.filterMap_congr fun entry hentry => ?_).trans List.filterMap_some).symm
  have hget := get?_of_mem (nodup_keys_ofList entries) hentry
  rw [get?_ofList] at hget
  simp [hget]

end OrderedMap

end TagPress
