import TagPress.Proofs.TagEffect

/-!
# Resolved arguments

What a schema makes of the arguments of a tag. The reserved word `nocache` uses up no name for a
positional value and takes part in no check, so the outcome is the same without it. Every name among
the resolved attributes comes from the schema or the tag, and every value from the tag.

## Key results

- `Schema.outcome_resolve`: the three steps of a resolution, without the question about caching
- `Schema.outcome_resolve_withoutNocache`: arguments are resolved as if the word were not there
- `Schema.forall_of_resolve`: where the resolved names and values come from
-/

namespace TagPress

namespace OrderedMap

variable {α β : Type} [BEq α]

/-- The map without a key. The other entries keep their order. -/
def erase (m : OrderedMap α β) (key : α) : OrderedMap α β :=
  ⟨m.entries.filter fun entry => entry.1 != key⟩

end OrderedMap

/-- The tag without the reserved word, wherever it stands. -/
def Tag.withoutNocache (tag : Tag) : Tag :=
  { tag with
    positional := tag.positional.filter fun value => Text.strip value != nocacheAttribute
    attributes := tag.attributes.erase nocacheAttribute }

/-! ## The reserved word -/

namespace Schema

/-- The reserved word takes no name, so the others get the same names without it. -/
theorem outcome_bindPositional_filter (names values : List String) (attrs : Attributes)
    (asks asks' : Bool) :
    (bindPositional names (values.filter fun value => Text.strip value != nocacheAttribute) attrs
      asks').outcome = (bindPositional names values attrs asks).outcome := by
  -- The flags differ from the first word on, so both are generalized.
  induction values generalizing names attrs asks asks' with
  | nil => rfl
  | cons value values ih =>
    by_cases hword : (Text.strip value == nocacheAttribute) = true
    · rw [List.filter_cons_of_neg (by simpa using hword)]
      simp only [bindPositional, hword, if_true]
      exact ih names attrs true asks'
    · rw [List.filter_cons_of_pos (by simpa using hword)]
      simp only [bindPositional, hword, Bool.false_eq_true, if_false]
      cases names with
      | nil => rfl
      | cons name names => exact ih names (attrs.insert name value) asks asks'

/-- The reserved name is passed over before any check. -/
theorem outcome_bindNamed_filter (s : Schema) (entries : List (String × String))
    (attrs : Attributes) (asks asks' : Bool) :
    (s.bindNamed (entries.filter fun entry => entry.1 != nocacheAttribute) attrs asks').outcome =
      (s.bindNamed entries attrs asks).outcome := by
  induction entries generalizing attrs asks asks' with
  | nil => rfl
  | cons entry entries ih =>
    obtain ⟨name, value⟩ := entry
    -- The reserved name only asks, whatever was bound before it.
    by_cases hname : (name == nocacheAttribute) = true
    · rw [List.filter_cons_of_neg (by simpa using hname)]
      simp only [bindNamed, hname, if_true]
      exact ih attrs (asks || isTruthy value) asks'
    · rw [List.filter_cons_of_pos (by simpa using hname)]
      simp only [bindNamed, hname, Bool.false_eq_true, if_false]
      split
      · rfl
      · split
        · rfl
        · exact ih (attrs.insert name value) asks asks'

/-- The outcome of a resolution, without the question about caching. -/
theorem outcome_resolve (s : Schema) (tag : Tag) (asks : Bool) :
    (s.resolve tag).outcome =
      (bindPositional s.shorthand tag.positional .empty asks).outcome.bind fun attrs =>
        (s.bindNamed tag.attributes.entries attrs asks).outcome.bind s.checkRequired := by
  -- The filter lemma relates any two flags, by way of the list without the word.
  have hpositional : (bindPositional s.shorthand tag.positional .empty asks).outcome =
      (bindPositional s.shorthand tag.positional .empty false).outcome := by
    rw [← outcome_bindPositional_filter _ _ _ asks false, outcome_bindPositional_filter]
  rw [hpositional, resolve]
  match bindPositional s.shorthand tag.positional .empty false with
  | ⟨_, .error fault⟩ => rfl
  | ⟨asks₁, .ok attrs⟩ =>
    have hnamed : (s.bindNamed tag.attributes.entries attrs asks).outcome =
        (s.bindNamed tag.attributes.entries attrs asks₁).outcome := by
      rw [← outcome_bindNamed_filter _ _ _ asks false, outcome_bindNamed_filter]
    simp only [Except.bind, hnamed]
    match s.bindNamed tag.attributes.entries attrs asks₁ with
    | ⟨_, .error fault⟩ => rfl
    | ⟨_, .ok attrs'⟩ => rfl

/-- Arguments are resolved as if the reserved word were not there. -/
theorem outcome_resolve_withoutNocache (s : Schema) (tag : Tag) :
    (s.resolve tag.withoutNocache).outcome = (s.resolve tag).outcome := by
  rw [outcome_resolve s tag false, outcome_resolve s tag.withoutNocache false]
  simp only [Tag.withoutNocache, OrderedMap.erase]
  rw [outcome_bindPositional_filter _ _ _ false]
  congr 1
  funext attrs
  rw [outcome_bindNamed_filter _ _ _ false]

end Schema

/-! ## Names and values -/

namespace OrderedMap

/-- What holds of all names and values still holds after an insertion of such a pair. -/
theorem forall_insertEntry {P : String → Prop} {key value : String}
    {entries : List (String × String)} (hkey : P key) (hvalue : P value)
    (h : ∀ entry ∈ entries, P entry.1 ∧ P entry.2) :
    ∀ entry ∈ insertEntry key value entries, P entry.1 ∧ P entry.2 := by
  intro entry hentry
  obtain rfl | hold := mem_insertEntry hentry
  · exact ⟨hkey, hvalue⟩
  · exact h entry hold

end OrderedMap

namespace Schema

variable {P : String → Prop}

/-- What holds of the names for positional values and of the values holds of what is bound. -/
theorem forall_of_bindPositional {names values : List String} {attrs attrs' : Attributes}
    {asks : Bool} (hnames : ∀ name ∈ names, P name) (hvalues : ∀ value ∈ values, P value)
    (hattrs : ∀ entry ∈ attrs.entries, P entry.1 ∧ P entry.2)
    (h : (bindPositional names values attrs asks).outcome = .ok attrs') :
    ∀ entry ∈ attrs'.entries, P entry.1 ∧ P entry.2 := by
  -- Every value that is not the word takes the next name with it.
  induction values generalizing names attrs asks with
  | nil =>
    cases h
    exact hattrs
  | cons value values ih =>
    obtain ⟨hvalue, hvalues⟩ := List.forall_mem_cons.mp hvalues
    simp only [bindPositional] at h
    split at h
    · exact ih hnames hvalues hattrs h
    · cases names with
      | nil => cases h
      | cons name names =>
        obtain ⟨hname, hnames⟩ := List.forall_mem_cons.mp hnames
        have hnext := OrderedMap.forall_insertEntry hname hvalue hattrs
        exact ih hnames hvalues hnext h

/-- What holds of the names and values of attributes holds of what is bound after them. -/
theorem forall_of_bindNamed {s : Schema} {entries : List (String × String)}
    {attrs attrs' : Attributes} {asks : Bool}
    (hentries : ∀ entry ∈ entries, P entry.1 ∧ P entry.2)
    (hattrs : ∀ entry ∈ attrs.entries, P entry.1 ∧ P entry.2)
    (h : (s.bindNamed entries attrs asks).outcome = .ok attrs') :
    ∀ entry ∈ attrs'.entries, P entry.1 ∧ P entry.2 := by
  induction entries generalizing attrs asks with
  | nil =>
    cases h
    exact hattrs
  | cons entry entries ih =>
    obtain ⟨hentry, hentries⟩ := List.forall_mem_cons.mp hentries
    rw [bindNamed] at h
    split at h
    · exact ih hentries hattrs h
    · split at h
      · cases h
      · split at h
        · cases h
        · -- Of the four branches only this one adds an entry.
          have hnext := OrderedMap.forall_insertEntry hentry.1 hentry.2 hattrs
          exact ih hentries hnext h

/-- The last step of a resolution only checks. -/
theorem eq_of_checkRequired {s : Schema} {attrs attrs' : Attributes}
    (h : s.checkRequired attrs = .ok attrs') : attrs' = attrs := by
  rw [checkRequired] at h
  split at h
  · cases h
  · cases h
    rfl

/-- What holds of the names in the schema and of all names and values in the tag holds of all
    resolved names and values. -/
theorem forall_of_resolve {s : Schema} {tag : Tag} {attrs : Attributes}
    (hnames : ∀ name ∈ s.shorthand, P name) (hpositional : ∀ value ∈ tag.positional, P value)
    (hattributes : ∀ entry ∈ tag.attributes.entries, P entry.1 ∧ P entry.2)
    (h : (s.resolve tag).outcome = .ok attrs) :
    ∀ entry ∈ attrs.entries, P entry.1 ∧ P entry.2 := by
  rw [outcome_resolve s tag false, bind_eq_ok] at h
  obtain ⟨bound, hbound, h⟩ := h
  obtain ⟨named, hnamed, hrequired⟩ := bind_eq_ok.mp h
  have hnone : ∀ entry ∈ (OrderedMap.empty : Attributes).entries, P entry.1 ∧ P entry.2 := by
    simp [OrderedMap.empty]
  rw [eq_of_checkRequired hrequired]
  exact forall_of_bindNamed hattributes
    (forall_of_bindPositional hnames hpositional hnone hbound) hnamed

end Schema

end TagPress
