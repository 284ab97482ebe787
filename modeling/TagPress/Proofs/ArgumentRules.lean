import TagPress.Proofs.Cacheability
import TagPress.Proofs.InsertionOrder
import TagPress.Proofs.ResolvedArguments

/-!
# Rules for arguments

A schema decides what becomes of the arguments of a tag, and its rules can be said without the order
in which the arguments are read: which fault goes before which, and which attributes come out. The
reserved word `nocache` is set aside first. What remains gets one verdict, and that is the outcome
of the resolution. The word still comes through where a schema has it as a name for positional
values.

## Key results

- `Schema.Verdict`: the rules of a schema
- `Schema.verdict_iff`: the outcome of a resolution is the verdict
- `resolve_follows_rules`: arguments are resolved by the rules, and one flag of the context changes
- `nocache_forwarded_iff`: when the reserved word is among the resolved names
-/

namespace TagPress

/-! ## The rules -/

namespace Schema

/-- The schema takes attributes of the name. -/
def Takes (s : Schema) (name : String) : Prop :=
  name ∈ s.required ∨ name ∈ s.optional ∨ anyAttribute ∈ s.optional

/-- The names of the positional values. -/
def taken (s : Schema) (positional : List String) : List String :=
  s.shorthand.take positional.length

/-- The schema takes the name, and no positional value has it. -/
def Free (s : Schema) (positional : List String) (name : String) : Prop :=
  s.Takes name ∧ name ∉ s.taken positional

/-- The name has a value. -/
def Given (s : Schema) (positional : List String) (named : List (String × String))
    (name : String) : Prop :=
  name ∈ s.taken positional ∨ name ∈ named.map (·.1)

instance (s : Schema) (name : String) : Decidable (s.Takes name) :=
  inferInstanceAs (Decidable (_ ∨ _ ∨ _))

instance (s : Schema) (positional : List String) (name : String) :
    Decidable (s.Free positional name) :=
  inferInstanceAs (Decidable (_ ∧ _))

instance (s : Schema) (positional : List String) (named : List (String × String))
    (name : String) : Decidable (s.Given positional named name) :=
  inferInstanceAs (Decidable (_ ∨ _))

/-- The rules for arguments without the reserved word. The first fault counts: too many positional
    values, then the first named attribute that is not free, then the first required name without a
    value. -/
inductive Verdict (s : Schema) (positional : List String) (named : List (String × String)) :
    Except Fault Attributes → Prop where
  | tooMany (h : s.shorthand.length < positional.length) :
      Verdict s positional named (.error .tooManyPositional)
  | unexpected {before after : List (String × String)} {name value : String}
      (hfit : positional.length ≤ s.shorthand.length)
      (hnamed : named = before ++ (name, value) :: after)
      (hbefore : ∀ entry ∈ before, s.Free positional entry.1) (hname : ¬ s.Takes name) :
      Verdict s positional named (.error (.unexpectedAttribute name))
  | duplicate {before after : List (String × String)} {name value : String}
      (hfit : positional.length ≤ s.shorthand.length)
      (hnamed : named = before ++ (name, value) :: after)
      (hbefore : ∀ entry ∈ before, s.Free positional entry.1) (hname : s.Takes name)
      (htaken : name ∈ s.taken positional) :
      Verdict s positional named (.error (.duplicateAttribute name))
  | missing {before after : List String} {name : String}
      (hfit : positional.length ≤ s.shorthand.length)
      (hnamed : ∀ entry ∈ named, s.Free positional entry.1)
      (hrequired : s.required = before ++ name :: after)
      (hbefore : ∀ other ∈ before, s.Given positional named other)
      (hname : ¬ s.Given positional named name) :
      Verdict s positional named (.error (.missingAttribute name))
  | resolved (hfit : positional.length ≤ s.shorthand.length)
      (hnamed : ∀ entry ∈ named, s.Free positional entry.1)
      (hrequired : ∀ name ∈ s.required, s.Given positional named name) :
      Verdict s positional named
        (.ok ⟨OrderedMap.lastValues (s.shorthand.zip positional) ++ named⟩)

/-- The check of a name, as the rule says it. -/
theorem accepts_iff {s : Schema} {name : String} : s.accepts name = true ↔ s.Takes name := by
  simp only [accepts, Takes, Bool.or_eq_true, List.contains_iff_mem, List.any_eq_true, beq_iff_eq]
  constructor
  · rintro (hrequired | ⟨n, hn, rfl | rfl⟩)
    · exact .inl hrequired
    · exact .inr (.inl hn)
    · exact .inr (.inr hn)
  · rintro (hrequired | hoptional | hany)
    · exact .inl hrequired
    · exact .inr ⟨name, hoptional, .inl rfl⟩
    · exact .inr ⟨anyAttribute, hany, .inr rfl⟩

/-- Some verdict is always reached. -/
theorem exists_verdict (s : Schema) (positional : List String) (named : List (String × String)) :
    ∃ outcome, s.Verdict positional named outcome := by
  -- Faults are looked for in the order in which they count.
  by_cases hfit : positional.length ≤ s.shorthand.length
  · -- The first named attribute that is not free decides, if there is one.
    cases hfirst : named.find? fun entry => !decide (s.Free positional entry.1) with
    | some entry =>
      obtain ⟨hentry, before, after, hnamed, hbefore⟩ := List.find?_eq_some_iff_append.mp hfirst
      simp only [Bool.not_eq_true', decide_eq_false_iff_not, Bool.not_not, decide_eq_true_eq]
        at hentry hbefore
      by_cases htakes : s.Takes entry.1
      · have htaken : entry.1 ∈ s.taken positional :=
          Decidable.byContradiction fun hfree => hentry ⟨htakes, hfree⟩
        exact ⟨_, .duplicate hfit hnamed hbefore htakes htaken⟩
      · exact ⟨_, .unexpected hfit hnamed hbefore htakes⟩
    | none =>
      have hnamed : ∀ entry ∈ named, s.Free positional entry.1 := by
        simpa using List.find?_eq_none.mp hfirst
      -- Without one, the first required name that has no value decides.
      cases hmissing : s.required.find? fun name => !decide (s.Given positional named name) with
      | some name =>
        obtain ⟨hname, before, after, hrequired, hbefore⟩ :=
          List.find?_eq_some_iff_append.mp hmissing
        exact ⟨_, .missing hfit hnamed hrequired (by simpa using hbefore) (by simpa using hname)⟩
      | none =>
        exact ⟨_, .resolved hfit hnamed (by simpa using List.find?_eq_none.mp hmissing)⟩
  · exact ⟨_, .tooMany (by omega)⟩

/-! ## Resolution follows the rules -/

/-- Without the reserved word, positional values get the names in order, if there are enough
    names. -/
theorem outcome_bindPositional_eq {values : List String}
    (h : ∀ value ∈ values, Text.strip value ≠ nocacheAttribute) (names : List String)
    (attrs : Attributes) (asks : Bool) :
    (bindPositional names values attrs asks).outcome =
      if names.length < values.length then .error .tooManyPositional
      else .ok ((names.zip values).foldl (fun m (name, value) => m.insert name value) attrs) := by
  induction values generalizing names attrs with
  | nil =>
    rw [List.zip_nil_right]
    rfl
  | cons value values ih =>
    obtain ⟨hvalue, hvalues⟩ := List.forall_mem_cons.mp h
    have hword : (Text.strip value == nocacheAttribute) = false := beq_eq_false_iff_ne.mpr hvalue
    simp only [bindPositional, hword, Bool.false_eq_true, if_false]
    -- Without a name for the first value there are fewer names than values.
    cases names with
    | nil => rfl
    | cons name names =>
      simp only [ih hvalues, List.length_cons, Nat.add_lt_add_iff_right, List.zip_cons_cons,
        List.foldl_cons]

/-- Named attributes that are free and differ from each other are added at the end. -/
theorem outcome_bindNamed_append {s : Schema} {before : List (String × String)}
    (hnodup : (before.map (·.1)).Nodup) {attrs : Attributes}
    (hbefore : ∀ entry ∈ before, entry.1 ≠ nocacheAttribute ∧ s.Takes entry.1 ∧
      entry.1 ∉ attrs.keys) (rest : List (String × String)) (asks : Bool) :
    (s.bindNamed (before ++ rest) attrs asks).outcome =
      (s.bindNamed rest ⟨attrs.entries ++ before⟩ asks).outcome := by
  -- The attributes grow at the end, since every name is new to them.
  induction before generalizing attrs with
  | nil => rw [List.nil_append, List.append_nil]
  | cons entry before ih =>
    obtain ⟨name, value⟩ := entry
    obtain ⟨⟨hname, htakes, hnew⟩, hbefore⟩ := List.forall_mem_cons.mp hbefore
    obtain ⟨hother, hnodup⟩ := List.nodup_cons.mp hnodup
    have hinsert : attrs.insert name value = ⟨attrs.entries ++ [(name, value)]⟩ := by
      rw [OrderedMap.insert, OrderedMap.insertEntry_of_notMem hnew]
    rw [List.cons_append, bindNamed, if_neg (by simpa using hname),
      if_neg (by simpa using accepts_iff.mpr htakes),
      if_neg (by rwa [OrderedMap.contains_iff_mem_keys]), ih hnodup, hinsert]
    · rw [List.append_assoc, List.singleton_append]
    · -- The names behind differ from the one that was added, so they are still new.
      intro entry hentry
      obtain ⟨hne, htakes, hold⟩ := hbefore entry hentry
      refine ⟨hne, htakes, ?_⟩
      rw [OrderedMap.mem_keys_insert, not_or]
      exact ⟨fun heq => hother (List.mem_map.mpr ⟨entry, hentry, heq⟩), hold⟩

/-- The names that positional values have got are the first ones of the schema. -/
theorem mem_keys_ofList_zip {s : Schema} {positional : List String}
    (hfit : positional.length ≤ s.shorthand.length) {name : String} :
    name ∈ (OrderedMap.ofList (s.shorthand.zip positional)).keys ↔ name ∈ s.taken positional := by
  have hnames : (s.shorthand.zip positional).map (·.1) = s.taken positional := by
    rw [List.zip_eq_zip_take_min, Nat.min_eq_right hfit]
    exact List.map_fst_zip (by rw [List.length_take, List.length_take]; omega)
  rw [OrderedMap.keys_ofList, List.mem_eraseDups, hnames]

section Outcome

variable {s : Schema} {positional : List String} {named : List (String × String)}

/-- The names that have a value once all named attributes are added. -/
theorem contains_iff_given (hfit : positional.length ≤ s.shorthand.length) {name : String} :
    OrderedMap.contains
        ⟨(OrderedMap.ofList (s.shorthand.zip positional)).entries ++ named⟩ name = true ↔
      s.Given positional named name := by
  rw [OrderedMap.contains_iff_mem_keys, OrderedMap.keys, List.map_append, List.mem_append,
    ← OrderedMap.keys, mem_keys_ofList_zip hfit, Given]

variable (hpositional : ∀ value ∈ positional, Text.strip value ≠ nocacheAttribute)
  (hnodup : (named.map (·.1)).Nodup) (hword : ∀ entry ∈ named, entry.1 ≠ nocacheAttribute)

include hnodup hword in
/-- Attributes that are free are added behind the positional values before the others are looked
    at. -/
theorem outcome_bindNamed_of_free (hfit : positional.length ≤ s.shorthand.length)
    {before rest : List (String × String)} (hnamed : named = before ++ rest)
    (hbefore : ∀ entry ∈ before, s.Free positional entry.1) (asks : Bool) :
    (s.bindNamed named (OrderedMap.ofList (s.shorthand.zip positional)) asks).outcome =
      (s.bindNamed rest ⟨(OrderedMap.ofList (s.shorthand.zip positional)).entries ++ before⟩
        asks).outcome := by
  subst hnamed
  rw [List.map_append] at hnodup
  -- Names before the first that is not free are all bound.
  refine outcome_bindNamed_append (List.nodup_append.mp hnodup).1 (fun entry hentry => ?_) rest asks
  obtain ⟨htakes, hfree⟩ := hbefore entry hentry
  refine ⟨hword entry (List.mem_append_left _ hentry), htakes, ?_⟩
  rwa [mem_keys_ofList_zip hfit]

include hpositional hnodup hword in
/-- The three steps of a resolution come to the verdict. -/
theorem Verdict.bind_eq {outcome : Except Fault Attributes} (h : s.Verdict positional named outcome)
    (asks : Bool) :
    ((bindPositional s.shorthand positional .empty asks).outcome.bind fun attrs =>
      (s.bindNamed named attrs asks).outcome.bind s.checkRequired) = outcome := by
  have hnone : named = named ++ [] := (List.append_nil named).symm
  -- With names for all positional values, the first step succeeds.
  have hbound : positional.length ≤ s.shorthand.length →
      (bindPositional s.shorthand positional .empty asks).outcome =
        .ok (OrderedMap.ofList (s.shorthand.zip positional)) := by
    intro hfit
    rw [outcome_bindPositional_eq hpositional, if_neg (by omega)]
    rfl
  cases h with
  | tooMany h =>
    rw [outcome_bindPositional_eq hpositional, if_pos h]
    rfl
  | unexpected hfit hnamed hbefore hname =>
    have hentry := hword _ (hnamed ▸ List.mem_append_right _ List.mem_cons_self)
    rw [hbound hfit, Except.bind, outcome_bindNamed_of_free hnodup hword hfit hnamed hbefore,
      bindNamed, if_neg (by simpa using hentry), if_pos (by simpa [← accepts_iff] using hname)]
    rfl
  | duplicate hfit hnamed hbefore hname htaken =>
    have hentry := hword _ (hnamed ▸ List.mem_append_right _ List.mem_cons_self)
    rw [hbound hfit, Except.bind, outcome_bindNamed_of_free hnodup hword hfit hnamed hbefore,
      bindNamed, if_neg (by simpa using hentry), if_neg (by simpa [← accepts_iff] using hname),
      if_pos ((contains_iff_given hfit).mpr (.inl htaken))]
    rfl
  | @missing before after name hfit hnamed hrequired hbefore hname =>
    -- All named attributes are in, and the check stops at the first name that is not given.
    have hfirst : s.required.find? (fun name => !OrderedMap.contains
        ⟨(OrderedMap.ofList (s.shorthand.zip positional)).entries ++ named⟩ name) = some name := by
      rw [List.find?_eq_some_iff_append]
      refine ⟨by simpa [← contains_iff_given hfit] using hname, before, after, hrequired, ?_⟩
      intro other hother
      simpa using (contains_iff_given hfit).mpr (hbefore other hother)
    rw [hbound hfit, Except.bind, outcome_bindNamed_of_free hnodup hword hfit hnone hnamed,
      bindNamed, Except.bind, checkRequired, hfirst]
  | resolved hfit hnamed hrequired =>
    have hall : s.required.find? (fun name => !OrderedMap.contains
        ⟨(OrderedMap.ofList (s.shorthand.zip positional)).entries ++ named⟩ name) = none := by
      rw [List.find?_eq_none]
      intro name hname
      simpa using (contains_iff_given hfit).mpr (hrequired name hname)
    rw [hbound hfit, Except.bind, outcome_bindNamed_of_free hnodup hword hfit hnone hnamed,
      bindNamed, Except.bind, checkRequired, hall, OrderedMap.entries_ofList]

end Outcome

/-- Without the reserved word, no positional value is the word. -/
theorem strip_ne_of_mem_positional {tag : Tag} :
    ∀ value ∈ tag.withoutNocache.positional, Text.strip value ≠ nocacheAttribute := by
  intro value hvalue
  simpa using (List.mem_filter.mp hvalue).2

/-- Without the reserved word, a tag has all its other names. -/
theorem mem_map_fst_withoutNocache {tag : Tag} {name : String} :
    name ∈ tag.withoutNocache.attributes.entries.map (·.1) ↔
      name ∈ tag.attributes.keys ∧ name ≠ nocacheAttribute := by
  simp only [Tag.withoutNocache, OrderedMap.erase, OrderedMap.keys, List.mem_map, List.mem_filter,
    bne_iff_ne]
  constructor
  · rintro ⟨entry, ⟨hentry, hword⟩, rfl⟩
    exact ⟨⟨entry, hentry, rfl⟩, hword⟩
  · rintro ⟨⟨entry, hentry, rfl⟩, hword⟩
    exact ⟨entry, ⟨hentry, hword⟩, rfl⟩

/-- The outcome of a resolution is the verdict on the arguments without the reserved word. -/
theorem verdict_iff {s : Schema} {tag : Tag} (hnodup : tag.attributes.keys.Nodup)
    {outcome : Except Fault Attributes} :
    s.Verdict tag.withoutNocache.positional tag.withoutNocache.attributes.entries outcome ↔
      (s.resolve tag).outcome = outcome := by
  have hword : ∀ entry ∈ tag.withoutNocache.attributes.entries, entry.1 ≠ nocacheAttribute :=
    fun entry hentry => (mem_map_fst_withoutNocache.mp (List.mem_map_of_mem hentry)).2
  have hdistinct : (tag.withoutNocache.attributes.entries.map (·.1)).Nodup :=
    hnodup.sublist (List.filter_sublist.map _)
  -- The rules speak of the arguments without the word, and the outcome does not depend on it.
  have hsound : ∀ {other},
      s.Verdict tag.withoutNocache.positional tag.withoutNocache.attributes.entries other →
        (s.resolve tag).outcome = other := by
    intro other h
    rw [← outcome_resolve_withoutNocache, outcome_resolve _ _ false]
    exact h.bind_eq strip_ne_of_mem_positional hdistinct hword false
  constructor
  · exact hsound
  · -- Some verdict is reached and is the outcome, so the outcome is a verdict.
    rintro rfl
    obtain ⟨other, h⟩ := s.exists_verdict tag.withoutNocache.positional
      tag.withoutNocache.attributes.entries
    rwa [hsound h]

end Schema

/-- A context resolves what its schema resolves. -/
theorem Context.outcome_of_resolve {ctx : Context} {s : Schema} {tag : Tag} {attrs : Attributes}
    (h : (ctx.resolve s tag).1 = .ok attrs) : (s.resolve tag).outcome = .ok attrs := by
  cases houtcome : (s.resolve tag).outcome with
  | error fault =>
    rw [resolve_of_error houtcome] at h
    cases h
  | ok resolved =>
    rw [resolve_of_ok houtcome] at h
    cases h
    rfl

/-- For every schema, context and tag, no two of its named attributes having one name: resolving the
    arguments gives the verdict of the schema on the positional values and named attributes without
    the reserved word, with faults placed by the context. Resolved attributes have every required
    name, and then the tag is marked for no caching exactly if it was marked or carries the word.
    Nothing else in the context changes, whatever the outcome. -/
theorem resolve_follows_rules (ctx : Context) (s : Schema) {tag : Tag}
    (hnodup : tag.attributes.keys.Nodup) :
    (∀ result, (ctx.resolve s tag).1 = result ↔ ∃ outcome,
        s.Verdict tag.withoutNocache.positional tag.withoutNocache.attributes.entries outcome ∧
          outcome.mapError ctx.failure = result) ∧
      (∀ attrs, (ctx.resolve s tag).1 = .ok attrs →
        (∀ name ∈ s.required, name ∈ attrs.keys) ∧
          ((ctx.resolve s tag).2.tagNocache = true ↔ ctx.tagNocache = true ∨ tag.AsksNocache)) ∧
      { (ctx.resolve s tag).2 with tagNocache := ctx.tagNocache } = ctx := by
  refine ⟨fun result => ?_, fun attrs hattrs => ⟨?_, ?_⟩, rfl⟩
  · simp only [Schema.verdict_iff hnodup, exists_eq_left']
    rfl
  · have hverdict := (Schema.verdict_iff hnodup).mpr (Context.outcome_of_resolve hattrs)
    -- Of the verdicts only one ends with attributes, and there every required name was given.
    cases hverdict with
    | resolved hfit hnamed hrequired =>
      intro name hname
      rw [← OrderedMap.contains_iff_mem_keys, ← OrderedMap.entries_ofList]
      exact (Schema.contains_iff_given hfit).mpr (hrequired name hname)
  · rw [← Schema.asksNocache_resolve_iff (Context.outcome_of_resolve hattrs), ← Bool.or_eq_true]
    rfl

/-- A schema with a name that two positional values get. -/
def repeatingSchema : Schema :=
  { required := ["a"], optional := ["_any"], shorthand := ["a", "b", "a"] }

/-- A tag with the reserved word between its positional values and among its names. -/
def mixedTag : Tag :=
  { name := "t", positional := ["1", " nocache ", "2", "3"]
    attributes := .ofList [("nocache", "false"), ("c", "4")] }

/-- A tag whose named attribute alone says something about caching. -/
def namedTag (value : String) : Tag :=
  { name := "t", positional := ["1"], attributes := .ofList [("c", "4"), ("nocache", value)] }

/-- The repeated name keeps its first place and its last value, and the word asks for no caching. So
    does a named attribute whose value is true. -/
theorem mixedTag_resolve :
    mixedTag.attributes.keys.Nodup ∧
      (({} : Context).resolve repeatingSchema mixedTag).1 =
        .ok ⟨[("a", "3"), ("b", "2"), ("c", "4")]⟩ ∧
      (({} : Context).resolve repeatingSchema mixedTag).2.tagNocache = true ∧
      (({} : Context).resolve repeatingSchema (namedTag "yes")).1 = .ok ⟨[("a", "1"), ("c", "4")]⟩ ∧
      (({} : Context).resolve repeatingSchema (namedTag "yes")).2.tagNocache = true ∧
      (({} : Context).resolve repeatingSchema (namedTag " False")).2.tagNocache = false := by
  have hnodup : mixedTag.attributes.keys.Nodup := by decide
  obtain ⟨hresult, hok, -⟩ := resolve_follows_rules {} repeatingSchema hnodup
  have hresolved : (({} : Context).resolve repeatingSchema mixedTag).1 =
      .ok ⟨[("a", "3"), ("b", "2"), ("c", "4")]⟩ :=
    (hresult _).mpr ⟨_, .resolved (by decide) (by decide) (by decide), rfl⟩
  obtain ⟨hresult', hok', -⟩ :=
    resolve_follows_rules {} repeatingSchema (by decide : (namedTag "yes").attributes.keys.Nodup)
  have hnamed : (({} : Context).resolve repeatingSchema (namedTag "yes")).1 =
      .ok ⟨[("a", "1"), ("c", "4")]⟩ :=
    (hresult' _).mpr ⟨_, .resolved (by decide) (by decide) (by decide), rfl⟩
  -- The first tag asks by a value, the second by a name.
  refine ⟨hnodup, hresolved, (hok _ hresolved).2.mpr (.inr (.inl ?_)), hnamed,
    (hok' _ hnamed).2.mpr (.inr (.inr ?_)), by decide⟩
  · exact ⟨" nocache ", by decide, by decide⟩
  · exact ⟨"yes", by decide, by decide⟩

/-! ## The reserved word among the resolved names -/

namespace Schema

/-- Named attributes never bring the reserved word in. -/
theorem nocache_mem_keys_bindNamed {s : Schema} {entries : List (String × String)}
    {attrs attrs' : Attributes} {asks : Bool}
    (h : (s.bindNamed entries attrs asks).outcome = .ok attrs') :
    nocacheAttribute ∈ attrs'.keys ↔ nocacheAttribute ∈ attrs.keys := by
  induction entries generalizing attrs asks with
  | nil =>
    cases h
    rfl
  | cons entry entries ih =>
    obtain ⟨name, value⟩ := entry
    rw [bindNamed] at h
    -- The word itself is passed over, and every other name is not the word.
    split at h
    · exact ih h
    · rename_i hname
      split at h
      · cases h
      · split at h
        · cases h
        · have hne : nocacheAttribute ≠ name := fun heq => hname (beq_iff_eq.mpr heq.symm)
          rw [ih h, OrderedMap.mem_keys_insert, or_iff_right hne]

/-- The reserved word is among the resolved names only as the name of a positional value. -/
theorem nocache_mem_keys_resolve {s : Schema} {tag : Tag} {attrs : Attributes}
    (h : (s.resolve tag).outcome = .ok attrs) :
    nocacheAttribute ∈ attrs.keys ↔
      nocacheAttribute ∈ s.taken tag.withoutNocache.positional := by
  rw [← outcome_resolve_withoutNocache, outcome_resolve _ _ false, bind_eq_ok] at h
  obtain ⟨bound, hbound, h⟩ := h
  obtain ⟨named, hnamed, hrequired⟩ := bind_eq_ok.mp h
  -- Names never bring the word in, so it comes from the values.
  rw [eq_of_checkRequired hrequired, nocache_mem_keys_bindNamed hnamed]
  rw [outcome_bindPositional_eq strip_ne_of_mem_positional] at hbound
  split at hbound
  · cases hbound
  · rename_i hfit
    cases hbound
    exact mem_keys_ofList_zip (by omega)

/-- A tag that gives every name of a schema a value, by position where that is possible. -/
def fillingTag (s : Schema) : Tag :=
  { name := "t"
    positional := List.replicate s.shorthand.length "x"
    attributes := .ofList ((s.required.filter fun name => !s.shorthand.contains name).map
      fun name => (name, "x")) }

/-- The tag has one positional value for each name. -/
theorem length_positional_fillingTag (s : Schema) :
    s.fillingTag.withoutNocache.positional.length = s.shorthand.length := by
  have hpositional : s.fillingTag.withoutNocache.positional =
      List.replicate s.shorthand.length "x" :=
    List.filter_replicate_of_pos (by decide)
  rw [hpositional, List.length_replicate]

/-- Its positional values have all names that they can get. -/
theorem taken_fillingTag (s : Schema) :
    s.taken s.fillingTag.withoutNocache.positional = s.shorthand := by
  rw [taken, length_positional_fillingTag, List.take_length]

/-- The tag is accepted if the word is among the names for positional values. -/
theorem exists_outcome_fillingTag {s : Schema} (h : nocacheAttribute ∈ s.shorthand) :
    ∃ attrs, (s.resolve s.fillingTag).outcome = .ok attrs := by
  have hkeys : ∀ name, name ∈ s.fillingTag.attributes.keys ↔
      name ∈ s.required ∧ name ∉ s.shorthand := by
    -- Only what no position can give is given by name.
    intro name
    simp [fillingTag, OrderedMap.keys_ofList, List.mem_eraseDups]
  have hfree : ∀ entry ∈ s.fillingTag.withoutNocache.attributes.entries,
      s.Free s.fillingTag.withoutNocache.positional entry.1 := by
    intro entry hentry
    have hname := (mem_map_fst_withoutNocache.mp (List.mem_map_of_mem hentry)).1
    rw [hkeys] at hname
    rw [Free, taken_fillingTag]
    exact ⟨.inl hname.1, hname.2⟩
  have hgiven : ∀ name ∈ s.required, s.Given s.fillingTag.withoutNocache.positional
      s.fillingTag.withoutNocache.attributes.entries name := by
    intro name hname
    rw [Given, taken_fillingTag, mem_map_fst_withoutNocache, hkeys]
    by_cases hshort : name ∈ s.shorthand
    · exact .inl hshort
    · refine .inr ⟨⟨hname, hshort⟩, ?_⟩
      -- The word cannot be given by name, but it has a position.
      rintro rfl
      exact hshort h
  have hverdict := Verdict.resolved (Nat.le_of_eq s.length_positional_fillingTag) hfree hgiven
  exact ⟨_, (verdict_iff (OrderedMap.nodup_keys_ofList _)).mp hverdict⟩

end Schema

/-- For every schema: resolved attributes have the reserved word as a name exactly if it is the name
    of one of the positional values. A tag for which that happens exists if and only if the word is
    among the names for positional values. -/
theorem nocache_forwarded_iff (s : Schema) :
    (∀ ctx : Context, ∀ tag attrs, (ctx.resolve s tag).1 = .ok attrs →
      (nocacheAttribute ∈ attrs.keys ↔
        nocacheAttribute ∈ s.taken tag.withoutNocache.positional)) ∧
      ((∃ (ctx : Context) (tag : Tag) (attrs : Attributes), tag.attributes.keys.Nodup ∧
        (ctx.resolve s tag).1 = .ok attrs ∧ nocacheAttribute ∈ attrs.keys) ↔
          nocacheAttribute ∈ s.shorthand) := by
  refine ⟨fun ctx tag attrs h => ?_, ?_, fun h => ?_⟩
  · exact Schema.nocache_mem_keys_resolve (Context.outcome_of_resolve h)
  · rintro ⟨ctx, tag, attrs, -, hattrs, hword⟩
    rw [Schema.nocache_mem_keys_resolve (Context.outcome_of_resolve hattrs)] at hword
    exact List.mem_of_mem_take hword
  · -- A tag that fills all positions gives the word a value.
    obtain ⟨attrs, hattrs⟩ := Schema.exists_outcome_fillingTag h
    refine ⟨{}, s.fillingTag, attrs, OrderedMap.nodup_keys_ofList _, ?_, ?_⟩
    · rw [Context.resolve_of_ok hattrs]
    · rwa [Schema.nocache_mem_keys_resolve hattrs, Schema.taken_fillingTag]

/-- A schema that gives the reserved word to a positional value. -/
def reservingSchema : Schema :=
  { shorthand := ["value", "nocache"] }

/-- The word is forwarded once there are two positional values that are not the word itself. -/
theorem reservingSchema_forwards :
    (({} : Context).resolve reservingSchema { name := "t", positional := ["1", "nocache"] }).1 =
        .ok ⟨[("value", "1")]⟩ ∧
      nocacheAttribute ∉ (⟨[("value", "1")]⟩ : Attributes).keys ∧
      ∃ ctx tag attrs, tag.attributes.keys.Nodup ∧
        (Context.resolve ctx reservingSchema tag).1 = .ok attrs ∧
        nocacheAttribute ∈ attrs.keys := by
  obtain ⟨hforwarded, hsome⟩ := nocache_forwarded_iff reservingSchema
  have hone : (({} : Context).resolve reservingSchema
      { name := "t", positional := ["1", "nocache"] }).1 = .ok ⟨[("value", "1")]⟩ := rfl
  exact ⟨hone, fun hword => absurd ((hforwarded _ _ _ hone).mp hword) (by decide),
    hsome.mpr (by decide)⟩

/-- A positional value can get the reserved word as its name, and then the word is forwarded. -/
theorem nocache_forwarded :
    (({} : Context).resolve { shorthand := ["nocache"] } { name := "t", positional := ["x"] }).1 =
        .ok ⟨[("nocache", "x")]⟩ ∧
      (({} : Context).resolve { shorthand := ["nocache"] }
        { name := "t", positional := ["x"] }).2.tagNocache = false :=
  ⟨rfl, rfl⟩

end TagPress
