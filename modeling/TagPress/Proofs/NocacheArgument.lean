import TagPress.Proofs.ResolvedArguments
import TagPress.Proofs.Surroundings

/-!
# The caching argument of a tag

Every tag takes the reserved word `nocache`, among its positional values or as the name of an
attribute. Two tags that differ in it alone have the same code, the same move and the same faults.
What is left is the flag of the tag itself, and the next tag starts with a flag of its own. So
changing the word at one tag of a unit changes the flag of that tag's fragment and nothing else.

## Key results

- `dispatch_of_withoutNocache`: one tag, with and without the word
- `emissions_of_withoutNocache`: two runs over units that differ in the word at one tag
- `compile_nocacheEdit`: editing the word at one tag leaves everything but its flag
-/

namespace TagPress

/-! ## Edits -/

/-- The ways to change what the arguments of a tag say about caching. -/
inductive Tag.NocacheEdit : Tag → Tag → Prop where
  /-- The bare word is inserted at some place among the positional values. -/
  | word (tag : Tag) (place : Nat) :
      NocacheEdit tag { tag with positional := tag.positional.insertIdx place "nocache" }
  /-- The attribute is set; a value that it has is replaced. -/
  | set (tag : Tag) (value : String) :
      NocacheEdit tag { tag with attributes := tag.attributes.insert "nocache" value }
  /-- The attribute is removed. -/
  | remove (tag : Tag) :
      NocacheEdit tag { tag with attributes := tag.attributes.erase "nocache" }

namespace OrderedMap

variable {α β : Type} [BEq α]

/-- What is filtered out by its key is not missed when it was set before. -/
theorem filter_insertEntry [LawfulBEq α] (key : α) (value : β) (entries : List (α × β)) :
    (insertEntry key value entries).filter (fun entry => entry.1 != key) =
      entries.filter fun entry => entry.1 != key := by
  induction entries with
  | nil => simp [insertEntry]
  | cons entry entries ih =>
    obtain ⟨k, v⟩ := entry
    -- Setting replaces the entry of the key or goes on behind another one.
    by_cases hk : key = k
    · subst hk
      simp [insertEntry]
    · have hne : (key == k) = false := beq_eq_false_iff_ne.mpr hk
      simp only [insertEntry, hne, Bool.false_eq_true, if_false, List.filter_cons, ih]

/-- A value that is erased might as well not have been set. -/
theorem erase_insert [LawfulBEq α] (m : OrderedMap α β) (key : α) (value : β) :
    (m.insert key value).erase key = m.erase key := by
  simp only [erase, insert, filter_insertEntry]

/-- Erasing twice is erasing once. -/
theorem erase_erase (m : OrderedMap α β) (key : α) : (m.erase key).erase key = m.erase key := by
  simp [erase]

end OrderedMap

/-- What is filtered out may be inserted anywhere before. -/
theorem filter_insertIdx_of_neg {α : Type} {p : α → Bool} {a : α} (ha : p a = false) (place : Nat)
    (values : List α) : (values.insertIdx place a).filter p = values.filter p := by
  induction values generalizing place with
  | nil => cases place <;> simp [ha]
  | cons value values ih =>
    cases place with
    | zero => simp [ha]
    | succ place => simp only [List.insertIdx_succ_cons, List.filter_cons, ih place]

/-- An edit is not seen once the word is taken out. -/
theorem Tag.NocacheEdit.withoutNocache {tag tag' : Tag} (h : tag.NocacheEdit tag') :
    tag'.withoutNocache = tag.withoutNocache := by
  -- Each edit touches what is taken away anyway.
  cases h with
  | word place =>
    have hword : (Text.strip "nocache" != nocacheAttribute) = false := by decide
    simp only [Tag.withoutNocache, filter_insertIdx_of_neg
      (p := fun value => Text.strip value != nocacheAttribute) hword]
  | set value =>
    have hkey : nocacheAttribute = "nocache" := rfl
    simp only [Tag.withoutNocache, hkey, OrderedMap.erase_insert]
  | remove =>
    have hkey : nocacheAttribute = "nocache" := rfl
    simp only [Tag.withoutNocache, hkey, OrderedMap.erase_erase]

/-! ## One tag -/

/-- The word has no part in the code of a tag. -/
theorem Engine.ownCode_withoutNocache (engine : Engine) (tag : Tag) :
    engine.ownCode tag.withoutNocache = engine.ownCode tag := by
  -- What is written depends on the name, the modifiers and the resolved arguments.
  have hwrite : ∀ compiler : TagCompiler,
      compiler.write engine tag.withoutNocache = compiler.write engine tag := by
    intro compiler
    cases compiler <;> rfl
  have hcompiler : engine.compilerOf tag.withoutNocache = engine.compilerOf tag := rfl
  have hname : tag.withoutNocache.name = tag.name := rfl
  simp only [Engine.ownCode, TagCompiler.ownCode, hcompiler, hname,
    Schema.outcome_resolve_withoutNocache, hwrite]

section Pair

variable {engine : Engine} {tag tag' : Tag}

/-- Tags that differ in the reserved word alone do the same, but for the flag of the tag. -/
theorem dispatch_of_withoutNocache (hp : engine.Plain)
    (h : tag'.withoutNocache = tag.withoutNocache) (ctx : Context) :
    (∀ e, (dispatch engine tag ctx).1 = .error e → (dispatch engine tag' ctx).1 = .error e) ∧
      ∀ code next, dispatch engine tag ctx = (.ok code, next) →
        ∃ flag, dispatch engine tag' ctx = (.ok code, { next with tagNocache := flag }) := by
  obtain ⟨hname, hline, -, -, hmodifiers⟩ := Tag.mk.inj h
  have hcompiler : engine.compilerOf tag' = engine.compilerOf tag := by
    rw [Engine.compilerOf, Engine.compilerOf, Engine.handlerOf, Engine.handlerOf, hname]
  -- Both tags have the code of the one tag that is left when the word is taken out of them.
  have hown : engine.ownCode tag' = engine.ownCode tag := by
    rw [← engine.ownCode_withoutNocache tag', h, engine.ownCode_withoutNocache]
  have hmove : engine.move tag' ctx = engine.move tag ctx := by
    rw [Engine.move, Engine.move, hcompiler, hline]
  constructor
  · intro e he
    obtain ⟨fault, hrefuses, rfl⟩ := refuses_of_dispatch hp he
    have hrefuses' : engine.Refuses tag' ctx fault := by
      rwa [Engine.Refuses, hown, hmove]
    rw [dispatch_fst_of_refuses hp hrefuses', faultAt, faultAt, hname, hline]
  · intro code next hd
    obtain ⟨own, m, hok, hm, rfl, rfl⟩ := (dispatch_eq_ok_iff hp).mp hd
    refine ⟨(engine.after tag' ctx m).tagNocache, ?_⟩
    rw [dispatch_of_ok hp (hown.trans hok) (hmove.trans hm)]
    simp only [Engine.after, TagCompiler.after, TagCompiler.pipes, hcompiler, hline, hmodifiers]

/-! ## Units -/

/-- The flag that a tag leaves behind is not read again: the next tag starts by clearing it. -/
theorem emissions_tagNocache (engine : Engine) (tags : List Tag) (ctx : Context) (flag : Bool) :
    ∃ flag', emissions engine tags { ctx with tagNocache := flag } =
      (emissions engine tags ctx).map fun (all, last) =>
        (all, { last with tagNocache := flag' }) := by
  -- Without a tag the flag is still there at the end, so it is given back in the result.
  cases tags with
  | nil => exact ⟨flag, rfl⟩
  | cons tag tags =>
    have hclear : emissions engine (tag :: tags) { ctx with tagNocache := flag } =
        emissions engine (tag :: tags) ctx := rfl
    rw [hclear]
    match emissions engine (tag :: tags) ctx with
    | .error e => exact ⟨false, rfl⟩
    | .ok (all, last) => exact ⟨last.tagNocache, rfl⟩

/-- Units that differ in the reserved word at one tag fail alike, or every tag emits the same but
    for the flag of that one tag. -/
theorem emissions_of_withoutNocache (hp : engine.Plain)
    (h : tag'.withoutNocache = tag.withoutNocache)
    (before after : List Tag) (ctx : Context) :
    ∃ flag flag', emissions engine (before ++ tag' :: after) ctx =
      (emissions engine (before ++ tag :: after) ctx).map fun (all, last) =>
        (all.modify before.length fun f => { f with nocache := flag },
          { last with tagNocache := flag' }) := by
  -- By induction on the tags before, which both units share. At the edited tag the two runs come
  -- apart in the flag, and `emissions_tagNocache` brings them together again.
  induction before generalizing ctx with
  | nil =>
    obtain ⟨-, hline, -⟩ := Tag.mk.inj h
    obtain ⟨herror, hok⟩ := dispatch_of_withoutNocache hp h
      { ctx with tagNocache := false }
    match hd : dispatch engine tag { ctx with tagNocache := false } with
    | (.error e, next) =>
      refine ⟨false, false, ?_⟩
      have hfail : (dispatch engine tag { ctx with tagNocache := false }).1 = .error e := by rw [hd]
      rw [List.nil_append, List.nil_append, emissions_cons_of_error hfail,
        emissions_cons_of_error (herror e hfail)]
      rfl
    | (.ok code, next) =>
      obtain ⟨flag, hd'⟩ := hok code next hd
      obtain ⟨flag', hrest⟩ := emissions_tagNocache engine after (next.noteCode code) flag
      refine ⟨flag || next.nocache, flag', ?_⟩
      have hnote : { next with tagNocache := flag }.noteCode code =
          { next.noteCode code with tagNocache := flag } := rfl
      simp only [List.nil_append, emissions, hd, hd', hnote, hrest, hline]
      cases emissions engine after (next.noteCode code) <;> rfl
  | cons first before ih =>
    match hd : dispatch engine first { ctx with tagNocache := false } with
    | (.error e, next) =>
      refine ⟨false, false, ?_⟩
      have hfail : (dispatch engine first { ctx with tagNocache := false }).1 = .error e := by
        rw [hd]
      rw [List.cons_append, List.cons_append, emissions_cons_of_error hfail,
        emissions_cons_of_error hfail]
      rfl
    | (.ok code, next) =>
      obtain ⟨flag, flag', hrest⟩ := ih (next.noteCode code)
      refine ⟨flag, flag', ?_⟩
      simp only [List.cons_append, emissions, hd, hrest]
      cases emissions engine (before ++ tag :: after) (next.noteCode code) <;> rfl

end Pair

/-- A template is compiled from what its tags emit. -/
theorem compile_eq_emissions (engine : Engine) (template : Option String) (tags : List Tag) :
    compile engine template tags =
      (emissions engine tags { template }).bind fun (all, last) =>
        last.finish.map fun _ =>
          ⟨all.filter fun f => !f.code.isEmpty,
            (all.filter fun f => !f.code.isEmpty).any (·.nocache), last.hasCode⟩ := by
  rw [compile_eq, compileTags_eq_emissions]
  cases emissions engine tags { template } with
  | error e => rfl
  | ok run =>
    obtain ⟨all, last⟩ := run
    rfl

/-- Editing what the arguments of one tag say about caching leaves the rest of the unit alone. The
    unit fails with the same error or is compiled as before: every tag emits the same code on the
    same line, with the same flag if it is another tag. So the fragments are the same up to the flag
    of the tag's own fragment, if it has one. The engine is one without compilers of one's own,
    which could read the word as they like, and its gate does not look at the context. -/
theorem compile_nocacheEdit {engine : Engine} (hp : engine.Plain) (template : Option String)
    (before after : List Tag) {tag tag' : Tag} (hedit : tag.NocacheEdit tag') :
    (∀ e, compile engine template (before ++ tag :: after) = .error e ↔
      compile engine template (before ++ tag' :: after) = .error e) ∧
    ∀ c, compile engine template (before ++ tag :: after) = .ok c →
      ∃ c' all last flag, compile engine template (before ++ tag' :: after) = .ok c' ∧
        emissions engine (before ++ tag :: after) { template } = .ok (all, last) ∧
        all.map (·.line) = (before ++ tag :: after).map (·.line) ∧
        c.fragments = all.filter (fun f => !f.code.isEmpty) ∧
        c'.fragments = (all.modify before.length fun f => { f with nocache := flag }).filter
          (fun f => !f.code.isEmpty) ∧
        c'.hasCode = c.hasCode := by
  obtain ⟨flag, flag', hrun⟩ := emissions_of_withoutNocache hp hedit.withoutNocache before after
    { template }
  rw [compile_eq_emissions, compile_eq_emissions, hrun]
  match hall : emissions engine (before ++ tag :: after) { template } with
  | .error e => simp [Except.bind, Except.map]
  | .ok (all, last) =>
    -- The end of a template does not look at the flag either.
    have hfinish : { last with tagNocache := flag' }.finish = last.finish := rfl
    simp only [Except.bind, Except.map, hfinish]
    cases last.finish with
    | error e => simp
    | ok _ =>
      refine ⟨by simp, fun c hc => ?_⟩
      cases hc
      exact ⟨_, all, last, flag, rfl, rfl, map_line_emissions hall, rfl, rfl, rfl⟩

/-- A conditional, and a print after it. -/
def closedIf (closing : Tag) : List Tag :=
  [{ name := "if", positional := ["$a"] }] ++ closing :: [{ name := "print", positional := ["$x"] }]

/-- A closing tag that asks for no caching marks its own brace, and not the print after it. -/
theorem closedIf_nocacheEdit :
    Tag.NocacheEdit { name := "/if" }
        { name := "/if", attributes := OrderedMap.empty.insert "nocache" "true" } ∧
      ∃ c c' all last flag, compile clockEngine none (closedIf { name := "/if" }) = .ok c ∧
        compile clockEngine none (closedIf
          { name := "/if", attributes := OrderedMap.empty.insert "nocache" "true" }) = .ok c' ∧
        emissions clockEngine (closedIf { name := "/if" }) {} = .ok (all, last) ∧
        c.fragments = all.filter (fun f => !f.code.isEmpty) ∧
        c'.fragments = (all.modify 1 fun f => { f with nocache := flag }).filter
          (fun f => !f.code.isEmpty) ∧
        c.fragments.map (·.nocache) = [false, false, false] ∧
        c'.fragments.map (·.nocache) = [false, true, false] := by
  have hedit : Tag.NocacheEdit { name := "/if" }
      { name := "/if", attributes := OrderedMap.empty.insert "nocache" "true" } := .set _ "true"
  obtain ⟨c, hc, hflags⟩ : ∃ c, compile clockEngine none (closedIf { name := "/if" }) = .ok c ∧
      c.fragments.map (·.nocache) = [false, false, false] := ⟨_, rfl, by decide⟩
  have hplain := (Settings.toEngine_configured clockSettings_toEngine).plain
  obtain ⟨-, hok⟩ := compile_nocacheEdit hplain none
    [{ name := "if", positional := ["$a"] }] [{ name := "print", positional := ["$x"] }] hedit
  obtain ⟨c', all, last, flag, hc', hall, -, hfragments, hfragments', -⟩ := hok c hc
  -- The fragment of the closing tag is the second one, and the edit shows there.
  have hflags' : (compile clockEngine none (closedIf
      { name := "/if", attributes := OrderedMap.empty.insert "nocache" "true" })).map
        (fun c => c.fragments.map (·.nocache)) = .ok [false, true, false] := by decide
  rw [closedIf, hc'] at hflags'
  exact ⟨hedit, c, c', all, last, flag, hc, hc', hall, hfragments, hfragments', hflags,
    Except.ok.inj hflags'⟩

end TagPress
