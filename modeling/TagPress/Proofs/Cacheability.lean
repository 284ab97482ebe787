import Mathlib.Data.List.Forall2
import TagPress.Proofs.BlockRun

/-!
# Cacheability of fragments

Whether a fragment has to run at render time can be read off the tags: its tag stands in a block
without caching, asks for it, or calls a function that must not be cached. The compile context finds
this out with two flags and with a flag in every frame. The invariant behind it is that each frame
remembers whether a block without caching is open below it.

## Key results

- `Schema.asksNocache_resolve_iff`: when accepted arguments ask for no caching
- `Remembers.move`: every tag keeps the invariant on the flags
- `dispatch_code_isEmpty_iff`: the tags without a fragment are `nocache` and `/nocache`
- `fragments_nocache_iff`: the flag of each fragment
-/

namespace TagPress

/-! ## What the arguments of a tag ask for -/

/-- The tag carries the word `nocache`, as a positional value or as the name of an attribute with a
    truthy value. -/
def Tag.AsksNocache (tag : Tag) : Prop :=
  (∃ value ∈ tag.positional, Text.strip value = "nocache") ∨
    ∃ value, ("nocache", value) ∈ tag.attributes.entries ∧ isTruthy value = true

namespace Schema

/-- Among positional values, the word `nocache` asks. It takes no name, so it may stand anywhere. -/
theorem asksNocache_bindPositional {names values : List String} {attrs attrs' : Attributes}
    {asks : Bool} (h : (bindPositional names values attrs asks).outcome = .ok attrs') :
    (bindPositional names values attrs asks).asksNocache = true ↔
      asks = true ∨ ∃ value ∈ values, Text.strip value = "nocache" := by
  -- The names are used up on the way, but never by the word itself.
  induction values generalizing names attrs asks with
  | nil => simp [bindPositional]
  | cons value values ih =>
    simp only [bindPositional] at h ⊢
    by_cases hvalue : (Text.strip value == nocacheAttribute) = true
    · rw [if_pos hvalue] at h ⊢
      rw [ih h]
      have hstrip : Text.strip value = "nocache" := eq_of_beq hvalue
      simp [hstrip]
    · have hstrip : ¬ Text.strip value = "nocache" := fun heq => hvalue (beq_iff_eq.mpr heq)
      rw [if_neg hvalue] at h ⊢
      cases names with
      -- A value without a name is refused.
      | nil => cases h
      | cons name names =>
        rw [ih h]
        simp [hstrip]

/-- Among attributes, one of the name `nocache` asks if its value is truthy. -/
theorem asksNocache_bindNamed {s : Schema} {entries : List (String × String)}
    {attrs attrs' : Attributes} {asks : Bool}
    (h : (s.bindNamed entries attrs asks).outcome = .ok attrs') :
    (s.bindNamed entries attrs asks).asksNocache = true ↔
      asks = true ∨ ∃ value, ("nocache", value) ∈ entries ∧ isTruthy value = true := by
  -- Attributes that were accepted so far are carried along; the flag only grows.
  induction entries generalizing attrs asks with
  | nil => simp [bindNamed]
  | cons entry entries ih =>
    obtain ⟨name, value⟩ := entry
    rw [bindNamed] at h ⊢
    by_cases hname : (name == nocacheAttribute) = true
    · rw [if_pos hname] at h ⊢
      rw [ih h]
      have heq : name = "nocache" := eq_of_beq hname
      subst heq
      constructor
      · rintro (hasks | ⟨v, hv, htruthy⟩)
        · rw [Bool.or_eq_true] at hasks
          exact hasks.imp_right fun htruthy => ⟨value, List.mem_cons_self, htruthy⟩
        · exact .inr ⟨v, List.mem_cons_of_mem _ hv, htruthy⟩
      · rintro (rfl | ⟨v, hv, htruthy⟩)
        · exact .inl (Bool.true_or _)
        · obtain heq | hv := List.mem_cons.mp hv
          · cases heq
            exact .inl (by rw [htruthy, Bool.or_true])
          · exact .inr ⟨v, hv, htruthy⟩
    · -- Any other name was bound, since the outcome is no fault.
      have hne : ¬ "nocache" = name := fun heq => hname (by rw [← heq]; rfl)
      rw [if_neg hname] at h ⊢
      by_cases haccepts : (!s.accepts name) = true
      · rw [if_pos haccepts] at h
        cases h
      rw [if_neg haccepts] at h ⊢
      by_cases hdup : attrs.contains name = true
      · rw [if_pos hdup] at h
        cases h
      rw [if_neg hdup] at h ⊢
      rw [ih h]
      simp [hne]

/-- Accepted arguments ask for no caching by the word `nocache`. -/
theorem asksNocache_resolve_iff {s : Schema} {tag : Tag} {attrs : Attributes}
    (h : (s.resolve tag).outcome = .ok attrs) :
    (s.resolve tag).asksNocache = true ↔ tag.AsksNocache := by
  simp only [resolve] at h ⊢
  -- Positional values are bound first, and their flag is where the attributes start from.
  cases hpos : bindPositional s.shorthand tag.positional .empty false with
  | mk asks outcome =>
    cases outcome with
    | error fault => simp only [hpos, reduceCtorEq] at h
    | ok attrs₁ =>
      have hasks := asksNocache_bindPositional (by rw [hpos] : (bindPositional s.shorthand
        tag.positional .empty false).outcome = .ok attrs₁)
      simp only [hpos] at h hasks ⊢
      cases hnamed : s.bindNamed tag.attributes.entries attrs₁ asks with
      | mk asks₂ outcome =>
        cases outcome with
        | error fault => simp only [hnamed, reduceCtorEq] at h
        | ok attrs₂ =>
          have hasks₂ := asksNocache_bindNamed (by rw [hnamed] :
            (s.bindNamed tag.attributes.entries attrs₁ asks).outcome = .ok attrs₂)
          simp only [hnamed] at hasks₂ ⊢
          rw [hasks₂, hasks, Tag.AsksNocache]
          simp

end Schema

/-! ## What frames remember -/

/-- Every frame remembers whether caching is off below it, and `nocache` says whether caching is off
    above all frames. -/
def Remembers : List Frame → Bool → Prop
  | [], nocache => nocache = false
  | frame :: frames, nocache =>
    nocache = (frame.family == "nocache" || frame.nocache) ∧ Remembers frames frame.nocache

/-- The number of open blocks without caching. -/
def nocacheFrames (frames : List Frame) : Nat :=
  frames.countP (·.family == "nocache")

/-- An open block counts if it is one without caching. -/
theorem nocacheFrames_cons (frame : Frame) (frames : List Frame) :
    nocacheFrames (frame :: frames) =
      nocacheFrames frames + if frame.family == "nocache" then 1 else 0 :=
  List.countP_cons

/-- Caching is off exactly if a block without caching is open. -/
theorem Remembers.nocache_iff {frames : List Frame} {nocache : Bool}
    (h : Remembers frames nocache) : nocache = true ↔ 0 < nocacheFrames frames := by
  -- From the innermost frame outwards, each frame gives the flag for the ones below it.
  induction frames generalizing nocache with
  | nil =>
    have hnocache : nocache = false := h
    simp [hnocache, nocacheFrames]
  | cons frame frames ih =>
    obtain ⟨hnocache, hframes⟩ := h
    rw [hnocache, Bool.or_eq_true, ih hframes, nocacheFrames_cons]
    split <;> simp_all

/-- A frame of one of the expected families is no block without caching if these are not among
    them. -/
private theorem beq_nocache_of_contains {families : List String} {family : String}
    (hfree : families.contains "nocache" = false) (h : families.contains family = true) :
    (family == "nocache") = false := by
  rw [beq_eq_false_iff_ne]
  intro heq
  rw [heq, hfree] at h
  cases h

/-- Below a frame of another family the flag is the same. -/
theorem Remembers.of_cons {frame : Frame} {frames : List Frame} {nocache : Bool}
    (h : Remembers (frame :: frames) nocache) (hne : (frame.family == "nocache") = false) :
    frame.nocache = nocache ∧ Remembers frames nocache := by
  obtain ⟨hnocache, hframes⟩ := h
  rw [hne, Bool.false_or] at hnocache
  exact ⟨hnocache.symm, hnocache ▸ hframes⟩

/-- The frames of the innermost conditionals all remember the present flag, and below them it is
    still right. -/
theorem Remembers.dropWhile {frames : List Frame} {nocache : Bool} {families : List String}
    (h : Remembers frames nocache) (hfree : families.contains "nocache" = false) :
    Remembers (frames.dropWhile fun frame => families.contains frame.family) nocache ∧
      nocacheFrames (frames.dropWhile fun frame => families.contains frame.family) =
        nocacheFrames frames ∧
      ∀ frame ∈ frames.takeWhile fun frame => families.contains frame.family,
        frame.nocache = nocache := by
  -- Frames of the families are dropped one by one, and none of them is a `nocache` block.
  induction frames with
  | nil => exact ⟨h, rfl, by simp⟩
  | cons frame frames ih =>
    rw [List.dropWhile_cons, List.takeWhile_cons]
    by_cases hfamily : families.contains frame.family = true
    · have hne := beq_nocache_of_contains hfree hfamily
      obtain ⟨hnocache, hframes⟩ := h.of_cons hne
      obtain ⟨hdrop, hcount, htake⟩ := ih hframes
      rw [if_pos hfamily, if_pos hfamily, nocacheFrames_cons, hne]
      exact ⟨hdrop, hcount, List.forall_mem_cons.mpr ⟨hnocache, htake⟩⟩
    · rw [if_neg hfamily, if_neg hfamily]
      exact ⟨h, rfl, by simp⟩

/-- What a move does to the flags: it keeps what frames remember and the present flag, except that
    blocks without caching are opened and closed. -/
theorem Remembers.move {compiler : TagCompiler} {line : Option Nat} {nocache : Bool}
    {s : ScopeStack} {m : Move} (h : Remembers s.frames nocache)
    (hmove : compiler.move line nocache s = .ok m) :
    Remembers m.scopes.frames m.nocache ∧
      nocacheFrames m.scopes.frames + (if compiler = .nocacheClose then 1 else 0) =
        nocacheFrames s.frames + (if compiler = .nocacheOpen then 1 else 0) ∧
      (compiler ≠ .nocacheOpen → compiler ≠ .nocacheClose → m.nocache = nocache) := by
  -- Only `nocache` and `/nocache` move the flag; every other tag keeps it.
  cases compiler with
  | ifOpen =>
    cases hmove
    exact ⟨⟨rfl, h⟩, rfl, fun _ _ => rfl⟩
  | nocacheOpen =>
    cases hmove
    refine ⟨⟨rfl, h⟩, ?_, fun hne => absurd rfl hne⟩
    simp [ScopeStack.push, nocacheFrames_cons]
  | print =>
    cases hmove
    exact ⟨h, rfl, fun _ _ => rfl⟩
  | functionCall =>
    cases hmove
    exact ⟨h, rfl, fun _ _ => rfl⟩
  | elseIf =>
    obtain ⟨_, -, rfl⟩ := map_eq_ok.mp hmove
    exact ⟨⟨rfl, h⟩, rfl, fun _ _ => rfl⟩
  | elseBranch =>
    -- The new frame remembers the old frame's flag or the present one, which are the same.
    obtain ⟨scopes, hscopes, rfl⟩ := map_eq_ok.mp hmove
    obtain ⟨old, rest, hpop, rfl⟩ := ScopeStack.replaceTop_eq_ok_iff.mp hscopes
    obtain ⟨hframes, hfamily⟩ := ScopeStack.pop_eq_ok_iff.mp hpop
    rw [hframes] at h ⊢
    have hne := beq_nocache_of_contains (by decide) hfamily
    obtain ⟨hnocache, hrest⟩ := h.of_cons hne
    refine ⟨⟨?_, ?_⟩, ?_, fun _ _ => rfl⟩
    · simp [hnocache]
    · simpa [hnocache] using hrest
    · simp [ScopeStack.push, nocacheFrames_cons, hne]
  | ifClose =>
    obtain ⟨closed, hclosed, rfl⟩ := map_eq_ok.mp hmove
    obtain ⟨-, rfl⟩ := ScopeStack.close_eq_ok_iff.mp hclosed
    -- Every frame of the run remembers the present flag, so taking them together adds nothing.
    have hfree : conditionalFamilies.contains "nocache" = false := by decide
    obtain ⟨hdrop, hcount, htake⟩ := h.dropWhile hfree
    have hflag : (nocache || (s.frames.takeWhile fun frame =>
        conditionalFamilies.contains frame.family).any (·.nocache)) = nocache := by
      cases nocache with
      | true => rfl
      | false =>
        rw [Bool.false_or, List.any_eq_false]
        exact fun frame hframe => by rw [htake frame hframe]; decide
    rw [hflag]
    exact ⟨hdrop, hcount, fun _ _ => rfl⟩
  -- The flag goes back to what the frame of the block has remembered.
  | nocacheClose =>
    obtain ⟨⟨frame, scopes⟩, hpop, rfl⟩ := map_eq_ok.mp hmove
    obtain ⟨hframes, hfamily⟩ := ScopeStack.pop_eq_ok_iff.mp hpop
    have hnocache : (frame.family == "nocache") = true := by simpa using hfamily
    rw [hframes] at h ⊢
    refine ⟨h.2, ?_, fun _ hne => absurd rfl hne⟩
    rw [nocacheFrames_cons, hnocache]
    rfl

/-! ## Tags without a fragment -/

namespace TagCompiler

/-- The closing tag of a conditional closes at least one brace. -/
theorem closed_pos_of_move {line : Option Nat} {nocache : Bool} {s : ScopeStack} {m : Move}
    (h : ifClose.move line nocache s = .ok m) : 0 < m.closed := by
  obtain ⟨closed, hclosed, rfl⟩ := map_eq_ok.mp h
  obtain ⟨htop, rfl⟩ := ScopeStack.close_eq_ok_iff.mp hclosed
  -- The innermost frame was checked before the run was taken, so it is part of the run.
  obtain ⟨frame, rest, hframes, hfamily⟩ := ScopeStack.checkTop_eq_ok_iff.mp htop
  rw [hframes, List.takeWhile_cons, if_pos hfamily]
  exact Nat.succ_pos _

/-- A tag writes no code exactly if it opens or closes a block without caching. -/
theorem code_isEmpty_iff {compiler : TagCompiler} {engine : Engine}
    (hc : engine.Configured) {tag : Tag} {own : String} {line : Option Nat}
    {nocache : Bool} {s : ScopeStack} {m : Move} (hown : compiler.ownCode engine tag = .ok own)
    (hmove : compiler.move line nocache s = .ok m) :
    (own ++ closingBraces m.closed).isEmpty = true ↔
      compiler = .nocacheOpen ∨ compiler = .nocacheClose := by
  obtain ⟨-, attrs, -, hwrite⟩ := ownCode_eq_ok_iff.mp hown
  rw [String.isEmpty_iff, String.append_eq_empty_iff]
  -- The closing tag of a conditional has no code of its own and relies on its braces.
  cases compiler with
  | nocacheOpen =>
    cases hwrite
    cases hmove
    exact ⟨fun _ => .inl rfl, fun _ => ⟨rfl, rfl⟩⟩
  | nocacheClose =>
    cases hwrite
    obtain ⟨_, -, rfl⟩ := map_eq_ok.mp hmove
    exact ⟨fun _ => .inr rfl, fun _ => ⟨rfl, rfl⟩⟩
  | ifClose =>
    have hpos := closed_pos_of_move hmove
    simp [closingBraces, Nat.ne_of_gt hpos]
  | functionCall =>
    have hcall : handlerCall tag.name attrs ≠ "" := by
      unfold handlerCall
      simp
    have hne := Engine.applyModifiers_ne_empty hc hcall hwrite
    simp [hne]
  | print =>
    obtain ⟨code, -, rfl⟩ := map_eq_ok.mp hwrite
    simp
  | ifOpen =>
    cases hwrite
    simp
  | elseIf =>
    cases hwrite
    simp
  | elseBranch =>
    cases hwrite
    simp

end TagCompiler

/-! ## Fragments of a run -/

/-- How often a name occurs among tags. -/
def countTags (name : String) (tags : List Tag) : Nat :=
  (tags.map (·.name)).count name

/-- One more tag counts if it has the name. -/
theorem countTags_append_singleton (name : String) (tags : List Tag) (tag : Tag) :
    countTags name (tags ++ [tag]) = countTags name tags + if tag.name = name then 1 else 0 := by
  simp only [countTags, List.map_append, List.map_cons, List.map_nil, List.count_append,
    List.count_singleton, beq_iff_eq]

/-- The context after some tags: its frames remember where caching is off, and the open blocks
    without caching are those that the tags have opened and not closed. -/
structure Context.Follows (ctx : Context) (before : List Tag) : Prop where
  remembers : Remembers ctx.scopes.frames ctx.nocache
  nocacheFrames_eq : nocacheFrames ctx.scopes.frames + countTags "/nocache" before =
    countTags "nocache" before

/-- After some tags, caching is off exactly if more blocks without caching were opened than
    closed. -/
theorem Context.Follows.nocache_iff {ctx : Context} {before : List Tag} (h : ctx.Follows before) :
    ctx.nocache = true ↔ countTags "/nocache" before < countTags "nocache" before := by
  have hcount := h.nocacheFrames_eq
  rw [h.remembers.nocache_iff]
  omega

/-- Whether a tag leaves a fragment when it is compiled. -/
def Tag.leavesFragment (tag : Tag) : Bool :=
  tag.name != "nocache" && tag.name != "/nocache"

/-- A tag calls a function whose output must not be cached. -/
def Engine.CallsUncacheable (engine : Engine) (tag : Tag) : Prop :=
  engine.compilerOf tag = .functionCall ∧
    ∃ handler, engine.registry.functions.get? tag.name = some handler ∧ handler.cacheable = false

/-- The fragment of a tag that follows the tags `before`: it holds the tag's code, with braces that
    the tag closes, and stands on the tag's line. It is not cached exactly if a block without
    caching is open, if the tag asks for it or if the tag calls a function that is not cacheable. -/
structure Engine.Describes (engine : Engine) (before : List Tag) (tag : Tag) (f : Fragment) :
    Prop where
  code : ∃ own closed, engine.ownCode tag = .ok own ∧ f.code = own ++ closingBraces closed
  line : f.line = tag.line
  nocache : f.nocache = true ↔
    countTags "/nocache" before < countTags "nocache" before ∨ tag.AsksNocache ∨
      engine.CallsUncacheable tag

/-- The flag of an accepted tag, read off the tag and the registry. -/
theorem marks_iff {engine : Engine} {tag : Tag} {own : String}
    (hown : engine.ownCode tag = .ok own) :
    (engine.compilerOf tag).marks engine tag = true ↔
      tag.AsksNocache ∨ engine.CallsUncacheable tag := by
  obtain ⟨-, attrs, hattrs, -⟩ := TagCompiler.ownCode_eq_ok_iff.mp hown
  rw [TagCompiler.marks, Bool.or_eq_true, Schema.asksNocache_resolve_iff hattrs]
  simp [Engine.CallsUncacheable, Option.any_eq_true]

section Step

variable {engine : Engine} {tag : Tag} {before : List Tag} {ctx ctx' : Context} {code : String}

/-- Compiling a tag keeps the invariant. -/
theorem Context.Follows.dispatch (hc : engine.Configured) (h : ctx.Follows before)
    (hd : dispatch engine tag { ctx with tagNocache := false } = (.ok code, ctx')) :
    (ctx'.noteCode code).Follows (before ++ [tag]) := by
  obtain ⟨own, m, -, hmove, -, rfl⟩ := (dispatch_eq_ok_iff hc.plain).mp hd
  rw [Engine.move, engine.compilerOf_eq hc tag] at hmove
  obtain ⟨hremembers, hcount, -⟩ := h.remembers.move hmove
  refine ⟨hremembers, ?_⟩
  have hbefore := h.nocacheFrames_eq
  -- The move counts by the way the tag is compiled, the tags are counted by name.
  simp only [TagCompiler.ofName_eq_iff (show TagCompiler.nocacheClose ≠ .functionCall by decide),
    TagCompiler.ofName_eq_iff (show TagCompiler.nocacheOpen ≠ .functionCall by decide),
    TagCompiler.word] at hcount
  rw [countTags_append_singleton, countTags_append_singleton]
  show nocacheFrames m.scopes.frames + _ = _
  omega

/-- The tags without a fragment are the two tags of blocks without caching. -/
theorem dispatch_code_isEmpty_iff (hc : engine.Configured)
    (hd : dispatch engine tag ctx = (.ok code, ctx')) :
    code.isEmpty = true ↔ tag.leavesFragment = false := by
  obtain ⟨own, m, hown, hmove, rfl, -⟩ := (dispatch_eq_ok_iff hc.plain).mp hd
  rw [Engine.ownCode, engine.compilerOf_eq hc tag] at hown
  rw [Engine.move, engine.compilerOf_eq hc tag] at hmove
  rw [TagCompiler.code_isEmpty_iff hc hown hmove, TagCompiler.ofName_eq_iff (by decide),
    TagCompiler.ofName_eq_iff (by decide)]
  simp only [Tag.leavesFragment, TagCompiler.word, Bool.and_eq_false_iff, bne_eq_false_iff_eq]

/-- A tag leaves the fragment that it should. -/
theorem emitted_describes (hc : engine.Configured) (h : ctx.Follows before)
    (hd : dispatch engine tag { ctx with tagNocache := false } = (.ok code, ctx'))
    (hleaves : tag.leavesFragment = true) :
    ∃ f, emitted tag code ctx' = [f] ∧ engine.Describes before tag f := by
  have hcode : code.isEmpty = false := by
    rw [← Bool.not_eq_true, dispatch_code_isEmpty_iff hc hd, hleaves]
    exact Bool.noConfusion
  obtain ⟨own, m, hown, hmove, hwritten, rfl⟩ := (dispatch_eq_ok_iff hc.plain).mp hd
  refine ⟨⟨code, _, tag.line⟩, by rw [emitted, hcode]; rfl, ⟨own, m.closed, hown, hwritten⟩, rfl,
    ?_⟩
  rw [Engine.move] at hmove
  obtain ⟨-, -, hkeeps⟩ := h.remembers.move hmove
  -- A tag that leaves a fragment is no tag of a block without caching, so it keeps the flag.
  have hflag : m.nocache = ctx.nocache := by
    rw [engine.compilerOf_eq hc tag, ne_eq, ne_eq, TagCompiler.ofName_eq_iff (by decide),
      TagCompiler.ofName_eq_iff (by decide)] at hkeeps
    simp only [Tag.leavesFragment, Bool.and_eq_true, bne_iff_ne] at hleaves
    exact hkeeps hleaves.1 hleaves.2
  -- What is left are the two flags: the one of the tag, and the one that was there before it.
  rw [← h.nocache_iff, ← marks_iff hown]
  simp only [Engine.after, TagCompiler.after, hflag]
  cases ctx.nocache <;> simp

end Step

/-- The tags that leave a fragment, each with its position. -/
def fragmentTags (tags : List Tag) (start : Nat) : List (Tag × Nat) :=
  (tags.zipIdx start).filter fun p => p.1.leavesFragment

/-- The fragments of the remaining tags of a unit. -/
theorem compileTags_describes {engine : Engine} (hc : engine.Configured)
    {before tags : List Tag} {ctx last : Context} {fragments : List Fragment}
    (h : ctx.Follows before) (hrun : compileTags engine tags ctx = .ok (fragments, last)) :
    List.Forall₂ (fun p f => engine.Describes ((before ++ tags).take p.2) p.1 f)
      (fragmentTags tags before.length) fragments := by
  -- The invariant is that the context follows the tags before; each tag moves from the remaining
  -- ones to these.
  induction tags generalizing before ctx fragments with
  | nil =>
    cases hrun
    exact .nil
  | cons tag tags ih =>
    obtain ⟨code, ctx', rest, hd, hrest, rfl⟩ := compileTags_cons_eq_ok_iff.mp hrun
    have hrest := ih (h.dispatch hc hd) hrest
    rw [List.append_assoc, List.singleton_append, List.length_append,
      List.length_singleton] at hrest
    rw [fragmentTags, List.zipIdx_cons, List.filter_cons]
    cases hleaves : tag.leavesFragment with
    | true =>
      obtain ⟨f, hf, hdescribes⟩ := emitted_describes hc h hd hleaves
      rw [hf, if_pos rfl]
      refine .cons ?_ hrest
      simpa using hdescribes
    | false =>
      have hcode := (dispatch_code_isEmpty_iff hc hd).mpr hleaves
      rw [emitted, if_pos hcode, if_neg Bool.false_ne_true]
      exact hrest

/-- The fragments of a unit that an engine made from settings compiles are those of the tags other
    than `nocache` and `/nocache`, in order and on their lines. A fragment is not cached exactly if
    more `nocache` than `/nocache` tags come before its tag, if the tag asks for it, or if it calls
    a function that is not cacheable. The unit has code that is not cached exactly if it has such a
    fragment. -/
theorem fragments_nocache_iff {settings : Settings} {workingDir : Option String} {engine : Engine}
    (hengine : settings.toEngine workingDir = .ok engine) {template : Option String}
    {tags : List Tag} {c : Compiled} (hcompile : compile engine template tags = .ok c) :
    List.Forall₂ (fun p f => engine.Describes (tags.take p.2) p.1 f) (fragmentTags tags 0)
        c.fragments ∧
      (c.hasNocacheCode = true ↔ ∃ f ∈ c.fragments, f.nocache = true) := by
  have hc := Settings.toEngine_configured hengine
  have hstart : ({ template } : Context).Follows [] := ⟨rfl, rfl⟩
  obtain ⟨fragments, last, hrun, -, rfl⟩ := compile_eq_ok_iff.mp hcompile
  exact ⟨compileTags_describes hc hstart hrun, List.any_eq_true⟩

/-- A block without caching around a conditional, a call of the clock, and prints that ask for no
    caching by a word, by a value that is true, and not at all. -/
def clockUnit : List Tag :=
  [{ name := "nocache", line := some 1 }, { name := "if", line := some 2, positional := ["$a"] },
    { name := "/if", line := some 3 }, { name := "/nocache", line := some 4 },
    { name := "clock", line := some 5 },
    { name := "print", line := some 6, positional := ["$b", " nocache "] },
    { name := "print", line := some 7, positional := ["$b"],
      attributes := ⟨[("nocache", "yes")]⟩ },
    { name := "print", line := some 8, positional := ["$b"],
      attributes := ⟨[("nocache", "false")]⟩ }]

/-- Only the last print is cached. -/
theorem clockUnit_fragments :
    clockSettings.toEngine none = .ok clockEngine ∧
      ∃ c, compile clockEngine none clockUnit = .ok c ∧
        c.fragments.map (fun f => (f.line, f.nocache)) =
          [(some 2, true), (some 3, true), (some 5, true), (some 6, true), (some 7, true),
            (some 8, false)] ∧
        List.Forall₂ (fun p f => clockEngine.Describes (clockUnit.take p.2) p.1 f)
          (fragmentTags clockUnit 0) c.fragments ∧
        (c.hasNocacheCode = true ↔ ∃ f ∈ c.fragments, f.nocache = true) := by
  refine ⟨clockSettings_toEngine, _, rfl, by decide, ?_⟩
  exact fragments_nocache_iff clockSettings_toEngine rfl

end TagPress
