import Mathlib.Data.List.Induction
import TagPress.Proofs.BlockRun

/-!
# Failing tags

Every way to compile a tag makes all of its checks before it touches the open blocks, so a tag that
fails leaves them as they were and a context can be used again after an error. The gate may look at
the context for this. Inline modifiers are functions of their arguments here. One that reads the
context is such a function too as long as the context does not change, and no step of a chain
changes it, so nothing is lost by that.

A unit fails at its first tag that fails, or at its end if a block is open there. The second part of
the module says where the error is placed. For a block that is left open this is the line of the tag
that opened it, which the frame has kept through everything that happened on top of it.

## Key results

- `TagCompiler.compile_keepsScope`: what the built-in ways to compile a tag do before they fail
- `dispatch_error_keeps_scope`: a failing tag changes nothing that later tags see
- `openSince_of_compileTags`: every open block was opened by a tag and has stayed open since
- `compile_error_place`: where the error of a unit is placed
-/

namespace TagPress

/-! ## Contexts after an error -/

/-- Two contexts with the same template, the same flag and the same open blocks. -/
structure Context.SameScope (ctx ctx' : Context) : Prop where
  template : ctx'.template = ctx.template
  nocache : ctx'.nocache = ctx.nocache
  scopes : ctx'.scopes = ctx.scopes

/-- Keeping the scope twice is keeping it. -/
theorem Context.SameScope.trans {ctx mid ctx' : Context} (h : ctx.SameScope mid)
    (h' : mid.SameScope ctx') : ctx.SameScope ctx' :=
  ⟨h'.template.trans h.template, h'.nocache.trans h.nocache, h'.scopes.trans h.scopes⟩

/-- If the step fails, it leaves the scope of the context as it was. -/
def Step.KeepsScope {α : Type} (ctx : Context) (step : Step α) : Prop :=
  ∀ e ctx', step = (.error e, ctx') → ctx.SameScope ctx'

namespace Step

variable {α β : Type} {ctx : Context}

/-- A step that succeeds has nothing to keep. -/
theorem keepsScope_ok (a : α) (ctx' : Context) : KeepsScope ctx (.ok a, ctx') :=
  fun _ _ h => nomatch h

/-- A failing step keeps the scope if its context has it still. -/
theorem keepsScope_error {ctx' : Context} (h : ctx.SameScope ctx') (e : CompileError) :
    KeepsScope (α := α) ctx (.error e, ctx') := by
  rintro _ _ ⟨⟩
  exact h

/-- A step may also start after a change outside the scope. -/
theorem KeepsScope.of_sameScope {mid : Context} {step : Step α} (hstep : KeepsScope mid step)
    (h : ctx.SameScope mid) : KeepsScope ctx step :=
  fun e ctx' heq => h.trans (hstep e ctx' heq)

/-- Of two steps, the first may fail, or the second after the first has changed something. -/
theorem KeepsScope.andThen {step : Step α} {next : α → Context → Step β}
    (hstep : KeepsScope ctx step)
    (hnext : ∀ a mid, step = (.ok a, mid) → KeepsScope ctx (next a mid)) :
    KeepsScope ctx (step.andThen next) := by
  match step, hstep, hnext with
  | (.error e, mid), hstep, _ => exact keepsScope_error (hstep e mid rfl) e
  | (.ok a, mid), _, hnext => exact hnext a mid rfl

end Step

namespace Context

/-- Resolving arguments touches the flag of the tag only. -/
theorem resolve_sameScope (ctx : Context) (schema : Schema) (tag : Tag) :
    ctx.SameScope (ctx.resolve schema tag).2 :=
  ⟨rfl, rfl, rfl⟩

/-- What is done after the arguments are resolved. -/
theorem keepsScope_resolve_andThen (ctx : Context) (schema : Schema) (tag : Tag)
    {next : Attributes → Context → Step String}
    (hnext : ∀ attrs mid, Step.KeepsScope mid (next attrs mid)) :
    Step.KeepsScope ctx ((ctx.resolve schema tag).andThen next) := by
  have hsame := ctx.resolve_sameScope schema tag
  -- Whether the arguments are refused or what follows them fails, the same fact is used.
  refine Step.KeepsScope.andThen (fun e ctx' h => ?_) fun attrs mid h => ?_
  · rwa [h] at hsame
  · rw [h] at hsame
    exact (hnext attrs mid).of_sameScope hsame

/-- A chain that fails has only marked the context as having code. -/
theorem keepsScope_applyModifiers (ctx : Context) (engine : Engine) (steps : List Invocation)
    (value : String) : Step.KeepsScope ctx (ctx.applyModifiers engine steps value) := by
  intro e ctx' h
  obtain ⟨-, rfl⟩ := Prod.mk.inj h
  exact ⟨rfl, rfl, rfl⟩

/-- Frames are removed only if the innermost one was expected. -/
theorem keepsScope_closeTag (ctx : Context) (tag : String) (expected : List String) :
    Step.KeepsScope ctx (ctx.closeTag tag expected) := by
  unfold closeTag
  split
  · exact Step.keepsScope_error ⟨rfl, rfl, rfl⟩ _
  · exact Step.keepsScope_ok _ _

end Context

/-- A call never looks at the open blocks. -/
theorem compileCall_keepsScope (engine : Engine) (function : String) (tag : Tag) (ctx : Context) :
    Step.KeepsScope ctx (compileCall engine function tag ctx) := by
  unfold compileCall
  split
  · exact Step.keepsScope_error ⟨rfl, rfl, rfl⟩ _
  · refine ctx.keepsScope_resolve_andThen functionSchema tag fun attrs mid => ?_
    dsimp only
    split
    · exact Step.keepsScope_ok _ _
    · exact (Context.keepsScope_applyModifiers _ engine _ _).of_sameScope ⟨rfl, rfl, rfl⟩

/-- No built-in way to compile a tag touches the open blocks before its last check. -/
theorem TagCompiler.compile_keepsScope (compiler : TagCompiler) (engine : Engine) (tag : Tag)
    (ctx : Context) : Step.KeepsScope ctx (compiler.compile engine tag ctx) := by
  have hsame : ∀ ctx : Context, ctx.SameScope ctx := fun _ => ⟨rfl, rfl, rfl⟩
  -- All ways begin with the arguments. After these, a check fails in the context it was made in,
  -- and a context with other blocks comes with a success.
  cases compiler with
  | ifOpen | nocacheOpen =>
    exact ctx.keepsScope_resolve_andThen _ tag fun attrs mid => Step.keepsScope_ok _ _
  | elseIf =>
    refine ctx.keepsScope_resolve_andThen conditionSchema tag fun attrs mid => ?_
    split
    · exact Step.keepsScope_error (hsame mid) _
    · exact Step.keepsScope_ok _ _
  | elseBranch | nocacheClose =>
    refine ctx.keepsScope_resolve_andThen bareSchema tag fun attrs mid => ?_
    split
    · exact Step.keepsScope_error (hsame mid) _
    · exact Step.keepsScope_ok _ _
  | ifClose =>
    refine ctx.keepsScope_resolve_andThen bareSchema tag fun attrs mid => ?_
    -- The flag of the tag is set before the check, but the frames are not touched.
    have hclose := Context.keepsScope_closeTag
      { mid with tagNocache := mid.tagNocache || mid.nocache } "/if" conditionalFamilies
    have hmid : Step.KeepsScope mid _ := hclose.of_sameScope ⟨rfl, rfl, rfl⟩
    exact hmid.andThen fun closed last _ => Step.keepsScope_ok _ _
  | print =>
    refine ctx.keepsScope_resolve_andThen valueSchema tag fun attrs mid => ?_
    exact (mid.keepsScope_applyModifiers engine _ _).andThen fun _ _ _ => Step.keepsScope_ok _ _
  | functionCall => exact compileCall_keepsScope engine tag.name tag ctx

section SameScope

variable {engine : Engine} {tag : Tag} {ctx ctx' : Context}

/-- On an engine without compilers of one's own, a tag that fails keeps the scope. -/
theorem sameScope_of_dispatch_error (htags : engine.registry.BuiltInTags) {e : CompileError}
    (h : dispatch engine tag ctx = (.error e, ctx')) : ctx.SameScope ctx' := by
  have hkeeps := (engine.compilerOf tag).compile_keepsScope engine tag { ctx with line := tag.line }
  simp only [dispatch, Engine.handlerOf_eq_of_builtIn htags, TagHandler.compile] at h
  split at h
  · cases h
  · rename_i e' last hcompile
    obtain ⟨-, rfl⟩ := Prod.mk.inj h
    -- Being placed changes the error, not the context.
    have hsame : { ctx with line := tag.line }.SameScope last := hkeeps e' last hcompile
    exact ⟨hsame.template, hsame.nocache, hsame.scopes⟩

/-- Whether a tag fits, and what it does, is decided by the scope. -/
theorem Context.SameScope.move_eq (h : ctx.SameScope ctx') :
    engine.move tag { ctx' with tagNocache := false } =
      engine.move tag { ctx with tagNocache := false } := by
  simp only [Engine.move, h.nocache, h.scopes]

/-- A tag that fails also fails in another context with the same scope, in the same way. -/
theorem Context.SameScope.dispatch_error (hp : engine.Plain) (h : ctx.SameScope ctx')
    {e : CompileError}
    (hd : (dispatch engine tag { ctx with tagNocache := false }).1 = .error e) :
    (dispatch engine tag { ctx' with tagNocache := false }).1 = .error e := by
  obtain ⟨fault, hrefuses, rfl⟩ := refuses_of_dispatch hp hd
  have hrefuses' : engine.Refuses tag { ctx' with tagNocache := false } fault := by
    rwa [Engine.Refuses, h.move_eq]
  rw [dispatch_fst_of_refuses hp hrefuses']
  simp only [h.template]

/-- A tag that is compiled is compiled to the same fragment in another context with the same scope,
    and the contexts after it have the same scope again. -/
theorem Context.SameScope.dispatch_ok (hp : engine.Plain) (h : ctx.SameScope ctx') {code : String}
    {next : Context}
    (hd : dispatch engine tag { ctx with tagNocache := false } = (.ok code, next)) :
    ∃ next', dispatch engine tag { ctx' with tagNocache := false } = (.ok code, next') ∧
      (next.noteCode code).SameScope (next'.noteCode code) ∧
      emitted tag code next' = emitted tag code next := by
  obtain ⟨own, m, hown, hmove, rfl, rfl⟩ := (dispatch_eq_ok_iff hp).mp hd
  -- The move looks only at what the two contexts share.
  have hd' := dispatch_of_ok hp hown (h.move_eq.trans hmove)
  exact ⟨_, hd', ⟨h.template, rfl, rfl⟩, rfl⟩

/-- What tags are compiled to does not depend on the rest of the context. -/
theorem Context.SameScope.fragments_eq (hp : engine.Plain) (h : ctx.SameScope ctx')
    (tags : List Tag) :
    (compileTags engine tags ctx').map (·.1) = (compileTags engine tags ctx).map (·.1) := by
  -- The invariant is the same scope; the other fields may differ from tag to tag.
  induction tags generalizing ctx ctx' with
  | nil => rfl
  | cons tag tags ih =>
    match hd : dispatch engine tag { ctx with tagNocache := false } with
    | (.error e, next) =>
      have hfail : (dispatch engine tag { ctx with tagNocache := false }).1 = .error e := by rw [hd]
      rw [compileTags_cons_of_error hfail, compileTags_cons_of_error (h.dispatch_error hp hfail)]
    | (.ok code, next) =>
      obtain ⟨next', hd', hnext, hemitted⟩ := h.dispatch_ok hp hd
      have hrest := ih hnext
      rw [compileTags_cons_of_ok hd, compileTags_cons_of_ok hd', hemitted]
      -- The others fail after both runs or after neither.
      cases hrun : compileTags engine tags (next.noteCode code) with
      | error e =>
        rw [hrun] at hrest
        rw [map_eq_error.mp hrest]
      | ok run =>
        rw [hrun] at hrest
        obtain ⟨run', hrun', hfragments⟩ := map_eq_ok.mp hrest
        rw [hrun']
        exact congrArg (fun rest => Except.ok (emitted tag code next ++ rest)) hfragments

end SameScope

/-- A tag that fails leaves the open blocks, the caching flag and the template exactly as they were,
    whatever the context was, however the engine's tags are named and whatever its gate is. So what
    is compiled afterwards in the same context comes out as if the tag had not been tried, unless
    the gate looks at the context. -/
theorem dispatch_error_keeps_scope {engine : Engine} (htags : engine.registry.BuiltInTags)
    {tag : Tag} {ctx ctx' : Context} {e : CompileError}
    (h : dispatch engine tag ctx = (.error e, ctx')) :
    ctx'.scopes = ctx.scopes ∧ ctx'.nocache = ctx.nocache ∧ ctx'.template = ctx.template ∧
      (engine.Steady → ∀ tags, (compileTags engine tags ctx').map (·.1) =
        (compileTags engine tags ctx).map (·.1)) := by
  have hsame := sameScope_of_dispatch_error htags h
  exact ⟨hsame.scopes, hsame.nocache, hsame.template, fun hsteady tags =>
    hsame.fragments_eq ⟨htags, hsteady⟩ tags⟩

/-- An engine with other names for the tags. -/
def renamedEngine : Engine :=
  { registry := { Registry.builtins with
      tags := .ofList [("fi", .builtIn .ifClose), ("cached", .builtIn .nocacheClose)] } }

/-- Inside a block without caching that stands in a conditional. -/
def uncachedSection : Context :=
  { template := some "page", line := some 3, nocache := true
    scopes := ⟨[⟨"nocache", false, some 3⟩, ⟨"if", false, some 1⟩]⟩ }

/-- The closing tag of the conditional comes too early. It is remembered that it asked for no
    caching and where it stands, but both blocks stay open and can be closed in order. -/
theorem earlyFi_keeps_scope :
    ∃ e ctx', dispatch renamedEngine { name := "fi", line := some 4, positional := ["nocache"] }
        uncachedSection = (.error e, ctx') ∧
      (ctx'.line = some 4 ∧ ctx'.tagNocache = true) ∧
      (ctx'.scopes = uncachedSection.scopes ∧ ctx'.nocache = true ∧ ctx'.template = some "page") ∧
      (compileTags renamedEngine [{ name := "cached" }, { name := "fi" }] ctx').map (·.1) =
        .ok [⟨"\x7d", false, none⟩] := by
  obtain ⟨e, ctx', h, hline, hnocache⟩ : ∃ e ctx',
      dispatch renamedEngine { name := "fi", line := some 4, positional := ["nocache"] }
        uncachedSection = (.error e, ctx') ∧ ctx'.line = some 4 ∧ ctx'.tagNocache = true :=
    ⟨_, _, rfl, rfl, rfl⟩
  have htags : renamedEngine.registry.BuiltInTags := by decide
  obtain ⟨hscopes, hflag, htemplate, hrest⟩ := dispatch_error_keeps_scope htags h
  refine ⟨e, ctx', h, ⟨hline, hnocache⟩, ⟨hscopes, hflag, htemplate⟩, ?_⟩
  -- Going on from the failed tag is going on from before it.
  rw [hrest (Engine.steady_of_policy none rfl)]
  rfl

/-! ## The first failing tag -/

section Unit

variable {engine : Engine}

/-- A run that fails does so at a first tag. -/
theorem exists_failing_of_compileTags {tags : List Tag} {ctx : Context} {e : CompileError}
    (h : compileTags engine tags ctx = .error e) :
    ∃ before tag after fragments mid, tags = before ++ tag :: after ∧
      compileTags engine before ctx = .ok (fragments, mid) ∧
      (dispatch engine tag { mid with tagNocache := false }).1 = .error e := by
  -- The induction follows the run up to the tag that ends it.
  induction tags generalizing ctx with
  | nil => cases h
  | cons tag tags ih =>
    match hd : dispatch engine tag { ctx with tagNocache := false } with
    | (.error e', next) =>
      have hfail : (dispatch engine tag { ctx with tagNocache := false }).1 = .error e' := by
        rw [hd]
      rw [compileTags_cons_of_error hfail] at h
      cases h
      exact ⟨[], tag, tags, [], ctx, rfl, rfl, hfail⟩
    | (.ok code, next) =>
      rw [compileTags_cons_of_ok hd] at h
      obtain ⟨before, failing, after, fragments, mid, htags, hbefore, hfail⟩ :=
        ih (map_eq_error.mp h)
      have hrun := compileTags_cons_eq_ok_iff.mpr ⟨code, next, fragments, hd, hbefore, rfl⟩
      exact ⟨tag :: before, failing, after, _, mid, by rw [htags, List.cons_append], hrun, hfail⟩

/-- No tag changes the template. -/
theorem template_of_compileTags (hp : engine.Plain) {tags : List Tag} {ctx last : Context}
    {fragments : List Fragment} (h : compileTags engine tags ctx = .ok (fragments, last)) :
    last.template = ctx.template := by
  -- Every tag sets the other fields of the context and copies this one.
  induction tags generalizing ctx fragments with
  | nil =>
    cases h
    rfl
  | cons tag tags ih =>
    obtain ⟨code, next, rest, hd, hrest, -⟩ := compileTags_cons_eq_ok_iff.mp h
    obtain ⟨own, m, -, -, -, rfl⟩ := (dispatch_eq_ok_iff hp).mp hd
    exact (ih hrest :)

/-- All streams that begin in the same way up to a failing tag fail alike. -/
theorem compile_of_failing {before : List Tag} {tag : Tag} {template : Option String}
    {fragments : List Fragment} {mid : Context} {e : CompileError}
    (hbefore : compileTags engine before { template } = .ok (fragments, mid))
    (hfail : (dispatch engine tag { mid with tagNocache := false }).1 = .error e)
    (others : List Tag) : compile engine template (before ++ tag :: others) = .error e := by
  have hrun : compileTags engine (before ++ tag :: others) { template } = .error e := by
    rw [compileTags_append_eq, hbefore]
    simp only [Except.bind, compileTags_cons_of_error hfail]
    rfl
  exact compile_of_compileTags_error hrun

/-- The last tag of a run is compiled in the context after the others. -/
theorem compileTags_concat_ok {tags : List Tag} {tag : Tag} {ctx last : Context}
    {fragments : List Fragment}
    (h : compileTags engine (tags ++ [tag]) ctx = .ok (fragments, last)) :
    ∃ fragments' mid code next, compileTags engine tags ctx = .ok (fragments', mid) ∧
      dispatch engine tag { mid with tagNocache := false } = (.ok code, next) ∧
      last = next.noteCode code := by
  rw [compileTags_append_eq] at h
  obtain ⟨⟨fragments', mid⟩, hmid, h⟩ := bind_eq_ok.mp h
  obtain ⟨⟨fragments'', last'⟩, hlast, heq⟩ := map_eq_ok.mp h
  -- Behind the last tag there is nothing left to compile.
  obtain ⟨code, next, rest, hd, hrest, -⟩ := compileTags_cons_eq_ok_iff.mp hlast
  cases hrest
  exact ⟨fragments', mid, code, next, hmid, hd, (Prod.mk.inj heq).2.symm⟩

end Unit

/-! ## The tag that opened a block -/

/-- The innermost block of `stack` was opened by the tag `opener` and has stayed open since: it was
    not there after the tags before, and it is there after the tag and after each tag that
    follows. -/
structure Engine.OpenSince (engine : Engine) (template : Option String) (stack : List Frame)
    (before : List Tag) (opener : Tag) (after : List Tag) : Prop where
  absent : ∃ fragments ctx, compileTags engine before { template } = .ok (fragments, ctx) ∧
    ¬ stack <:+ ctx.scopes.frames
  present : ∀ since, since <+: after → ∃ fragments ctx,
    compileTags engine (before ++ opener :: since) { template } = .ok (fragments, ctx) ∧
      stack <:+ ctx.scopes.frames

/-- The names of the tags that open blocks. -/
def openingWords : List String := ["if", "elseif", "else", "nocache"]

/-- A stack that only appears with a pushed frame has that frame innermost. -/
theorem eq_of_suffix_push {frame new : Frame} {outer : List Frame} {s : ScopeStack}
    (h : frame :: outer <:+ (s.push new).frames) (hold : ¬ frame :: outer <:+ s.frames) :
    frame = new := by
  obtain heq | hsuffix := List.suffix_cons_iff.mp h
  · exact (List.cons.inj heq).1
  · exact absurd hsuffix hold

/-- A block that was not there before a tag is the tag's own. -/
theorem TagCompiler.frame_of_move {compiler : TagCompiler} {line : Option Nat} {nocache : Bool}
    {s : ScopeStack} {m : Move} {frame : Frame} {outer : List Frame}
    (h : compiler.move line nocache s = .ok m) (hnew : frame :: outer <:+ m.scopes.frames)
    (hold : ¬ frame :: outer <:+ s.frames) :
    frame.line = line ∧ frame.family = compiler.word ∧ compiler.word ∈ openingWords := by
  cases compiler with
  | ifOpen | nocacheOpen =>
    cases h
    rw [eq_of_suffix_push hnew hold]
    exact ⟨rfl, rfl, by decide⟩
  | elseIf =>
    obtain ⟨_, -, rfl⟩ := map_eq_ok.mp h
    rw [eq_of_suffix_push hnew hold]
    exact ⟨rfl, rfl, by decide⟩
  | elseBranch =>
    obtain ⟨scopes, hscopes, rfl⟩ := map_eq_ok.mp h
    obtain ⟨old, rest, hpop, rfl⟩ := ScopeStack.replaceTop_eq_ok_iff.mp hscopes
    obtain ⟨hframes, -⟩ := ScopeStack.pop_eq_ok_iff.mp hpop
    -- The replaced frame has gone, so what is new is new to the blocks below it as well.
    have hrest : ¬ frame :: outer <:+ rest.frames := by
      intro hsuffix
      rw [hframes] at hold
      exact hold (hsuffix.trans (List.suffix_cons old rest.frames))
    rw [eq_of_suffix_push hnew hrest]
    exact ⟨rfl, rfl, by decide⟩
  | ifClose =>
    -- Closing tags only remove frames, so what is left was there before.
    obtain ⟨closed, hclosed, rfl⟩ := map_eq_ok.mp h
    obtain ⟨-, rfl⟩ := ScopeStack.close_eq_ok_iff.mp hclosed
    exact absurd (hnew.trans (List.dropWhile_suffix _)) hold
  | nocacheClose =>
    obtain ⟨⟨popped, scopes⟩, hpop, rfl⟩ := map_eq_ok.mp h
    obtain ⟨hframes, -⟩ := ScopeStack.pop_eq_ok_iff.mp hpop
    rw [hframes] at hold
    exact absurd (hnew.trans (List.suffix_cons popped scopes.frames)) hold
  | print | functionCall =>
    cases h
    exact absurd hnew hold

/-- On an engine made from settings, every open block was opened by a tag of the block's name, keeps
    the line of that tag, and has stayed open since. -/
theorem openSince_of_compileTags {engine : Engine} (hc : engine.Configured)
    {template : Option String} {tags : List Tag} {fragments : List Fragment} {last : Context}
    {frame : Frame} {outer : List Frame}
    (hrun : compileTags engine tags { template } = .ok (fragments, last))
    (hframe : frame :: outer <:+ last.scopes.frames) :
    ∃ before opener after, tags = before ++ opener :: after ∧
      engine.OpenSince template (frame :: outer) before opener after ∧
      opener.name ∈ openingWords ∧ frame.family = opener.name ∧ frame.line = opener.line := by
  -- By induction from the end: either the last tag has opened the block, or it was open before.
  induction tags using List.reverseRecOn generalizing fragments last with
  | nil =>
    cases hrun
    cases List.eq_nil_of_suffix_nil hframe
  | append_singleton tags tag ih =>
    obtain ⟨fragments', mid, code, next, hmid, hd, rfl⟩ := compileTags_concat_ok hrun
    by_cases hold : frame :: outer <:+ mid.scopes.frames
    · obtain ⟨before, opener, after, htags, hsince, hplace⟩ := ih hmid hold
      subst htags
      refine ⟨before, opener, after ++ [tag], by simp, ⟨hsince.absent, ?_⟩, hplace⟩
      intro since hprefix
      -- Of the prefixes, only the longest contains the last tag.
      obtain rfl | hprefix := List.prefix_concat_iff.mp hprefix
      · refine ⟨fragments, next.noteCode code, ?_, hframe⟩
        rwa [List.append_assoc, List.cons_append] at hrun
      · exact hsince.present since hprefix
    · obtain ⟨own, m, -, hmove, -, rfl⟩ := (dispatch_eq_ok_iff hc.plain).mp hd
      rw [Engine.move, engine.compilerOf_eq hc] at hmove
      obtain ⟨hline, hfamily, hword⟩ := TagCompiler.frame_of_move hmove hframe hold
      -- A call opens no block, so the word of the tag is its name.
      have hname : (TagCompiler.ofName tag.name).word = tag.name := by
        apply TagCompiler.word_ofName
        intro hcall
        rw [hcall] at hword
        exact absurd hword (by decide)
      rw [hname] at hfamily hword
      refine ⟨tags, tag, [], rfl, ⟨⟨fragments', mid, hmid, hold⟩, ?_⟩, hword, hfamily, hline⟩
      intro since hprefix
      cases List.prefix_nil.mp hprefix
      exact ⟨fragments, _, hrun, hframe⟩

/-- At the end of a template, the error is the one of the innermost open block. -/
theorem Context.frames_of_finish_error {ctx : Context} {e : CompileError}
    (h : ctx.finish = .error e) :
    ∃ frame outer, ctx.scopes.frames = frame :: outer ∧
      e = { fault := .unclosedTag frame.family, line := frame.line, template := ctx.template } := by
  cases hframes : ctx.scopes.frames with
  | nil => simp only [finish, ScopeStack.ensureEmpty, hframes, mapError_ok, reduceCtorEq] at h
  | cons frame outer =>
    simp only [finish, ScopeStack.ensureEmpty, hframes, mapError_error, CompileError.placedAt,
      Option.none_or, Option.or_self, Except.error.injEq] at h
    exact ⟨frame, outer, rfl, h.symm⟩

/-- Where the error of a unit is placed, on an engine made from settings. Either there is a first
    tag that fails: then the error has the name and the line of that tag and the template, and every
    stream that begins with the same tags up to this one fails with the same error. Or all tags are
    compiled and a block is left open: then the error names the family of the innermost one, has the
    template, no tag, and the line of the tag that opened this block. -/
theorem compile_error_place {settings : Settings} {workingDir : Option String} {engine : Engine}
    (hengine : settings.toEngine workingDir = .ok engine) {template : Option String}
    {tags : List Tag} {e : CompileError} (h : compile engine template tags = .error e) :
    (∃ before tag after fragments ctx, tags = before ++ tag :: after ∧
      compileTags engine before { template } = .ok (fragments, ctx) ∧
      (dispatch engine tag { ctx with tagNocache := false }).1 = .error e ∧
      e.tag = some tag.name ∧ e.line = tag.line ∧ e.template = template ∧
      ∀ others, compile engine template (before ++ tag :: others) = .error e) ∨
    (∃ fragments last frame outer before opener after,
      compileTags engine tags { template } = .ok (fragments, last) ∧
      last.scopes.frames = frame :: outer ∧ tags = before ++ opener :: after ∧
      engine.OpenSince template (frame :: outer) before opener after ∧
      opener.name ∈ openingWords ∧ opener.name = frame.family ∧
      e = { fault := .unclosedTag frame.family, tag := none, line := opener.line, template }) := by
  have hc := Settings.toEngine_configured hengine
  cases hrun : compileTags engine tags { template } with
  | error e' =>
    rw [compile_of_compileTags_error hrun] at h
    cases h
    obtain ⟨before, tag, after, fragments, mid, htags, hbefore, hfail⟩ :=
      exists_failing_of_compileTags hrun
    obtain ⟨fault, -, hplace⟩ := refuses_of_dispatch hc.plain hfail
    have htemplate : mid.template = template := template_of_compileTags hc.plain hbefore
    refine .inl ⟨before, tag, after, fragments, mid, htags, hbefore, hfail, ?_, ?_, ?_,
      compile_of_failing hbefore hfail⟩
    · rw [hplace, faultAt]
    · rw [hplace, faultAt]
    · rw [hplace, faultAt]
      exact htemplate
  | ok result =>
    obtain ⟨fragments, last⟩ := result
    -- All tags are compiled, so it is the end of the template that fails.
    have hfinish : last.finish = .error e := by
      cases hfinish : last.finish with
      | error e' =>
        rw [compile_of_finish_error hrun hfinish] at h
        cases h
        rfl
      | ok _ =>
        rw [compile_eq_ok_iff.mpr ⟨fragments, last, hrun, hfinish, rfl⟩] at h
        cases h
    obtain ⟨frame, outer, hframes, rfl⟩ := Context.frames_of_finish_error hfinish
    have hframe : frame :: outer <:+ last.scopes.frames :=
      hframes ▸ List.suffix_refl _
    obtain ⟨before, opener, after, htags, hsince, hword, hfamily, hline⟩ :=
      openSince_of_compileTags hc hrun hframe
    refine .inr ⟨fragments, last, frame, outer, before, opener, after, rfl, hframes, htags, hsince,
      hword, hfamily.symm, ?_⟩
    have htemplate : last.template = template := template_of_compileTags hc.plain hrun
    rw [hline, htemplate]

/-- Tags that leave a conditional open in its last branch, after a block that has been closed. -/
def openElse : List Tag :=
  [{ name := "if", line := some 1, positional := ["$a"] }, { name := "else", line := some 3 },
    { name := "nocache", line := some 4 }, { name := "/nocache", line := some 5 }]

/-- Prints with a modifier that is not known. -/
def shoutedPrint : Tag :=
  { name := "print", line := some 6, positional := ["$x"], modifiers := [⟨"shout", []⟩] }

/-- The error of the open conditional is placed at the `else`. With a tag behind it that fails, the
    error is the one of this tag, whatever follows. -/
theorem openElse_error_place :
    clockSettings.toEngine none = .ok clockEngine ∧
      (∃ e before opener after, compile clockEngine (some "page") openElse = .error e ∧
        e = { fault := .unclosedTag "else", line := some 3, template := some "page" } ∧
        openElse = before ++ opener :: after ∧
        clockEngine.OpenSince (some "page") [⟨"else", false, some 3⟩] before opener after ∧
        opener.name = "else" ∧ opener.line = some 3) ∧
      ∃ e before tag after,
        compile clockEngine (some "page") (openElse ++ [shoutedPrint]) = .error e ∧
        openElse ++ [shoutedPrint] = before ++ tag :: after ∧
        e.tag = some tag.name ∧ tag.name = "print" ∧ e.line = some 6 ∧
        ∀ others, compile clockEngine (some "page") (before ++ tag :: others) = .error e := by
  refine ⟨clockSettings_toEngine, ?_, ?_⟩
  · obtain ⟨e, he, hplace⟩ : ∃ e, compile clockEngine (some "page") openElse = .error e ∧
        e = { fault := .unclosedTag "else", line := some 3, template := some "page" } :=
      ⟨_, rfl, rfl⟩
    obtain ⟨_, tag, _, _, _, -, -, -, htag, -⟩ |
        ⟨_, last, frame, outer, before, opener, after, hrun, hframes, htags, hsince, -, hname, h⟩ :=
      compile_error_place clockSettings_toEngine he
    · -- An error at the end has no tag.
      rw [hplace] at htag
      cases htag
    · cases hrun
      cases hframes
      refine ⟨e, before, opener, after, he, hplace, htags, hsince, hname, ?_⟩
      rw [hplace] at h
      exact (CompileError.mk.inj h).2.2.1.symm
  · obtain ⟨e, he, hprint, hline⟩ : ∃ e,
        compile clockEngine (some "page") (openElse ++ [shoutedPrint]) = .error e ∧
        e.tag = some "print" ∧ e.line = some 6 := ⟨_, rfl, rfl, rfl⟩
    obtain ⟨before, tag, after, _, _, htags, -, -, htag, -, -, hothers⟩ |
        ⟨_, _, _, _, _, _, _, -, -, -, -, -, -, h⟩ :=
      compile_error_place clockSettings_toEngine he
    · rw [htag] at hprint
      exact ⟨e, before, tag, after, he, htags, htag, Option.some.inj hprint, hline, hothers⟩
    · -- An error at the end would have no tag.
      rw [h] at hprint
      cases hprint

end TagPress
