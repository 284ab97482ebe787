import TagPress.Proofs.Cacheability
import TagPress.Proofs.ResolvedArguments

/-!
# Closing conditionals

The closing tag of a conditional, compiled in any state: whatever frames are open, with whatever
they remember, and whatever the flags are. It closes the whole run of conditional frames on top of
the stack, and one frame of the run that was opened without caching is enough to turn caching off.

## Key results

- `ScopeStack.TopRun.close`, `ScopeStack.close_eq_unbalanced`: what closing does to any stack
- `Tag.OnlyNocache.outcome_resolve`: a tag that gives only the caching word is accepted
- `ifClose_in_any_state`: the error, or the code, the frames and the flags after the tag
-/

namespace TagPress

/-! ## The run of frames on top -/

/-- The frame belongs to a conditional. -/
def Frame.IsConditional (frame : Frame) : Prop :=
  frame.family = "if" ∨ frame.family = "elseif" ∨ frame.family = "else"

/-- The families of conditionals, by name. -/
theorem Frame.contains_family_iff {frame : Frame} :
    conditionalFamilies.contains frame.family = true ↔ frame.IsConditional := by
  simp [conditionalFamilies, IsConditional]

namespace ScopeStack

/-- The frames on top of the stack that belong to conditionals, up to the first that does not, and
    the frames below them. -/
structure TopRun (s : ScopeStack) (run below : List Frame) : Prop where
  split : s.frames = run ++ below
  conditional : ∀ frame ∈ run, frame.IsConditional
  maximal : ∀ frame, below.head? = some frame → ¬ frame.IsConditional

/-- Every stack has such a run, which may be empty. -/
theorem exists_topRun (s : ScopeStack) : ∃ run below, s.TopRun run below := by
  obtain ⟨frames⟩ := s
  -- The run grows from the top as long as frames are conditionals.
  induction frames with
  | nil => exact ⟨[], [], rfl, by simp, by simp⟩
  | cons frame frames ih =>
    by_cases hframe : frame.IsConditional
    · obtain ⟨run, below, hrun⟩ := ih
      exact ⟨frame :: run, below, congrArg (frame :: ·) hrun.split,
        List.forall_mem_cons.mpr ⟨hframe, hrun.conditional⟩, hrun.maximal⟩
    · refine ⟨[], frame :: frames, rfl, by simp, fun top htop => ?_⟩
      rwa [← Option.some.inj htop]

variable {s : ScopeStack}

/-- With a conditional on top the run has a frame. -/
theorem exists_topRun_ne_nil {top : Frame} (htop : s.top? = some top)
    (hconditional : top.IsConditional) : ∃ run below, s.TopRun run below ∧ run ≠ [] := by
  obtain ⟨run, below, hrun⟩ := s.exists_topRun
  refine ⟨run, below, hrun, ?_⟩
  rintro rfl
  rw [top?, hrun.split, List.nil_append] at htop
  exact hrun.maximal top htop hconditional

variable {run below : List Frame}

/-- There is only one such run: the frames that are taken as long as their family is one of a
    conditional. -/
theorem TopRun.span_eq (h : s.TopRun run below) :
    s.frames.takeWhile (fun frame => conditionalFamilies.contains frame.family) = run ∧
      s.frames.dropWhile (fun frame => conditionalFamilies.contains frame.family) = below := by
  have hinside : ∀ frame ∈ run, conditionalFamilies.contains frame.family = true :=
    fun frame hframe => Frame.contains_family_iff.mpr (h.conditional frame hframe)
  rw [h.split, List.takeWhile_append_of_pos hinside, List.dropWhile_append_of_pos hinside]
  -- Maximality says where taking stops: at the end, or at a frame of another family.
  cases below with
  | nil => exact ⟨List.append_nil run, rfl⟩
  | cons frame below =>
    have hstop : ¬ conditionalFamilies.contains frame.family = true :=
      fun hfamily => h.maximal frame rfl (Frame.contains_family_iff.mp hfamily)
    rw [List.takeWhile_cons, List.dropWhile_cons, if_neg hstop, if_neg hstop]
    exact ⟨List.append_nil run, rfl⟩

/-- Closing takes the run and nothing else. -/
theorem TopRun.close (h : s.TopRun run below) (hrun : run ≠ []) (tag : String) :
    s.close tag conditionalFamilies = .ok ⟨⟨below⟩, run.length, run.any (·.nocache)⟩ := by
  obtain ⟨htake, hdrop⟩ := h.span_eq
  obtain ⟨top, rest, hcons⟩ := List.exists_cons_of_ne_nil hrun
  have htop : conditionalFamilies.contains top.family = true :=
    Frame.contains_family_iff.mpr (h.conditional top (hcons ▸ List.mem_cons_self))
  have hframes : s.frames = top :: (rest ++ below) := by rw [h.split, hcons, List.cons_append]
  rw [close_eq_ok_iff, htake, hdrop]
  exact ⟨checkTop_eq_ok_iff.mpr ⟨top, rest ++ below, hframes, htop⟩, rfl⟩

/-- Without a conditional on top there is nothing to close. The fault names the innermost frame. -/
theorem close_eq_unbalanced (h : ∀ top, s.top? = some top → ¬ top.IsConditional) (tag : String) :
    s.close tag conditionalFamilies = .error (.unbalanced tag (s.top?.map (·.family))) := by
  obtain ⟨frames⟩ := s
  cases frames with
  | nil => rfl
  | cons top rest =>
    have hfamily : ¬ conditionalFamilies.contains top.family = true :=
      fun hfamily => h top rfl (Frame.contains_family_iff.mp hfamily)
    simp only [close, checkTop, if_neg hfamily, top?, List.head?_cons, Option.map_some]

end ScopeStack

/-! ## Tags that give only the caching word -/

/-- The tag has no argument besides the word `nocache`, in either form and any number. -/
structure Tag.OnlyNocache (tag : Tag) : Prop where
  positional : ∀ value ∈ tag.positional, Text.strip value = "nocache"
  attributes : ∀ entry ∈ tag.attributes.entries, entry.1 = "nocache"

/-- Without the word such a tag has no arguments left. -/
theorem Tag.OnlyNocache.withoutNocache {tag : Tag} (h : tag.OnlyNocache) :
    tag.withoutNocache.positional = [] ∧ tag.withoutNocache.attributes = .empty := by
  constructor
  · refine List.filter_eq_nil_iff.mpr fun value hvalue => ?_
    rw [h.positional value hvalue]
    decide
  · refine congrArg OrderedMap.mk (List.filter_eq_nil_iff.mpr fun entry hentry => ?_)
    rw [h.attributes entry hentry]
    decide

/-- A schema without names accepts such a tag. -/
theorem Tag.OnlyNocache.outcome_resolve {tag : Tag} (h : tag.OnlyNocache) :
    (bareSchema.resolve tag).outcome = .ok .empty := by
  rw [← Schema.outcome_resolve_withoutNocache, Schema.resolve, h.withoutNocache.1,
    h.withoutNocache.2]
  rfl

/-! ## The closing tag -/

section Close

variable {ctx : Context} {tag : Tag}

/-- The closing tag has only braces to write. -/
theorem Tag.OnlyNocache.ownCode (h : tag.OnlyNocache) (engine : Engine) :
    TagCompiler.ifClose.ownCode engine tag = .ok "" :=
  TagCompiler.ownCode_eq_ok_iff.mpr ⟨by simp, .empty, h.outcome_resolve, rfl⟩

/-- The tag asks for no caching exactly if it carries the word with effect; nothing else about a
    closing tag does. -/
theorem Tag.OnlyNocache.marks_iff (h : tag.OnlyNocache) (engine : Engine) :
    TagCompiler.ifClose.marks engine tag = true ↔ tag.AsksNocache := by
  rw [← Schema.asksNocache_resolve_iff h.outcome_resolve]
  simp [TagCompiler.marks, TagCompiler.schema]

/-- With nothing to close the tag fails, and leaves the blocks and the flag of the block alone. -/
theorem Tag.OnlyNocache.ifClose_unbalanced (h : tag.OnlyNocache) (engine : Engine)
    (htop : ∀ top, ctx.scopes.top? = some top → ¬ top.IsConditional) :
    ∃ next, TagCompiler.ifClose.compile engine tag ctx =
        (.error (ctx.failure (.unbalanced "/if" (ctx.scopes.top?.map (·.family)))), next) ∧
      next.scopes = ctx.scopes ∧ next.nocache = ctx.nocache := by
  have hmove : TagCompiler.ifClose.move ctx.line ctx.nocache ctx.scopes =
      .error (.unbalanced "/if" (ctx.scopes.top?.map (·.family))) := by
    rw [TagCompiler.move, ScopeStack.close_eq_unbalanced htop]
    rfl
  obtain ⟨tagNocache, hasCode, hcompile⟩ :=
    TagCompiler.compile_of_move_error (h.ownCode engine) hmove
  exact ⟨_, hcompile, rfl, rfl⟩

/-- With a run to close the tag writes a brace for each of its frames. -/
theorem Tag.OnlyNocache.ifClose_run (h : tag.OnlyNocache) (engine : Engine)
    {run below : List Frame} (htop : ctx.scopes.TopRun run below) (hrun : run ≠ []) :
    ∃ next, TagCompiler.ifClose.compile engine tag ctx = (.ok (closingBraces run.length), next) ∧
      next.scopes.frames = below ∧
      (next.nocache = true ↔ ctx.nocache = true ∨ ∃ frame ∈ run, frame.nocache = true) ∧
      (next.tagNocache = true ↔
        ctx.tagNocache = true ∨ tag.AsksNocache ∨ next.nocache = true) := by
  have hmove : TagCompiler.ifClose.move ctx.line ctx.nocache ctx.scopes =
      .ok ⟨⟨below⟩, ctx.nocache || run.any (·.nocache), run.length⟩ := by
    rw [TagCompiler.move, htop.close hrun]
    rfl
  -- The closing tag asks the engine for nothing, so it may be the one without a gate.
  have hengine : TagCompiler.ifClose.compile engine tag ctx =
      TagCompiler.ifClose.compile {} tag ctx := rfl
  have hcompile := TagCompiler.compile_of_ok (Engine.steady_of_policy none rfl) (h.ownCode {}) hmove
  rw [String.empty_append] at hcompile
  refine ⟨_, hengine.trans hcompile, rfl, ?_, ?_⟩
  · simp [TagCompiler.after]
  · rw [← h.marks_iff {}]
    simp [TagCompiler.after, or_assoc]

end Close

/-- The closing tag of a conditional in any state, when it gives at most the caching word. If no
    conditional is on top of the stack, it is unbalanced and the fault names the innermost frame. If
    one is, the maximal run of conditional frames is closed with one brace for each. Caching is off
    afterwards if it was off, or was off where any frame of the run was opened, and the fragment is
    marked if it was, if the tag asks for it, or if caching is off afterwards. -/
theorem ifClose_in_any_state (engine : Engine) (ctx : Context) {tag : Tag}
    (htag : tag.OnlyNocache) :
    ((∀ top, ctx.scopes.top? = some top → ¬ top.IsConditional) →
      ∃ next, TagCompiler.ifClose.compile engine tag ctx =
          (.error (ctx.failure (.unbalanced "/if" (ctx.scopes.top?.map (·.family)))), next) ∧
        next.scopes = ctx.scopes ∧ next.nocache = ctx.nocache) ∧
    (∀ top, ctx.scopes.top? = some top → top.IsConditional →
      ∃ run below next, ctx.scopes.TopRun run below ∧ 1 ≤ run.length ∧
        TagCompiler.ifClose.compile engine tag ctx = (.ok (closingBraces run.length), next) ∧
        next.scopes.frames = below ∧
        (next.nocache = true ↔ ctx.nocache = true ∨ ∃ frame ∈ run, frame.nocache = true) ∧
        (next.tagNocache = true ↔
          ctx.tagNocache = true ∨ tag.AsksNocache ∨ next.nocache = true)) ∧
    (ctx.nocache = true → (TagCompiler.ifClose.compile engine tag ctx).2.nocache = true) := by
  refine ⟨htag.ifClose_unbalanced engine, fun top htop hconditional => ?_, fun hnocache => ?_⟩
  · obtain ⟨run, below, hrun, hne⟩ := ScopeStack.exists_topRun_ne_nil htop hconditional
    obtain ⟨next, hnext⟩ := htag.ifClose_run engine hrun hne
    exact ⟨run, below, next, hrun, List.length_pos_iff.mpr hne, hnext⟩
  · -- A failing tag leaves the flag alone, and a closing one only adds to it.
    by_cases hnone : ∀ top, ctx.scopes.top? = some top → ¬ top.IsConditional
    · obtain ⟨next, hcompile, -, hkept⟩ := htag.ifClose_unbalanced engine hnone
      rw [hcompile, hkept, hnocache]
    · push Not at hnone
      obtain ⟨top, htop, hconditional⟩ := hnone
      obtain ⟨run, below, hrun, hne⟩ := ScopeStack.exists_topRun_ne_nil htop hconditional
      obtain ⟨next, hcompile, -, hflag, -⟩ := htag.ifClose_run engine hrun hne
      rw [hcompile]
      exact hflag.mpr (.inl hnocache)

/-- A chain of three branches around which caching is on, though the second was opened without it;
    below it a block without caching inside another conditional. -/
def taintedBranches : Context :=
  { line := some 9
    scopes := ⟨[⟨"else", false, some 8⟩, ⟨"elseif", true, some 5⟩, ⟨"if", false, some 3⟩,
      ⟨"nocache", false, some 2⟩, ⟨"if", false, some 1⟩]⟩ }

/-- The context after the chain is closed. -/
def afterBranches : Context :=
  { taintedBranches with
    scopes := ⟨[⟨"nocache", false, some 2⟩, ⟨"if", false, some 1⟩]⟩
    nocache := true
    tagNocache := true }

/-- A closing tag whose caching word has no effect. -/
def quietClose : Tag :=
  { name := "/if", attributes := .ofList [("nocache", "0")] }

/-- A closing tag that asks for no caching. -/
def loudClose : Tag :=
  { name := "/if", attributes := .ofList [("nocache", "true")] }

/-- A conditional around which caching is on. -/
def cachedBranch : Context :=
  { line := some 4, scopes := ⟨[⟨"if", false, some 1⟩]⟩ }

/-- One branch in the middle of the chain taints the close, and the next closing tag meets the block
    without caching. A closing tag can also ask for no caching of its own, which leaves caching
    on. -/
theorem taintedBranches_ifClose :
    quietClose.OnlyNocache ∧
      TagCompiler.ifClose.compile clockEngine quietClose taintedBranches =
        (.ok "\x7d\x7d\x7d", afterBranches) ∧
      (∃ run below next, taintedBranches.scopes.TopRun run below ∧ 1 ≤ run.length ∧
        TagCompiler.ifClose.compile clockEngine quietClose taintedBranches =
          (.ok (closingBraces run.length), next) ∧
        next.scopes.frames = below ∧
        (next.nocache = true ↔
          taintedBranches.nocache = true ∨ ∃ frame ∈ run, frame.nocache = true) ∧
        (next.tagNocache = true ↔
          taintedBranches.tagNocache = true ∨ quietClose.AsksNocache ∨ next.nocache = true)) ∧
      (∃ next, TagCompiler.ifClose.compile clockEngine quietClose afterBranches =
          (.error (afterBranches.failure (.unbalanced "/if" (some "nocache"))), next) ∧
        next.scopes = afterBranches.scopes ∧ next.nocache = afterBranches.nocache) ∧
      (∃ next, TagCompiler.ifClose.compile clockEngine loudClose cachedBranch =
          (.ok "\x7d", next) ∧ next.nocache = false ∧ next.tagNocache = true) := by
  have honly : quietClose.OnlyNocache := ⟨by decide, by decide⟩
  obtain ⟨-, hclosing, -⟩ := ifClose_in_any_state clockEngine taintedBranches honly
  obtain ⟨hfailing, -, -⟩ := ifClose_in_any_state clockEngine afterBranches honly
  have hconditional : Frame.IsConditional ⟨"else", false, some 8⟩ := .inr (.inr rfl)
  have hblock : ∀ top, afterBranches.scopes.top? = some top → ¬ top.IsConditional := by
    intro top htop
    rw [← Option.some.inj htop, ← Frame.contains_family_iff]
    decide
  refine ⟨honly, by decide, hclosing _ rfl hconditional, hfailing hblock, ?_⟩
  obtain ⟨-, hloud, -⟩ := ifClose_in_any_state clockEngine cachedBranch
    (⟨by decide, by decide⟩ : loudClose.OnlyNocache)
  obtain ⟨run, below, next, -, -, hcompile, -, -, hmarked⟩ :=
    hloud ⟨"if", false, some 1⟩ rfl (.inl rfl)
  have hasks : loudClose.AsksNocache := .inr ⟨"true", by decide, by decide⟩
  -- The context is computed, so that the flag in it can be compared with what is proved.
  have hcode : TagCompiler.ifClose.compile clockEngine loudClose cachedBranch =
      (.ok "\x7d", { cachedBranch with scopes := {}, tagNocache := true }) := by decide
  obtain ⟨-, rfl⟩ := Prod.mk.inj (hcompile.symm.trans hcode)
  exact ⟨_, hcode, rfl, hmarked.mpr (.inr (.inl hasks))⟩

end TagPress
