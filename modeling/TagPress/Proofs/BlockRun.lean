import TagPress.Proofs.TagEffect

/-!
# Runs over open blocks

Whether a tag fits depends on the kinds of the open blocks only, not on what their frames remember
about caching or on their lines. This module runs tag names over a stack of block kinds and relates
the run to compiling: on acceptable tags both go through the same blocks and stop at the same tag.

## Key results

- `move_of_step`, `move_of_stuck`: one tag, on frames and on kinds of blocks
- `Engine.emits_of_runBlocks`: a run that goes through compiles
- `compile_of_runBlocks_eq_none`: a run that gets stuck fails at the same tag
-/

namespace TagPress

/-! ## Kinds of blocks -/

/-- The kinds of open blocks. -/
inductive Block where
  /-- The first branch of a conditional. -/
  | ifBranch
  /-- A further branch with a condition. -/
  | elseIfBranch
  /-- The last branch of a conditional. -/
  | elseBranch
  /-- A block without caching. -/
  | nocache
  deriving DecidableEq

namespace Block

/-- The family of the frames of a kind. -/
def family : Block → String
  | ifBranch => "if"
  | elseIfBranch => "elseif"
  | elseBranch => "else"
  | nocache => "nocache"

/-- Whether a block belongs to a conditional. -/
def isConditional : Block → Bool
  | nocache => false
  | _ => true

/-- Whether another branch may follow. -/
def takesBranch : Block → Bool
  | ifBranch | elseIfBranch => true
  | _ => false

/-- The closing tag of a conditional expects the frames of conditionals. -/
theorem contains_conditionalFamilies (b : Block) :
    conditionalFamilies.contains b.family = b.isConditional := by
  cases b <;> decide

/-- A further branch expects the frames after which one may follow. -/
theorem contains_branchFamilies (b : Block) :
    ["if", "elseif"].contains b.family = b.takesBranch := by
  cases b <;> decide

/-- The closing tag of an uncached block expects its frame, the only one of no conditional. -/
theorem contains_nocacheFamily (b : Block) : ["nocache"].contains b.family = !b.isConditional := by
  cases b <;> decide

/-- Another branch may follow in a conditional only. -/
theorem isConditional_of_takesBranch {b : Block} (h : b.takesBranch = true) :
    b.isConditional = true := by
  cases b with
  | ifBranch | elseIfBranch => rfl
  | elseBranch | nocache => cases h

end Block

/-! ## One tag -/

/-- What a tag does to the kinds of the open blocks, innermost first; nothing if it does not fit. -/
def TagCompiler.step : TagCompiler → List Block → Option (List Block)
  | ifOpen, bs => some (.ifBranch :: bs)
  | elseIf, [] => none
  | elseIf, b :: bs => if b.takesBranch then some (.elseIfBranch :: b :: bs) else none
  | elseBranch, [] => none
  | elseBranch, b :: bs => if b.takesBranch then some (.elseBranch :: bs) else none
  | ifClose, [] => none
  | ifClose, b :: bs => if b.isConditional then some (bs.dropWhile Block.isConditional) else none
  | nocacheOpen, bs => some (.nocache :: bs)
  | nocacheClose, [] => none
  | nocacheClose, b :: bs => if b.isConditional then none else some bs
  | print, bs | functionCall, bs => some bs

/-- How many braces a tag closes. -/
def TagCompiler.closes : TagCompiler → List Block → Nat
  | ifClose, bs => (bs.takeWhile Block.isConditional).length
  | _, _ => 0

/-- The stack has frames of the given kinds. -/
def ScopeStack.Shows (s : ScopeStack) (bs : List Block) : Prop :=
  s.frames.map (·.family) = bs.map Block.family

namespace ScopeStack

/-- An opened block shows its kind. -/
theorem Shows.push {s : ScopeStack} {bs : List Block} (h : s.Shows bs) (b : Block) (nocache : Bool)
    (line : Option Nat) : (s.push ⟨b.family, nocache, line⟩).Shows (b :: bs) := by
  simp only [Shows, ScopeStack.push, List.map_cons]
  rw [h]

/-- No kinds, no frames. -/
theorem Shows.frames_nil {s : ScopeStack} (h : s.Shows []) : s.frames = [] :=
  List.map_eq_nil_iff.mp h

/-- The innermost kind is that of the innermost frame. -/
theorem Shows.frames_cons {s : ScopeStack} {b : Block} {bs : List Block} (h : s.Shows (b :: bs)) :
    ∃ frame rest, s.frames = frame :: rest ∧ frame.family = b.family ∧
      ScopeStack.Shows ⟨rest⟩ bs :=
  List.map_eq_cons_iff.mp h

/-- The frames of the innermost conditionals are as many as their blocks. -/
theorem Shows.length_takeWhile {s : ScopeStack} {bs : List Block} (h : s.Shows bs) :
    (s.frames.takeWhile fun frame => conditionalFamilies.contains frame.family).length =
      (bs.takeWhile Block.isConditional).length := by
  -- On frames the test is for families, on blocks for kinds; it is the same one.
  have hkind : conditionalFamilies.contains ∘ Block.family = Block.isConditional :=
    funext Block.contains_conditionalFamilies
  have hmap : ((s.frames.map (·.family)).takeWhile conditionalFamilies.contains).length =
      ((bs.map Block.family).takeWhile conditionalFamilies.contains).length := by rw [h]
  rw [List.takeWhile_map, List.takeWhile_map, List.length_map, List.length_map, hkind] at hmap
  exact hmap

/-- Below the innermost conditionals, frames and blocks still agree. -/
theorem Shows.dropWhile {s : ScopeStack} {bs : List Block} (h : s.Shows bs) :
    ScopeStack.Shows
      ⟨s.frames.dropWhile fun frame => conditionalFamilies.contains frame.family⟩
      (bs.dropWhile Block.isConditional) := by
  -- The test of the closing tag, as a test of kinds.
  have hkind : conditionalFamilies.contains ∘ Block.family = Block.isConditional :=
    funext Block.contains_conditionalFamilies
  have hmap : (s.frames.map (·.family)).dropWhile conditionalFamilies.contains =
      (bs.map Block.family).dropWhile conditionalFamilies.contains := by rw [h]
  rw [List.dropWhile_map, List.dropWhile_map, hkind] at hmap
  exact hmap

end ScopeStack

/-- A tag that fits the kinds of the open blocks fits the frames. -/
theorem move_of_step {compiler : TagCompiler} {line : Option Nat} {nocache : Bool}
    {s : ScopeStack} {bs bs' : List Block} (hs : s.Shows bs) (hstep : compiler.step bs = some bs') :
    ∃ m, compiler.move line nocache s = .ok m ∧ m.scopes.Shows bs' ∧
      m.closed = compiler.closes bs := by
  -- Tags that open a block fit everywhere; the others look at the innermost block first.
  cases compiler with
  | ifOpen =>
    cases hstep
    exact ⟨_, rfl, hs.push .ifBranch nocache line, rfl⟩
  | nocacheOpen =>
    cases hstep
    exact ⟨_, rfl, hs.push .nocache nocache line, rfl⟩
  | print =>
    cases hstep
    exact ⟨_, rfl, hs, rfl⟩
  | functionCall =>
    cases hstep
    exact ⟨_, rfl, hs, rfl⟩
  | elseIf =>
    cases bs with
    | nil => cases hstep
    | cons b bs =>
      simp only [TagCompiler.step, Option.ite_none_right_eq_some, Option.some.injEq] at hstep
      obtain ⟨hb, rfl⟩ := hstep
      obtain ⟨frame, rest, hframes, hfamily, -⟩ := hs.frames_cons
      refine ⟨⟨s.push ⟨"elseif", nocache, line⟩, nocache, 0⟩, ?_,
        hs.push .elseIfBranch nocache line, rfl⟩
      simp only [TagCompiler.move, ScopeStack.checkTop, hframes, hfamily,
        Block.contains_branchFamilies, hb, if_true, Except.map]
  | elseBranch =>
    cases bs with
    | nil => cases hstep
    | cons b bs =>
      simp only [TagCompiler.step, Option.ite_none_right_eq_some, Option.some.injEq] at hstep
      obtain ⟨hb, rfl⟩ := hstep
      obtain ⟨frame, rest, hframes, hfamily, hrest⟩ := hs.frames_cons
      refine ⟨⟨(ScopeStack.mk rest).push ⟨"else", frame.nocache || nocache, line⟩, nocache, 0⟩, ?_,
        hrest.push .elseBranch _ line, rfl⟩
      simp only [TagCompiler.move, ScopeStack.replaceTop, ScopeStack.pop, hframes, hfamily,
        Block.contains_branchFamilies, hb, if_true, Except.map]
  | ifClose =>
    cases bs with
    | nil => cases hstep
    | cons b bs =>
      simp only [TagCompiler.step, Option.ite_none_right_eq_some, Option.some.injEq] at hstep
      obtain ⟨hb, rfl⟩ := hstep
      obtain ⟨frame, rest, hframes, hfamily, -⟩ := hs.frames_cons
      have htop : s.checkTop "/if" conditionalFamilies = .ok () := by
        simp only [ScopeStack.checkTop, hframes, hfamily, Block.contains_conditionalFamilies, hb,
          if_true]
      -- `step` has looked at the innermost block already and drops the others only.
      have hrest : (b :: bs).dropWhile Block.isConditional = bs.dropWhile Block.isConditional :=
        List.dropWhile_cons_of_pos hb
      simp only [TagCompiler.move, ScopeStack.close, htop, Except.map]
      exact ⟨_, rfl, hrest ▸ hs.dropWhile, hs.length_takeWhile⟩
  | nocacheClose =>
    cases bs with
    | nil => cases hstep
    | cons b bs =>
      simp only [TagCompiler.step, Option.ite_none_left_eq_some, Option.some.injEq] at hstep
      obtain ⟨hb, rfl⟩ := hstep
      obtain ⟨frame, rest, hframes, hfamily, hrest⟩ := hs.frames_cons
      refine ⟨⟨⟨rest⟩, frame.nocache, 0⟩, ?_, hrest, rfl⟩
      simp only [TagCompiler.move, ScopeStack.pop, hframes, hfamily, Block.contains_nocacheFamily,
        hb, Bool.not_false, if_true, Except.map]

/-- The name of the tags that are compiled in one of the built-in ways. -/
def TagCompiler.word : TagCompiler → String
  | ifOpen => "if"
  | elseIf => "elseif"
  | elseBranch => "else"
  | ifClose => "/if"
  | nocacheOpen => "nocache"
  | nocacheClose => "/nocache"
  | print => "print"
  | functionCall => ""

/-- A tag that is no function call has the name of its way of compiling. -/
theorem TagCompiler.word_ofName {name : String} (h : ofName name ≠ .functionCall) :
    (ofName name).word = name := by
  unfold ofName at h ⊢
  -- One case for each comparison of the name.
  repeat' split at h
  all_goals first | exact absurd rfl h | simp_all [word]

/-- A built-in way of compiling belongs to one name. -/
theorem TagCompiler.ofName_eq_iff {name : String} {compiler : TagCompiler}
    (hne : compiler ≠ .functionCall) : ofName name = compiler ↔ name = compiler.word := by
  constructor
  · rintro rfl
    exact (word_ofName hne).symm
  · rintro rfl
    cases compiler with
    | functionCall => exact absurd rfl hne
    | _ => rfl

/-- A tag that does not fit the kinds of the open blocks does not fit the frames. The fault names
    the innermost block. -/
theorem move_of_stuck {compiler : TagCompiler} {line : Option Nat} {nocache : Bool}
    {s : ScopeStack} {bs : List Block} (hs : s.Shows bs) (hstep : compiler.step bs = none) :
    compiler.move line nocache s =
      .error (.unbalanced compiler.word (bs.head?.map Block.family)) := by
  -- The fault names the innermost block, so the cases are split by whether there is one before they
  -- are split by the tag.
  cases bs with
  | nil =>
    have hframes := hs.frames_nil
    cases compiler with
    | elseIf => simp only [TagCompiler.move, ScopeStack.checkTop, hframes]; rfl
    | elseBranch =>
      simp only [TagCompiler.move, ScopeStack.replaceTop, ScopeStack.pop, hframes]; rfl
    | ifClose => simp only [TagCompiler.move, ScopeStack.close, ScopeStack.checkTop, hframes]; rfl
    | nocacheClose => simp only [TagCompiler.move, ScopeStack.pop, hframes]; rfl
    | ifOpen | nocacheOpen | print | functionCall => cases hstep
  | cons b bs =>
    obtain ⟨frame, rest, hframes, hfamily, -⟩ := hs.frames_cons
    cases compiler with
    | elseIf =>
      simp only [TagCompiler.step, ite_eq_right_iff, reduceCtorEq, imp_false] at hstep
      simp only [TagCompiler.move, ScopeStack.checkTop, hframes, hfamily,
        Block.contains_branchFamilies, hstep, Bool.false_eq_true, if_false]
      rfl
    | elseBranch =>
      simp only [TagCompiler.step, ite_eq_right_iff, reduceCtorEq, imp_false] at hstep
      simp only [TagCompiler.move, ScopeStack.replaceTop, ScopeStack.pop, hframes, hfamily,
        Block.contains_branchFamilies, hstep, Bool.false_eq_true, if_false]
      rfl
    | ifClose =>
      simp only [TagCompiler.step, ite_eq_right_iff, reduceCtorEq, imp_false] at hstep
      simp only [TagCompiler.move, ScopeStack.close, ScopeStack.checkTop, hframes, hfamily,
        Block.contains_conditionalFamilies, hstep, Bool.false_eq_true, if_false]
      rfl
    | nocacheClose =>
      simp only [TagCompiler.step, ite_eq_left_iff, reduceCtorEq, imp_false,
        Classical.not_not] at hstep
      simp only [TagCompiler.move, ScopeStack.pop, hframes, hfamily,
        Block.contains_nocacheFamily, hstep, Bool.not_true, Bool.false_eq_true, if_false]
      rfl
    | ifOpen | nocacheOpen | print | functionCall => cases hstep

/-! ## Runs -/

/-- What a tag of the given name does to the kinds of the open blocks. -/
def stepBlocks (name : String) (bs : List Block) : Option (List Block) :=
  (TagCompiler.ofName name).step bs

/-- What tags of the given names do to the kinds of the open blocks, one after the other. -/
def runBlocks : List String → List Block → Option (List Block)
  | [], bs => some bs
  | name :: names, bs => (stepBlocks name bs).bind (runBlocks names)

/-- Tag names are run one list after the other. -/
theorem runBlocks_append (names names' : List String) (bs : List Block) :
    runBlocks (names ++ names') bs = (runBlocks names bs).bind (runBlocks names') := by
  induction names generalizing bs with
  | nil => rfl
  | cons name names ih =>
    simp only [List.cons_append, runBlocks]
    cases stepBlocks name bs with
    | none => rfl
    | some bs' => exact ih bs'

/-- In every context with blocks of the kinds `bs`, the tags are compiled to `code` and leave blocks
    of the kinds `bs'`. -/
def Engine.Emits (engine : Engine) (tags : List Tag) (bs bs' : List Block) (code : String) : Prop :=
  ∀ ctx : Context, ctx.scopes.Shows bs → ∃ fragments last,
    compileTags engine tags ctx = .ok (fragments, last) ∧ last.scopes.Shows bs' ∧
      last.template = ctx.template ∧ String.join (fragments.map (·.code)) = code

namespace Engine

/-- No tags, no code. -/
theorem emits_nil (engine : Engine) (bs : List Block) : engine.Emits [] bs bs "" :=
  fun ctx hs => ⟨[], ctx, rfl, hs, rfl, rfl⟩

/-- A tag that fits the kinds of the open blocks moves them in the context. -/
theorem move_of_stepBlocks {engine : Engine} (hc : engine.Configured) {tag : Tag}
    {ctx : Context} {bs bs' : List Block} (hs : ctx.scopes.Shows bs)
    (hstep : stepBlocks tag.name bs = some bs') :
    ∃ m, engine.move tag ctx = .ok m ∧ m.scopes.Shows bs' ∧
      m.closed = (TagCompiler.ofName tag.name).closes bs := by
  rw [Engine.move, engine.compilerOf_eq hc tag]
  exact move_of_step hs hstep

/-- The first tag of a list that compiles writes its own code and closes its braces. -/
theorem Emits.cons {engine : Engine} (hc : engine.Configured) {tag : Tag} {tags : List Tag}
    {bs bs₁ bs₂ : List Block} {own code : String} (hown : engine.ownCode tag = .ok own)
    (hstep : stepBlocks tag.name bs = some bs₁) (htags : engine.Emits tags bs₁ bs₂ code) :
    engine.Emits (tag :: tags) bs bs₂
      (own ++ closingBraces ((TagCompiler.ofName tag.name).closes bs) ++ code) := by
  intro ctx hs
  -- The flag of the tag before is taken back first, which no block sees.
  have hs' : { ctx with tagNocache := false }.scopes.Shows bs := hs
  obtain ⟨m, hmove, hm, hclosed⟩ := move_of_stepBlocks hc hs' hstep
  have hd := dispatch_of_ok hc.plain hown hmove
  obtain ⟨fragments, last, hrest, hlast, htemplate, hcode⟩ :=
    htags ((engine.after tag { ctx with tagNocache := false } m).noteCode _) hm
  refine ⟨_, last, compileTags_cons_eq_ok_iff.mpr ⟨_, _, fragments, hd, hrest, rfl⟩, hlast,
    htemplate, ?_⟩
  rw [List.map_append, String.join_append, join_emitted, hcode, hclosed]

/-- Acceptable tags are compiled when the run over the kinds of blocks goes through. -/
theorem emits_of_runBlocks {engine : Engine} (hc : engine.Configured) {tags : List Tag}
    {bs bs' : List Block} (hok : ∀ tag ∈ tags, engine.Acceptable tag)
    (hrun : runBlocks (tags.map (·.name)) bs = some bs') :
    ∃ code, engine.Emits tags bs bs' code := by
  -- The induction follows the run; the code is found from the last tag to the first.
  induction tags generalizing bs with
  | nil =>
    simp only [List.map_nil, runBlocks, Option.some.injEq] at hrun
    exact ⟨"", hrun ▸ engine.emits_nil bs⟩
  | cons tag tags ih =>
    obtain ⟨hacc, hrest⟩ := List.forall_mem_cons.mp hok
    obtain ⟨bs₁, hstep, hrun⟩ := Option.bind_eq_some_iff.mp hrun
    obtain ⟨own, hown⟩ := hacc.ownCode
    obtain ⟨code, hcode⟩ := ih hrest hrun
    exact ⟨_, hcode.cons hc hown hstep⟩

end Engine

/-- When the run over the kinds of blocks gets stuck, compiling fails at the same tag. -/
theorem compileTags_of_runBlocks_eq_none {engine : Engine} (hc : engine.Configured)
    {tags : List Tag} {bs : List Block} {ctx : Context}
    (hok : ∀ tag ∈ tags, engine.Acceptable tag) (hs : ctx.scopes.Shows bs)
    (hrun : runBlocks (tags.map (·.name)) bs = none) :
    ∃ before tag after bs', tags = before ++ tag :: after ∧
      runBlocks (before.map (·.name)) bs = some bs' ∧ stepBlocks tag.name bs' = none ∧
      compileTags engine tags ctx =
        .error (faultAt tag ctx.template (.unbalanced tag.name (bs'.head?.map Block.family))) := by
  -- The invariant is that the frames of the context show the kinds of the run; the tags before the
  -- stuck one keep it.
  induction tags generalizing bs ctx with
  | nil => cases hrun
  | cons tag tags ih =>
    obtain ⟨hacc, hrest⟩ := List.forall_mem_cons.mp hok
    obtain ⟨own, hown⟩ := hacc.ownCode
    have hs' : { ctx with tagNocache := false }.scopes.Shows bs := hs
    cases hstep : stepBlocks tag.name bs with
    | none =>
      refine ⟨[], tag, tags, bs, rfl, rfl, hstep, compileTags_cons_of_error ?_⟩
      have hmove : engine.move tag { ctx with tagNocache := false } =
          .error (.unbalanced (TagCompiler.ofName tag.name).word (bs.head?.map Block.family)) := by
        rw [Engine.move, engine.compilerOf_eq hc tag]
        exact move_of_stuck hs hstep
      -- A function call fits everywhere, so the word of a tag that does not fit is its name.
      have hword : (TagCompiler.ofName tag.name).word = tag.name := by
        apply TagCompiler.word_ofName
        intro hcall
        rw [stepBlocks, hcall] at hstep
        cases hstep
      rw [hword] at hmove
      exact dispatch_fst_of_move_error hc.plain hown hmove
    | some bs₁ =>
      simp only [List.map_cons, runBlocks, hstep, Option.bind_some] at hrun
      obtain ⟨m, hmove, hm, -⟩ := Engine.move_of_stepBlocks hc hs' hstep
      have hd := dispatch_of_ok hc.plain hown hmove
      have hnext : ((engine.after tag { ctx with tagNocache := false } m).noteCode
          (own ++ closingBraces m.closed)).scopes.Shows bs₁ := hm
      obtain ⟨before, tag', after, bs', htags, hbefore, hstuck, herror⟩ := ih hrest hnext hrun
      refine ⟨tag :: before, tag', after, bs', by rw [htags, List.cons_append], ?_, hstuck, ?_⟩
      · simp only [List.map_cons, runBlocks, hstep, Option.bind_some, hbefore]
      · rw [compileTags_cons_of_ok hd, herror]
        rfl

/-! ## Whole units -/

/-- Tags that leave no block open are compiled. -/
theorem Engine.Emits.compile {engine : Engine} {tags : List Tag} {code : String}
    (h : engine.Emits tags [] [] code) (template : Option String) :
    ∃ c, TagPress.compile engine template tags = .ok c ∧ c.code = code := by
  obtain ⟨fragments, last, hrun, hlast, -, hcode⟩ := h { template } rfl
  have hfinish : last.finish = .ok () := by
    simp only [Context.finish, ScopeStack.ensureEmpty, hlast.frames_nil, mapError_ok]
  exact ⟨_, compile_eq_ok_iff.mpr ⟨fragments, last, hrun, hfinish, rfl⟩, hcode⟩

/-- Tags that leave a block open fail at the end. -/
theorem Engine.Emits.compile_unclosed {engine : Engine} {tags : List Tag} {b : Block}
    {bs : List Block} {code : String} (h : engine.Emits tags [] (b :: bs) code)
    (template : Option String) :
    ∃ line, TagPress.compile engine template tags =
      .error { fault := .unclosedTag b.family, line, template } := by
  obtain ⟨fragments, last, hrun, hlast, htemplate, -⟩ := h { template } rfl
  obtain ⟨frame, rest, hframes, hfamily, -⟩ := hlast.frames_cons
  -- The innermost frame is reported, with its own line and the template of the unit.
  refine ⟨frame.line, compile_of_finish_error hrun ?_⟩
  simp only [Context.finish, ScopeStack.ensureEmpty, hframes, hfamily, mapError_error,
    CompileError.placedAt, htemplate, Option.none_or, Option.or_self]

/-- Tags that do not fit fail at the first one of them. -/
theorem compile_of_runBlocks_eq_none {engine : Engine} (hc : engine.Configured)
    {tags : List Tag} (hok : ∀ tag ∈ tags, engine.Acceptable tag) (template : Option String)
    (hrun : runBlocks (tags.map (·.name)) [] = none) :
    ∃ before tag after bs, tags = before ++ tag :: after ∧
      runBlocks (before.map (·.name)) [] = some bs ∧ stepBlocks tag.name bs = none ∧
      compile engine template tags =
        .error (faultAt tag template (.unbalanced tag.name (bs.head?.map Block.family))) := by
  have hs : ({ template } : Context).scopes.Shows [] := rfl
  obtain ⟨before, tag, after, bs, htags, hbefore, hstuck, herror⟩ :=
    compileTags_of_runBlocks_eq_none hc hok hs hrun
  exact ⟨before, tag, after, bs, htags, hbefore, hstuck, compile_of_compileTags_error herror⟩

/-- Acceptable tags are compiled exactly if the run over the kinds of blocks goes through and leaves
    no block open. -/
theorem compile_ok_iff_runBlocks {engine : Engine} (hc : engine.Configured)
    {tags : List Tag} (hok : ∀ tag ∈ tags, engine.Acceptable tag) (template : Option String) :
    (∃ c, compile engine template tags = .ok c) ↔ runBlocks (tags.map (·.name)) [] = some [] := by
  constructor
  · rintro ⟨c, hcompile⟩
    -- A run that gets stuck or leaves a block open would have failed.
    match hrun : runBlocks (tags.map (·.name)) [] with
    | some [] => exact hrun
    | some (b :: bs) =>
      obtain ⟨code, hemits⟩ := Engine.emits_of_runBlocks hc hok hrun
      obtain ⟨line, herror⟩ := hemits.compile_unclosed template
      rw [herror] at hcompile
      cases hcompile
    | none =>
      obtain ⟨-, tag, -, bs, -, -, -, herror⟩ := compile_of_runBlocks_eq_none hc hok template hrun
      rw [herror] at hcompile
      cases hcompile
  · intro hrun
    obtain ⟨code, hemits⟩ := Engine.emits_of_runBlocks hc hok hrun
    obtain ⟨c, hcompile, -⟩ := hemits.compile template
    exact ⟨c, hcompile⟩

end TagPress
