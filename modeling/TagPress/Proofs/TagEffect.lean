import TagPress.Compiled
import TagPress.Proofs.ConfiguredEngine

/-!
# What a tag does

Compiling a tag has two parts that do not depend on each other. The tag's own code comes from the
engine and the tag alone, and what the tag does to the open blocks comes from the blocks and from
the way the tag is compiled. `dispatch` succeeds exactly if both parts do, so everything about whole
units can be proved from `ownCode` and `move`.

## Key results

- `dispatch_eq_ok_iff`: when a tag is compiled, its code and the context after it
- `dispatch_of_refuses`, `refuses_of_dispatch`: the ways to fail, and the context after a failure
- `acceptable_iff_ownCode`: on an engine made from settings, a tag has code of its own exactly if
  its attributes are accepted, its function is known, and its modifiers resolve and take their
  arguments
-/

namespace TagPress

/-! ## The two parts -/

/-- A text of closing braces. -/
def closingBraces (n : Nat) : String :=
  String.ofList (List.replicate n '\x7d')

/-- What a tag does to the open blocks. -/
structure Move where
  /-- The blocks that are open afterwards. -/
  scopes : ScopeStack
  /-- Whether caching is off afterwards. -/
  nocache : Bool
  /-- The number of braces that the tag has to close. -/
  closed : Nat := 0

namespace TagCompiler

/-- The schema that a tag's arguments are resolved with. -/
def schema : TagCompiler → Schema
  | ifOpen | elseIf => conditionSchema
  | elseBranch | ifClose | nocacheOpen | nocacheClose => bareSchema
  | print => valueSchema
  | functionCall => functionSchema

/-- The code that comes from the resolved arguments and the modifiers. -/
def write (compiler : TagCompiler) (engine : Engine) (tag : Tag) (attrs : Attributes) :
    Except Fault String :=
  match compiler with
  | ifOpen => .ok ("if (" ++ valueOf attrs "condition" ++ ") \x7b")
  | elseIf => .ok ("\x7d else \x7b if (" ++ valueOf attrs "condition" ++ ") \x7b")
  | elseBranch => .ok "\x7d else \x7b"
  | ifClose | nocacheOpen | nocacheClose => .ok ""
  | print =>
    (engine.applyModifiers {} tag.modifiers (valueOf attrs "value")).map fun code =>
      "echo " ++ code ++ ";"
  | functionCall => engine.applyModifiers {} tag.modifiers (handlerCall tag.name attrs)

/-- The code of a tag without the braces that it closes. -/
def ownCode (compiler : TagCompiler) (engine : Engine) (tag : Tag) : Except Fault String :=
  if compiler = .functionCall ∧ engine.registry.functions.get? tag.name = none then
    .error (.unknownFunction tag.name)
  else (compiler.schema.resolve tag).outcome.bind (compiler.write engine tag)

/-- What a tag does to the open blocks when it stands on `line` and caching is off or on. -/
def move (compiler : TagCompiler) (line : Option Nat) (nocache : Bool) (s : ScopeStack) :
    Except Fault Move :=
  match compiler with
  | ifOpen => .ok ⟨s.push ⟨"if", nocache, line⟩, nocache, 0⟩
  | elseIf =>
    (s.checkTop "elseif" ["if", "elseif"]).map fun _ =>
      ⟨s.push ⟨"elseif", nocache, line⟩, nocache, 0⟩
  | elseBranch =>
    (s.replaceTop "else" ["if", "elseif"] ⟨"else", nocache, line⟩).map fun scopes =>
      ⟨scopes, nocache, 0⟩
  | ifClose =>
    (s.close "/if" conditionalFamilies).map fun closed =>
      ⟨closed.remaining, nocache || closed.nocache, closed.count⟩
  | nocacheOpen => .ok ⟨s.push ⟨"nocache", nocache, line⟩, true, 0⟩
  | nocacheClose =>
    (s.pop "/nocache" ["nocache"]).map fun (frame, scopes) => ⟨scopes, frame.nocache, 0⟩
  | print | functionCall => .ok ⟨s, nocache, 0⟩

/-- Whether a tag asks for a fragment that is not cached, by an argument or because its function is
    not cacheable. -/
def marks (compiler : TagCompiler) (engine : Engine) (tag : Tag) : Bool :=
  (compiler.schema.resolve tag).asksNocache ||
    (decide (compiler = .functionCall) &&
      (engine.registry.functions.get? tag.name).any fun handler => !handler.cacheable)

/-- Whether a tag pipes an expression through modifiers, which counts as code. -/
def pipes (compiler : TagCompiler) (tag : Tag) : Bool :=
  decide (compiler = .print) || (decide (compiler = .functionCall) && !tag.modifiers.isEmpty)

/-- The context after a tag whose parts both succeed. -/
def after (compiler : TagCompiler) (engine : Engine) (tag : Tag) (ctx : Context) (m : Move) :
    Context :=
  { ctx with
    scopes := m.scopes
    nocache := m.nocache
    tagNocache := ctx.tagNocache || compiler.marks engine tag ||
      (decide (compiler = .ifClose) && m.nocache)
    hasCode := ctx.hasCode || compiler.pipes tag }

end TagCompiler

/-! ## Outcomes -/

/-- A sequence succeeds exactly if both its parts do. -/
theorem bind_eq_ok {ε α β : Type} {x : Except ε α} {f : α → Except ε β} {b : β} :
    x.bind f = .ok b ↔ ∃ a, x = .ok a ∧ f a = .ok b := by
  cases x with
  | error e => simp [Except.bind]
  | ok a => simp [Except.bind]

/-- A mapped outcome is a success exactly if the outcome was. -/
theorem map_eq_ok {ε α β : Type} {x : Except ε α} {f : α → β} {b : β} :
    x.map f = .ok b ↔ ∃ a, x = .ok a ∧ f a = b := by
  cases x with
  | error e => simp [Except.map]
  | ok a => simp [Except.map]

/-- A sequence fails if its first part does, or if that succeeds and its second part fails. -/
theorem bind_eq_error {ε α β : Type} {x : Except ε α} {f : α → Except ε β} {e : ε} :
    x.bind f = .error e ↔ x = .error e ∨ ∃ a, x = .ok a ∧ f a = .error e := by
  cases x with
  | error e' => simp [Except.bind]
  | ok a => simp [Except.bind]

/-- A mapped outcome has the errors of the outcome. -/
theorem map_eq_error {ε α β : Type} {x : Except ε α} {f : α → β} {e : ε} :
    x.map f = .error e ↔ x = .error e := by
  cases x with
  | error e' => simp [Except.map]
  | ok a => simp [Except.map]

/-- A success is kept when errors are rewritten. -/
theorem mapError_ok {ε ε' α : Type} (f : ε → ε') (a : α) :
    (Except.ok a).mapError f = .ok a := rfl

/-- An error is rewritten. -/
theorem mapError_error {ε ε' α : Type} (f : ε → ε') (e : ε) :
    (Except.error e : Except ε α).mapError f = .error (f e) := rfl

/-! ## Operations on the open blocks -/

namespace ScopeStack

variable {s : ScopeStack} {tag : String} {expected : List String}

/-- A check of the innermost block passes if there is one, of an expected family. -/
theorem checkTop_eq_ok_iff :
    s.checkTop tag expected = .ok () ↔
      ∃ frame rest, s.frames = frame :: rest ∧ expected.contains frame.family = true := by
  simp only [checkTop]
  constructor
  · intro h
    split at h
    · cases h
    · rename_i frame rest hframes
      split at h
      · rename_i hfamily
        exact ⟨frame, rest, hframes, hfamily⟩
      · cases h
  · rintro ⟨frame, rest, hframes, hfamily⟩
    simp only [hframes, hfamily, if_true]

/-- What is popped is the innermost frame, if its family is expected. -/
theorem pop_eq_ok_iff {rest : ScopeStack} {frame : Frame} :
    s.pop tag expected = .ok (frame, rest) ↔
      s.frames = frame :: rest.frames ∧ expected.contains frame.family = true := by
  simp only [pop]
  constructor
  · intro h
    split at h
    · cases h
    · rename_i top frames hframes
      split at h
      · rename_i hfamily
        cases h
        exact ⟨hframes, hfamily⟩
      · cases h
  · rintro ⟨hframes, hfamily⟩
    simp only [hframes, hfamily, if_true]

/-- A replaced block is popped first, and its place is taken by a frame that is tainted if either of
    the two was. -/
theorem replaceTop_eq_ok_iff {frame : Frame} {scopes : ScopeStack} :
    s.replaceTop tag expected frame = .ok scopes ↔
      ∃ old rest, s.pop tag expected = .ok (old, rest) ∧
        scopes = rest.push { frame with nocache := old.nocache || frame.nocache } := by
  simp only [replaceTop]
  constructor
  · intro h
    split at h
    · cases h
    · rename_i old rest hpop
      cases h
      exact ⟨old, rest, hpop, rfl⟩
  · rintro ⟨old, rest, hpop, rfl⟩
    rw [hpop]

/-- What is closed is the whole run of expected families, if it has a frame. -/
theorem close_eq_ok_iff {closed : Closed} :
    s.close tag expected = .ok closed ↔
      s.checkTop tag expected = .ok () ∧
        closed = ⟨⟨s.frames.dropWhile fun frame => expected.contains frame.family⟩,
          (s.frames.takeWhile fun frame => expected.contains frame.family).length,
          (s.frames.takeWhile fun frame => expected.contains frame.family).any (·.nocache)⟩ := by
  simp only [close]
  constructor
  · intro h
    split at h
    · cases h
    · rename_i htop
      cases h
      exact ⟨htop, rfl⟩
  · rintro ⟨htop, rfl⟩
    rw [htop]

end ScopeStack

/-! ## Resolved arguments -/

namespace Context

/-- Arguments that fit the schema only leave a request for an uncached fragment behind. -/
theorem resolve_of_ok {ctx : Context} {schema : Schema} {tag : Tag} {attrs : Attributes}
    (h : (schema.resolve tag).outcome = .ok attrs) :
    ctx.resolve schema tag =
      (.ok attrs,
        { ctx with tagNocache := ctx.tagNocache || (schema.resolve tag).asksNocache }) := by
  simp only [resolve, h, mapError_ok]

/-- Arguments that do not fit the schema are reported at the current line. A request for an uncached
    fragment that was read before the fault is kept. -/
theorem resolve_of_error {ctx : Context} {schema : Schema} {tag : Tag} {fault : Fault}
    (h : (schema.resolve tag).outcome = .error fault) :
    ctx.resolve schema tag =
      (.error (ctx.failure fault),
        { ctx with tagNocache := ctx.tagNocache || (schema.resolve tag).asksNocache }) := by
  simp only [resolve, h, mapError_error]

end Context

namespace TagCompiler

/-- A tag has code of its own exactly if its function is known, its arguments fit its schema and the
    code is written from them. -/
theorem ownCode_eq_ok_iff {compiler : TagCompiler} {engine : Engine} {tag : Tag} {own : String} :
    compiler.ownCode engine tag = .ok own ↔
      (compiler = .functionCall → ∃ handler,
        engine.registry.functions.get? tag.name = some handler) ∧
      ∃ attrs, (compiler.schema.resolve tag).outcome = .ok attrs ∧
        compiler.write engine tag attrs = .ok own := by
  simp only [ownCode]
  -- Function calls have one more condition, which is checked first.
  split
  · rename_i h
    simp [h.1, h.2]
  · rename_i h
    rw [bind_eq_ok]
    refine ⟨fun hattrs => ⟨fun hcall => ?_, hattrs⟩, And.right⟩
    exact Option.ne_none_iff_exists'.mp fun hnone => h ⟨hcall, hnone⟩

/-! ## Compiling in one way -/

/-- A call is compiled to its piped call of the handler. Without modifiers nothing is piped, and the
    call alone does not count as code yet. -/
private theorem compileCall_of_ok {engine : Engine} (hs : engine.Steady) {tag : Tag} {ctx : Context}
    {handler : FunctionHandler} {attrs : Attributes} {own : String}
    (hhandler : engine.registry.functions.get? tag.name = some handler)
    (hattrs : (functionSchema.resolve tag).outcome = .ok attrs)
    (hwrite : engine.applyModifiers {} tag.modifiers (handlerCall tag.name attrs) = .ok own) :
    compileCall engine tag.name tag ctx =
      (.ok own,
        { ctx with
          tagNocache := ctx.tagNocache || (functionSchema.resolve tag).asksNocache ||
            !handler.cacheable
          hasCode := ctx.hasCode || !tag.modifiers.isEmpty }) := by
  simp only [compileCall, hhandler, Context.resolve_of_ok hattrs, Step.andThen]
  -- An empty chain is not piped, so the flag for code is not raised there.
  cases hsteps : tag.modifiers.isEmpty with
  | true =>
    rw [List.isEmpty_iff.mp hsteps] at hwrite
    simp only [Engine.applyModifiers, Except.ok.injEq] at hwrite
    simp [hwrite]
  | false => simp [Context.applyModifiers_eq hs, hwrite, mapError_ok]

/-- A tag whose parts both succeed is compiled. -/
theorem compile_of_ok {compiler : TagCompiler} {engine : Engine} (hs : engine.Steady) {tag : Tag}
    {ctx : Context} {own : String} {m : Move} (hown : compiler.ownCode engine tag = .ok own)
    (hmove : compiler.move ctx.line ctx.nocache ctx.scopes = .ok m) :
    compiler.compile engine tag ctx =
      (.ok (own ++ closingBraces m.closed), compiler.after engine tag ctx m) := by
  obtain ⟨hcall, attrs, hattrs, hwrite⟩ := ownCode_eq_ok_iff.mp hown
  have hbraces : closingBraces 0 = "" := rfl
  -- Every way of compiling resolves its arguments first, so one fact about them serves all cases.
  cases compiler with
  | ifOpen =>
    simp only [schema] at hattrs
    simp only [write, Except.ok.injEq] at hwrite
    simp only [move, Except.ok.injEq] at hmove
    subst hmove hwrite
    simp [compile, compileIf, Context.resolve_of_ok hattrs, Step.andThen, Context.openTag, after,
      marks, pipes, schema, hbraces]
  | elseIf =>
    simp only [schema] at hattrs
    simp only [write, Except.ok.injEq] at hwrite
    obtain ⟨_, htop, hm⟩ := map_eq_ok.mp hmove
    subst hm hwrite
    simp [compile, compileElseIf, Context.resolve_of_ok hattrs, Step.andThen, htop,
      Context.openTag, after, marks, pipes, schema, hbraces]
  | elseBranch =>
    simp only [schema] at hattrs
    simp only [write, Except.ok.injEq] at hwrite
    obtain ⟨scopes, hscopes, hm⟩ := map_eq_ok.mp hmove
    subst hm hwrite
    simp [compile, compileElse, Context.resolve_of_ok hattrs, Step.andThen, hscopes, after, marks,
      pipes, schema, hbraces]
  | ifClose =>
    simp only [schema] at hattrs
    simp only [write, Except.ok.injEq] at hwrite
    obtain ⟨closed, hclosed, hm⟩ := map_eq_ok.mp hmove
    subst hm hwrite
    simp [compile, compileIfClose, Context.resolve_of_ok hattrs, Step.andThen, Context.closeTag,
      hclosed, after, marks, pipes, schema, closingBraces, Bool.or_assoc]
  | nocacheOpen =>
    simp only [schema] at hattrs
    simp only [write, Except.ok.injEq] at hwrite
    simp only [move, Except.ok.injEq] at hmove
    subst hmove hwrite
    simp [compile, compileNocache, Context.resolve_of_ok hattrs, Step.andThen, Context.openTag,
      after, marks, pipes, schema, hbraces]
  | nocacheClose =>
    simp only [schema] at hattrs
    simp only [write, Except.ok.injEq] at hwrite
    obtain ⟨⟨frame, scopes⟩, hpop, hm⟩ := map_eq_ok.mp hmove
    subst hm hwrite
    simp [compile, compileNocacheClose, Context.resolve_of_ok hattrs, Step.andThen, hpop, after,
      marks, pipes, schema, hbraces]
  | print =>
    simp only [schema] at hattrs
    obtain ⟨code, hcode, hwrite⟩ := map_eq_ok.mp hwrite
    simp only [move, Except.ok.injEq] at hmove
    subst hmove hwrite
    simp [compile, compilePrint, Context.resolve_of_ok hattrs, Step.andThen,
      Context.applyModifiers_eq hs, hcode, mapError_ok, after, marks, pipes, schema, hbraces]
  -- Only a call may be unknown; `hcall` gives its handler.
  | functionCall =>
    obtain ⟨handler, hhandler⟩ := hcall rfl
    simp only [move, Except.ok.injEq] at hmove
    subst hmove
    simp [compile, compileCall_of_ok hs hhandler hattrs hwrite, after, marks, pipes, schema,
      hhandler, hbraces, Bool.or_assoc]

/-- A tag without code of its own fails with the fault, before the blocks are looked at. At most
    the two flags of the tag have changed. -/
theorem compile_of_ownCode_error {compiler : TagCompiler} {engine : Engine} (hs : engine.Steady)
    {tag : Tag} {ctx : Context} {fault : Fault}
    (hown : compiler.ownCode engine tag = .error fault) :
    ∃ tagNocache hasCode, compiler.compile engine tag ctx =
      (.error (ctx.failure fault), { ctx with tagNocache, hasCode }) := by
  simp only [ownCode] at hown
  -- The function of a call is looked up before its arguments are resolved.
  split at hown
  · rename_i h
    simp only [Except.error.injEq] at hown
    subst hown
    simp only [h.1, compile, compileCall, h.2]
    exact ⟨ctx.tagNocache, ctx.hasCode, rfl⟩
  · rename_i h
    rw [bind_eq_error] at hown
    obtain hattrs | ⟨attrs, hattrs, hwrite⟩ := hown
    · -- The arguments are refused.
      refine ⟨ctx.tagNocache || (compiler.schema.resolve tag).asksNocache, ctx.hasCode, ?_⟩
      cases compiler <;> simp only [schema] at hattrs ⊢
      case functionCall =>
        obtain ⟨handler, hhandler⟩ :=
          Option.ne_none_iff_exists'.mp fun hnone => h ⟨rfl, hnone⟩
        simp only [compile, compileCall, hhandler, Context.resolve_of_error hattrs, Step.andThen]
      all_goals
        simp only [compile, compileIf, compileElseIf, compileElse, compileIfClose, compileNocache,
          compileNocacheClose, compilePrint, Context.resolve_of_error hattrs, Step.andThen]
    · -- The modifiers do not apply.
      cases compiler <;> simp only [schema] at hattrs
      case print =>
        simp only [write, map_eq_error] at hwrite
        simp only [compile, compilePrint, Context.resolve_of_ok hattrs, Step.andThen,
          Context.applyModifiers_eq hs, hwrite, mapError_error]
        exact ⟨_, _, rfl⟩
      case functionCall =>
        obtain ⟨handler, hhandler⟩ :=
          Option.ne_none_iff_exists'.mp fun hnone => h ⟨rfl, hnone⟩
        simp only [write] at hwrite
        -- An empty chain always applies, so the failing chain has a step.
        have hsteps : tag.modifiers.isEmpty = false := by
          cases hsteps : tag.modifiers with
          | nil => simp only [hsteps, Engine.applyModifiers, reduceCtorEq] at hwrite
          | cons step steps => rfl
        simp only [compile, compileCall, hhandler, Context.resolve_of_ok hattrs, Step.andThen,
          hsteps, Context.applyModifiers_eq hs, hwrite, mapError_error]
        exact ⟨_, _, rfl⟩
      -- The other tags write their code without modifiers.
      all_goals simp only [write, reduceCtorEq] at hwrite

/-- A tag that does not fit the open blocks fails with the fault and leaves the blocks alone. -/
theorem compile_of_move_error {compiler : TagCompiler} {engine : Engine} {tag : Tag}
    {ctx : Context} {own : String} {fault : Fault} (hown : compiler.ownCode engine tag = .ok own)
    (hmove : compiler.move ctx.line ctx.nocache ctx.scopes = .error fault) :
    ∃ tagNocache hasCode, compiler.compile engine tag ctx =
      (.error (ctx.failure fault), { ctx with tagNocache, hasCode }) := by
  obtain ⟨-, attrs, hattrs, -⟩ := ownCode_eq_ok_iff.mp hown
  -- Four of the eight ways of compiling look at the open blocks.
  cases compiler with
  | elseIf =>
    simp only [move, map_eq_error] at hmove
    simp only [schema] at hattrs
    simp only [compile, compileElseIf, Context.resolve_of_ok hattrs, Step.andThen, hmove]
    exact ⟨_, _, rfl⟩
  | elseBranch =>
    simp only [move, map_eq_error] at hmove
    simp only [schema] at hattrs
    simp only [compile, compileElse, Context.resolve_of_ok hattrs, Step.andThen, hmove]
    exact ⟨_, _, rfl⟩
  | ifClose =>
    simp only [move, map_eq_error] at hmove
    simp only [schema] at hattrs
    simp only [compile, compileIfClose, Context.resolve_of_ok hattrs, Step.andThen,
      Context.closeTag, hmove]
    exact ⟨_, _, rfl⟩
  | nocacheClose =>
    simp only [move, map_eq_error] at hmove
    simp only [schema] at hattrs
    simp only [compile, compileNocacheClose, Context.resolve_of_ok hattrs, Step.andThen, hmove]
    exact ⟨_, _, rfl⟩
  | ifOpen => simp only [move, reduceCtorEq] at hmove
  | nocacheOpen => simp only [move, reduceCtorEq] at hmove
  | print => simp only [move, reduceCtorEq] at hmove
  | functionCall => simp only [move, reduceCtorEq] at hmove

end TagCompiler

/-! ## Dispatching -/

/-- The way in which a tag's own code and its move are found for an engine. -/
def Engine.ownCode (engine : Engine) (tag : Tag) : Except Fault String :=
  (engine.compilerOf tag).ownCode engine tag

/-- The move of a tag in a context. -/
def Engine.move (engine : Engine) (tag : Tag) (ctx : Context) : Except Fault Move :=
  (engine.compilerOf tag).move tag.line ctx.nocache ctx.scopes

/-- The context after a tag that is compiled. -/
def Engine.after (engine : Engine) (tag : Tag) (ctx : Context) (m : Move) : Context :=
  (engine.compilerOf tag).after engine tag { ctx with line := tag.line } m

/-- A tag with code of its own that fits the open blocks is compiled. -/
theorem dispatch_of_ok {engine : Engine} (hp : engine.Plain) {tag : Tag} {ctx : Context}
    {own : String} {m : Move} (hown : engine.ownCode tag = .ok own)
    (hmove : engine.move tag ctx = .ok m) :
    dispatch engine tag ctx = (.ok (own ++ closingBraces m.closed), engine.after tag ctx m) := by
  have hmove' : (engine.compilerOf tag).move { ctx with line := tag.line }.line
      { ctx with line := tag.line }.nocache { ctx with line := tag.line }.scopes = .ok m := hmove
  simp only [dispatch, hp.handlerOf_eq, TagHandler.compile,
    TagCompiler.compile_of_ok hp.steady hown hmove', Engine.after]

/-- The error of a fault that is found at a tag of a template. -/
def faultAt (tag : Tag) (template : Option String) (fault : Fault) : CompileError :=
  { fault, tag := some tag.name, line := tag.line, template }

/-- The ways to fail: the tag has no code of its own, or it has and does not fit the open blocks. -/
def Engine.Refuses (engine : Engine) (tag : Tag) (ctx : Context) (fault : Fault) : Prop :=
  engine.ownCode tag = .error fault ∨
    ∃ own, engine.ownCode tag = .ok own ∧ engine.move tag ctx = .error fault

/-- A tag that is refused fails at its place. Of the context, only the line and the two flags of the
    tag may have changed. -/
theorem dispatch_of_refuses {engine : Engine} (hp : engine.Plain) {tag : Tag} {ctx : Context}
    {fault : Fault} (h : engine.Refuses tag ctx fault) :
    ∃ tagNocache hasCode, dispatch engine tag ctx =
      (.error (faultAt tag ctx.template fault),
        { ctx with line := tag.line, tagNocache, hasCode }) := by
  have hcompile : ∃ tagNocache hasCode,
      (engine.compilerOf tag).compile engine tag { ctx with line := tag.line } =
        (.error ({ ctx with line := tag.line }.failure fault),
          { ctx with line := tag.line, tagNocache, hasCode }) := by
    -- A tag is refused by what it writes or by where it stands.
    obtain hown | ⟨own, hown, hmove⟩ := h
    · exact TagCompiler.compile_of_ownCode_error hp.steady hown
    · exact TagCompiler.compile_of_move_error hown hmove
  obtain ⟨tagNocache, hasCode, hcompile⟩ := hcompile
  refine ⟨tagNocache, hasCode, ?_⟩
  simp [dispatch, hp.handlerOf_eq, TagHandler.compile, hcompile, Context.failure, Context.locate,
    CompileError.placedAt, CompileError.inTag, faultAt]

/-- The error of a tag that is refused. -/
theorem dispatch_fst_of_refuses {engine : Engine} (hp : engine.Plain) {tag : Tag} {ctx : Context}
    {fault : Fault} (h : engine.Refuses tag ctx fault) :
    (dispatch engine tag ctx).1 = .error (faultAt tag ctx.template fault) := by
  obtain ⟨tagNocache, hasCode, hd⟩ := dispatch_of_refuses hp h
  rw [hd]

/-- A tag without code of its own fails with that fault. -/
theorem dispatch_fst_of_ownCode_error {engine : Engine} (hp : engine.Plain) {tag : Tag}
    {ctx : Context} {fault : Fault} (hown : engine.ownCode tag = .error fault) :
    (dispatch engine tag ctx).1 = .error (faultAt tag ctx.template fault) :=
  dispatch_fst_of_refuses hp (.inl hown)

/-- A tag that does not fit the open blocks fails with that fault. -/
theorem dispatch_fst_of_move_error {engine : Engine} (hp : engine.Plain) {tag : Tag} {ctx : Context}
    {own : String} {fault : Fault} (hown : engine.ownCode tag = .ok own)
    (hmove : engine.move tag ctx = .error fault) :
    (dispatch engine tag ctx).1 = .error (faultAt tag ctx.template fault) :=
  dispatch_fst_of_refuses hp (.inr ⟨own, hown, hmove⟩)

/-- A tag that fails is refused. -/
theorem refuses_of_dispatch {engine : Engine} (hp : engine.Plain) {tag : Tag} {ctx : Context}
    {e : CompileError} (h : (dispatch engine tag ctx).1 = .error e) :
    ∃ fault, engine.Refuses tag ctx fault ∧ e = faultAt tag ctx.template fault := by
  -- A tag that is not refused is compiled, against the hypothesis.
  have hrefuses : ∃ fault, engine.Refuses tag ctx fault := by
    cases hown : engine.ownCode tag with
    | error fault => exact ⟨fault, .inl hown⟩
    | ok own =>
      cases hmove : engine.move tag ctx with
      | error fault => exact ⟨fault, .inr ⟨own, hown, hmove⟩⟩
      | ok m =>
        rw [dispatch_of_ok hp hown hmove] at h
        cases h
  obtain ⟨fault, hfault⟩ := hrefuses
  rw [dispatch_fst_of_refuses hp hfault] at h
  exact ⟨fault, hfault, (Except.error.inj h).symm⟩

/-- A tag is compiled exactly if it has code of its own and fits the open blocks. -/
theorem dispatch_eq_ok_iff {engine : Engine} (hp : engine.Plain) {tag : Tag} {ctx ctx' : Context}
    {code : String} :
    dispatch engine tag ctx = (.ok code, ctx') ↔
      ∃ own m, engine.ownCode tag = .ok own ∧ engine.move tag ctx = .ok m ∧
        code = own ++ closingBraces m.closed ∧ ctx' = engine.after tag ctx m := by
  constructor
  · intro h
    -- Whichever half fails, the error of the tag is known, and it is not this outcome.
    cases hown : engine.ownCode tag with
    | error fault =>
      have herr : (dispatch engine tag ctx).1 = _ := dispatch_fst_of_ownCode_error hp hown
      simp only [h, reduceCtorEq] at herr
    | ok own =>
      cases hmove : engine.move tag ctx with
      | error fault =>
        have herr := dispatch_fst_of_move_error hp hown hmove
        simp only [h, reduceCtorEq] at herr
      | ok m =>
        rw [dispatch_of_ok hp hown hmove] at h
        simp only [Prod.mk.injEq, Except.ok.injEq] at h
        exact ⟨own, m, rfl, rfl, h.1.symm, h.2.symm⟩
  · rintro ⟨own, m, hown, hmove, rfl, rfl⟩
    exact dispatch_of_ok hp hown hmove

/-! ## Acceptable tags -/

/-- The tags whose modifiers are applied; the other tags ignore theirs. -/
def TagCompiler.takesModifiers (compiler : TagCompiler) : Prop :=
  compiler = .print ∨ compiler = .functionCall

/-- A tag is acceptable on its own: whatever blocks are open, its function is known, its attributes
    fit the schema, and its modifiers resolve and take their arguments. -/
structure Engine.Acceptable (engine : Engine) (tag : Tag) : Prop where
  function : engine.compilerOf tag = .functionCall →
    ∃ handler, engine.registry.functions.get? tag.name = some handler
  attributes : ∃ attrs, ((engine.compilerOf tag).schema.resolve tag).outcome = .ok attrs
  modifiers : (engine.compilerOf tag).takesModifiers →
    ∀ step ∈ tag.modifiers, engine.Resolves step
  arguments : (engine.compilerOf tag).takesModifiers →
    ∀ step ∈ tag.modifiers, engine.TakesArguments step

/-- An acceptable tag has code of its own. -/
theorem Engine.Acceptable.ownCode {engine : Engine} {tag : Tag} (h : engine.Acceptable tag) :
    ∃ own, engine.ownCode tag = .ok own := by
  obtain ⟨attrs, hattrs⟩ := h.attributes
  have hwrite : ∃ own, (engine.compilerOf tag).write engine tag attrs = .ok own := by
    -- Only printing tags and calls have modifiers to apply; all others write a fixed text.
    cases hk : engine.compilerOf tag with
    | print =>
      obtain ⟨code, hcode⟩ := applyModifiers_ok_of_resolves (h.modifiers (.inl hk))
        (h.arguments (.inl hk)) (valueOf attrs "value")
      exact ⟨"echo " ++ code ++ ";", by simp only [TagCompiler.write, hcode, Except.map]⟩
    | functionCall =>
      exact applyModifiers_ok_of_resolves (h.modifiers (.inr hk)) (h.arguments (.inr hk))
        (handlerCall tag.name attrs)
    | _ => exact ⟨_, rfl⟩
  obtain ⟨own, hown⟩ := hwrite
  exact ⟨own, TagCompiler.ownCode_eq_ok_iff.mpr ⟨h.function, attrs, hattrs, hown⟩⟩

/-- On an engine made from settings, being acceptable is the same as having code of one's own. -/
theorem acceptable_iff_ownCode {engine : Engine} (hc : engine.Configured) {tag : Tag} :
    engine.Acceptable tag ↔ ∃ own, engine.ownCode tag = .ok own := by
  refine ⟨Engine.Acceptable.ownCode, fun ⟨own, hown⟩ => ?_⟩
  obtain ⟨hcall, attrs, hattrs, hwrite⟩ := TagCompiler.ownCode_eq_ok_iff.mp hown
  -- The converse needs the settings: some other handler may take its arguments with one expression
  -- and refuse them with the next.
  have hsteps : (engine.compilerOf tag).takesModifiers →
      ∀ step ∈ tag.modifiers, engine.Resolves step ∧ engine.TakesArguments step := by
    rintro (hk | hk)
    · simp only [hk, TagCompiler.write] at hwrite
      obtain ⟨code, hcode, -⟩ := map_eq_ok.mp hwrite
      exact Engine.resolves_of_applyModifiers_ok hc hcode
    · simp only [hk, TagCompiler.write] at hwrite
      exact Engine.resolves_of_applyModifiers_ok hc hwrite
  exact ⟨hcall, ⟨attrs, hattrs⟩, fun hk step hstep => (hsteps hk step hstep).1,
    fun hk step hstep => (hsteps hk step hstep).2⟩

/-- What is found to be a success by computing is one. -/
theorem exists_of_isOk {ε α : Type} {x : Except ε α} (h : x.isOk = true) : ∃ a, x = .ok a := by
  cases x with
  | ok a => exact ⟨a, rfl⟩
  | error e => cases h

/-- Acceptable tags can be found by computing their code. -/
theorem acceptable_of_all_isOk {engine : Engine} (hc : engine.Configured) {tags : List Tag}
    (h : tags.all (fun tag => (engine.ownCode tag).isOk) = true) :
    ∀ tag ∈ tags, engine.Acceptable tag := by
  intro tag htag
  have hok : (engine.ownCode tag).isOk = true := List.all_eq_true.mp h tag htag
  exact (acceptable_iff_ownCode hc).mpr (exists_of_isOk hok)

/-! ## Compile units -/

/-- The fragment of a tag with its code and the context after it; without code there is none. -/
def emitted (tag : Tag) (code : String) (ctx : Context) : List Fragment :=
  if code.isEmpty then [] else [⟨code, ctx.tagNocache || ctx.nocache, tag.line⟩]

/-- The context in which the next tag is compiled. -/
def Context.noteCode (ctx : Context) (code : String) : Context :=
  { ctx with hasCode := ctx.hasCode || !code.isEmpty }

/-- The code of a tag is in its fragment, also where it has none. -/
theorem join_emitted (tag : Tag) (code : String) (ctx : Context) :
    String.join ((emitted tag code ctx).map (·.code)) = code := by
  simp only [emitted]
  split
  · rename_i h
    simp [String.isEmpty_iff.mp h]
  · simp

/-- The fragments of tags that are compiled one after the other, and the context after them. -/
def compileTags (engine : Engine) (tags : List Tag) (ctx : Context) :
    Except CompileError (List Fragment × Context) :=
  (Compiled.extend engine tags {} ctx).map fun (compiled, last) => (compiled.fragments, last)

namespace Compiled

/-- What a run has gathered: the fragments in order, and whether one of them is not cached. -/
theorem foldl_push (fragments : List Fragment) (c : Compiled) :
    fragments.foldl push c =
      { c with
        fragments := c.fragments ++ fragments
        hasNocacheCode := c.hasNocacheCode || fragments.any (·.nocache) } := by
  induction fragments generalizing c with
  | nil => simp
  | cons fragment fragments ih => simp [ih, push, Bool.or_assoc]

/-- One tag adds its fragment. -/
theorem extend_cons_of_ok {engine : Engine} {tag : Tag} {tags : List Tag} {ctx ctx' : Context}
    {code : String} (h : dispatch engine tag { ctx with tagNocache := false } = (.ok code, ctx'))
    (c : Compiled) :
    extend engine (tag :: tags) c ctx =
      extend engine tags ((emitted tag code ctx').foldl push c) (ctx'.noteCode code) := by
  simp only [extend, h, Context.noteCode, emitted]
  cases hcode : code.isEmpty with
  | true => simp
  | false => simp

/-- A tag that fails ends the run, and what was gathered is lost. -/
theorem extend_cons_of_error {engine : Engine} {tag : Tag} {tags : List Tag} {ctx : Context}
    {e : CompileError} (h : (dispatch engine tag { ctx with tagNocache := false }).1 = .error e)
    (c : Compiled) : extend engine (tag :: tags) c ctx = .error e := by
  cases hd : dispatch engine tag { ctx with tagNocache := false } with
  | mk result ctx' =>
    rw [hd] at h
    simp only at h
    simp only [extend, hd, h]

/-- What tags add does not depend on what there is. -/
theorem extend_eq (engine : Engine) (tags : List Tag) (c : Compiled) (ctx : Context) :
    extend engine tags c ctx =
      (compileTags engine tags ctx).map fun (fragments, last) =>
        (fragments.foldl push c, last) := by
  -- The start is generalized, since every tag moves it.
  induction tags generalizing c ctx with
  | nil => rfl
  | cons tag tags ih =>
    match hd : dispatch engine tag { ctx with tagNocache := false } with
    | (.error e, ctx') =>
      have hfail : (dispatch engine tag { ctx with tagNocache := false }).1 = .error e := by rw [hd]
      rw [compileTags, extend_cons_of_error hfail, extend_cons_of_error hfail]
      rfl
    | (.ok code, ctx') =>
      rw [compileTags, extend_cons_of_ok hd, extend_cons_of_ok hd, ih, ih]
      cases compileTags engine tags (ctx'.noteCode code) with
      | error e => rfl
      | ok run => simp [Except.map, foldl_push, Bool.or_assoc]

end Compiled

/-- The first tag of a unit is compiled, then the others. -/
theorem compileTags_cons_of_ok {engine : Engine} {tag : Tag} {tags : List Tag} {ctx ctx' : Context}
    {code : String} (h : dispatch engine tag { ctx with tagNocache := false } = (.ok code, ctx')) :
    compileTags engine (tag :: tags) ctx =
      (compileTags engine tags (ctx'.noteCode code)).map fun (fragments, last) =>
        (emitted tag code ctx' ++ fragments, last) := by
  rw [compileTags, Compiled.extend_cons_of_ok h, Compiled.extend_eq]
  cases compileTags engine tags (ctx'.noteCode code) with
  | error e => rfl
  | ok run => simp [Except.map, Compiled.foldl_push]

/-- A unit fails at a first tag that fails. -/
theorem compileTags_cons_of_error {engine : Engine} {tag : Tag} {tags : List Tag} {ctx : Context}
    {e : CompileError} (h : (dispatch engine tag { ctx with tagNocache := false }).1 = .error e) :
    compileTags engine (tag :: tags) ctx = .error e := by
  rw [compileTags, Compiled.extend_cons_of_error h]
  rfl

/-- A unit is compiled exactly if its first tag is and then the others. -/
theorem compileTags_cons_eq_ok_iff {engine : Engine} {tag : Tag} {tags : List Tag}
    {ctx last : Context} {fragments : List Fragment} :
    compileTags engine (tag :: tags) ctx = .ok (fragments, last) ↔
      ∃ code ctx' rest, dispatch engine tag { ctx with tagNocache := false } = (.ok code, ctx') ∧
        compileTags engine tags (ctx'.noteCode code) = .ok (rest, last) ∧
        fragments = emitted tag code ctx' ++ rest := by
  constructor
  · intro h
    match hd : dispatch engine tag { ctx with tagNocache := false } with
    | (.error e, ctx') =>
      rw [compileTags_cons_of_error (e := e) (by rw [hd])] at h
      cases h
    | (.ok code, ctx') =>
      rw [compileTags_cons_of_ok hd] at h
      obtain ⟨⟨rest, last'⟩, hrest, heq⟩ := map_eq_ok.mp h
      simp only [Prod.mk.injEq] at heq
      obtain ⟨rfl, rfl⟩ := heq
      exact ⟨code, ctx', rest, rfl, hrest, rfl⟩
  · rintro ⟨code, ctx', rest, hd, hrest, rfl⟩
    rw [compileTags_cons_of_ok hd, hrest]
    rfl

/-- Tags are compiled one list after the other. -/
theorem compileTags_append_eq (engine : Engine) (tags tags' : List Tag) (ctx : Context) :
    compileTags engine (tags ++ tags') ctx =
      (compileTags engine tags ctx).bind fun (fragments, mid) =>
        (compileTags engine tags' mid).map fun (fragments', last) =>
          (fragments ++ fragments', last) := by
  -- Every tag moves the context in which the others are compiled.
  induction tags generalizing ctx with
  | nil =>
    show compileTags engine tags' ctx = (compileTags engine tags' ctx).map id
    cases compileTags engine tags' ctx <;> rfl
  | cons tag tags ih =>
    rw [List.cons_append]
    match hd : dispatch engine tag { ctx with tagNocache := false } with
    | (.error e, ctx') =>
      rw [compileTags_cons_of_error (by rw [hd]), compileTags_cons_of_error (by rw [hd])]
      rfl
    | (.ok code, ctx') =>
      rw [compileTags_cons_of_ok hd, compileTags_cons_of_ok hd, ih]
      match compileTags engine tags (ctx'.noteCode code) with
      | .error e => rfl
      | .ok (fragments, mid) =>
        simp only [Except.bind, Except.map]
        cases compileTags engine tags' mid <;> simp

/-- No block is open at the end of a template that is finished. -/
theorem Context.scopes_of_finish {ctx : Context} (h : ctx.finish = .ok ()) : ctx.scopes = {} := by
  match hscopes : ctx.scopes with
  | ⟨[]⟩ => rfl
  | ⟨frame :: frames⟩ =>
    simp only [Context.finish, hscopes, ScopeStack.ensureEmpty, mapError_error, reduceCtorEq] at h

/-- A template is what its tags are compiled to, if no block is left open. The flag of the template
    is gathered tag by tag, and in the end it says whether a fragment is not cached. -/
theorem compile_eq (engine : Engine) (template : Option String) (tags : List Tag) :
    compile engine template tags =
      (compileTags engine tags { template }).bind fun (fragments, last) =>
        last.finish.map fun _ => ⟨fragments, fragments.any (·.nocache), last.hasCode⟩ := by
  rw [compile, Compiled.extend_eq]
  -- The flag is accumulated by the run, and the accumulation is a fold over its fragments.
  cases compileTags engine tags { template } with
  | error e => rfl
  | ok run =>
    simp only [Except.map, Except.bind, Compiled.foldl_push]
    cases run.2.finish <;> simp

/-- A template is compiled exactly if its tags are and no block is left open. -/
theorem compile_eq_ok_iff {engine : Engine} {template : Option String} {tags : List Tag}
    {c : Compiled} :
    compile engine template tags = .ok c ↔
      ∃ fragments last, compileTags engine tags { template } = .ok (fragments, last) ∧
        last.finish = .ok () ∧ c = ⟨fragments, fragments.any (·.nocache), last.hasCode⟩ := by
  rw [compile_eq, bind_eq_ok]
  constructor
  · rintro ⟨⟨fragments, last⟩, hrun, h⟩
    obtain ⟨_, hfinish, rfl⟩ := map_eq_ok.mp h
    exact ⟨fragments, last, hrun, hfinish, rfl⟩
  · rintro ⟨fragments, last, hrun, hfinish, rfl⟩
    exact ⟨(fragments, last), hrun, map_eq_ok.mpr ⟨(), hfinish, rfl⟩⟩

/-- A template fails as its tags do. -/
theorem compile_of_compileTags_error {engine : Engine} {template : Option String} {tags : List Tag}
    {e : CompileError} (h : compileTags engine tags { template } = .error e) :
    compile engine template tags = .error e := by
  rw [compile_eq, h]
  rfl

/-- A template fails at its end if a block is left open there. -/
theorem compile_of_finish_error {engine : Engine} {template : Option String} {tags : List Tag}
    {fragments : List Fragment} {last : Context} {e : CompileError}
    (hrun : compileTags engine tags { template } = .ok (fragments, last))
    (hfinish : last.finish = .error e) : compile engine template tags = .error e := by
  simp only [compile_eq, hrun, Except.bind, hfinish, Except.map]

end TagPress
