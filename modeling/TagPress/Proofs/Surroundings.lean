import TagPress.Proofs.Cacheability
import TagPress.Proofs.Rendering

/-!
# Units in their surroundings

A unit that compiles on its own also compiles inside other open blocks. The run on its own and the
run on top of other frames are compared tag by tag: `Context.Inside` relates their contexts, and one
lemma says that every kind of tag keeps the relation. The frames below could only be reached by a
closing conditional, which takes frames for as long as they are conditionals; so the innermost block
of the surroundings must not be one.

## Key results

- `TagCompiler.move_onto`: a tag does the same on top of other frames
- `Context.Inside.emissions`: what the tags of a unit emit inside its surroundings
- `compile_append`, `compile_nocache_block`: units one after the other, and in a block
- `compile_inside_any_scope`: an accepted unit compiles the same in any surrounding scope
-/

namespace TagPress

/-! ## What each tag emits -/

/-- Compiles tags in the way of `compileTags`, but keeps one fragment for every tag, also for those
    whose code is empty. -/
def emissions (engine : Engine) :
    List Tag → Context → Except CompileError (List Fragment × Context)
  | [], ctx => .ok ([], ctx)
  | tag :: tags, ctx =>
    match dispatch engine tag { ctx with tagNocache := false } with
    | (.error e, _) => .error e
    | (.ok code, ctx) =>
      (emissions engine tags (ctx.noteCode code)).map fun (rest, last) =>
        (⟨code, ctx.tagNocache || ctx.nocache, tag.line⟩ :: rest, last)

/-- The tags of a unit emit their pieces one after the other. -/
theorem emissions_cons_eq_ok_iff {engine : Engine} {tag : Tag} {tags : List Tag}
    {ctx last : Context} {all : List Fragment} :
    emissions engine (tag :: tags) ctx = .ok (all, last) ↔
      ∃ code ctx' rest, dispatch engine tag { ctx with tagNocache := false } = (.ok code, ctx') ∧
        emissions engine tags (ctx'.noteCode code) = .ok (rest, last) ∧
        all = ⟨code, ctx'.tagNocache || ctx'.nocache, tag.line⟩ :: rest := by
  simp only [emissions]
  -- A first tag that fails ends the run, so it has succeeded.
  match hd : dispatch engine tag { ctx with tagNocache := false } with
  | (.error e, ctx') => simp
  | (.ok code, ctx') =>
    simp only [map_eq_ok]
    constructor
    · rintro ⟨⟨rest, last'⟩, hrest, heq⟩
      cases heq
      exact ⟨code, ctx', rest, rfl, hrest, rfl⟩
    · rintro ⟨code', ctx'', rest, heq, hrest, rfl⟩
      cases heq
      exact ⟨(rest, last), hrest, rfl⟩

/-- A first tag that fails ends the run. -/
theorem emissions_cons_of_error {engine : Engine} {tag : Tag} {tags : List Tag} {ctx : Context}
    {e : CompileError} (h : (dispatch engine tag { ctx with tagNocache := false }).1 = .error e) :
    emissions engine (tag :: tags) ctx = .error e := by
  match hd : dispatch engine tag { ctx with tagNocache := false } with
  | (result, ctx') =>
    have hresult : result = .error e := by rwa [hd] at h
    simp only [emissions, hd, hresult]

/-- Every tag emits one piece, on its line. -/
theorem map_line_emissions {engine : Engine} {tags : List Tag} {ctx last : Context}
    {all : List Fragment} (h : emissions engine tags ctx = .ok (all, last)) :
    all.map (·.line) = tags.map (·.line) := by
  induction tags generalizing ctx all with
  | nil =>
    cases h
    rfl
  | cons tag tags ih =>
    obtain ⟨code, ctx', rest, -, hrest, rfl⟩ := emissions_cons_eq_ok_iff.mp h
    rw [List.map_cons, List.map_cons, ih hrest]

/-- The fragments of a unit are what its tags emit, without the empty pieces. -/
theorem compileTags_eq_emissions (engine : Engine) (tags : List Tag) (ctx : Context) :
    compileTags engine tags ctx =
      (emissions engine tags ctx).map fun (all, last) =>
        (all.filter fun f => !f.code.isEmpty, last) := by
  -- Both runs dispatch the same tags in the same contexts and differ in the empty pieces only.
  induction tags generalizing ctx with
  | nil => rfl
  | cons tag tags ih =>
    match hd : dispatch engine tag { ctx with tagNocache := false } with
    | (.error e, ctx') =>
      rw [compileTags_cons_of_error (by rw [hd]), emissions_cons_of_error (by rw [hd])]
      rfl
    | (.ok code, ctx') =>
      rw [compileTags_cons_of_ok hd, ih]
      simp only [emissions, hd]
      cases emissions engine tags (ctx'.noteCode code) with
      | error e => rfl
      | ok p =>
        simp only [Except.map, emitted, List.filter_cons]
        cases code.isEmpty <;> rfl

/-! ## Frames on top of other frames -/

/-- A flag that is added to two flags is added to them together. -/
private theorem or_or_within (a b v : Bool) : ((a || v) || (b || v)) = ((a || b) || v) := by
  cases v <;> simp

/-- The frame of a unit that is compiled where caching is off if `v` says so. -/
def Frame.within (v : Bool) (frame : Frame) : Frame :=
  { frame with nocache := frame.nocache || v }

namespace ScopeStack

/-- The frames of a unit on top of the frames that were open before it. -/
def onto (s base : ScopeStack) (v : Bool) : ScopeStack :=
  ⟨s.frames.map (Frame.within v) ++ base.frames⟩

/-- The innermost open block, if there is one, is no branch of a conditional. -/
def OutsideConditional (s : ScopeStack) : Prop :=
  ∀ frame, s.top? = some frame → frame.family ∉ conditionalFamilies

variable {s base : ScopeStack} {v : Bool}

/-- Outside of a conditional, a closing tag has nothing to take. -/
theorem OutsideConditional.takeWhile (h : base.OutsideConditional) :
    base.frames.takeWhile (fun frame => conditionalFamilies.contains frame.family) = [] := by
  cases hframes : base.frames with
  | nil => rfl
  | cons frame rest =>
    have htop : frame.family ∉ conditionalFamilies := h frame (by rw [top?, hframes]; rfl)
    rw [List.takeWhile_cons_of_neg]
    simpa using htop

/-- Outside of a conditional, a closing tag would leave everything. -/
theorem OutsideConditional.dropWhile (h : base.OutsideConditional) :
    base.frames.dropWhile (fun frame => conditionalFamilies.contains frame.family) =
      base.frames := by
  have happend := List.takeWhile_append_dropWhile (l := base.frames)
    (p := fun frame => conditionalFamilies.contains frame.family)
  rwa [h.takeWhile, List.nil_append] at happend

/-- What a unit opens, it opens on top. -/
theorem onto_push (s base : ScopeStack) (v : Bool) (frame : Frame) :
    (s.push frame).onto base v = (s.onto base v).push (frame.within v) := rfl

/-- The innermost block of a unit that has one is innermost on top of other frames too. -/
theorem checkTop_onto {tag : String} {expected : List String}
    (h : s.checkTop tag expected = .ok ()) : (s.onto base v).checkTop tag expected = .ok () := by
  rw [checkTop_eq_ok_iff] at h ⊢
  obtain ⟨frame, rest, hframes, hfamily⟩ := h
  refine ⟨frame.within v, rest.map (Frame.within v) ++ base.frames, ?_, hfamily⟩
  simp only [onto, hframes, List.map_cons, List.cons_append]

/-- A unit pops its own frames. -/
theorem pop_onto {tag : String} {expected : List String} {frame : Frame} {rest : ScopeStack}
    (h : s.pop tag expected = .ok (frame, rest)) :
    (s.onto base v).pop tag expected = .ok (frame.within v, rest.onto base v) := by
  rw [pop_eq_ok_iff] at h ⊢
  obtain ⟨hframes, hfamily⟩ := h
  refine ⟨?_, hfamily⟩
  simp only [onto, hframes, List.map_cons, List.cons_append]

/-- The run that a closing tag takes ends before the frames below. -/
theorem takeWhile_onto (hbase : base.OutsideConditional) (frames : List Frame) :
    (frames.map (Frame.within v) ++ base.frames).takeWhile
        (fun frame => conditionalFamilies.contains frame.family) =
      (frames.takeWhile fun frame => conditionalFamilies.contains frame.family).map
        (Frame.within v) := by
  induction frames with
  | nil => exact hbase.takeWhile
  | cons frame frames ih =>
    rw [List.map_cons, List.cons_append, List.takeWhile_cons, List.takeWhile_cons, ih]
    -- The test reads the family, which the flag from outside does not touch.
    show (if conditionalFamilies.contains frame.family = true then _ else _) = _
    split <;> rfl

/-- What a closing tag leaves includes all frames below. -/
theorem dropWhile_onto (hbase : base.OutsideConditional) (frames : List Frame) :
    (frames.map (Frame.within v) ++ base.frames).dropWhile
        (fun frame => conditionalFamilies.contains frame.family) =
      (frames.dropWhile fun frame => conditionalFamilies.contains frame.family).map
        (Frame.within v) ++ base.frames := by
  induction frames with
  | nil => exact hbase.dropWhile
  | cons frame frames ih =>
    rw [List.map_cons, List.cons_append, List.dropWhile_cons, List.dropWhile_cons, ih]
    show (if conditionalFamilies.contains frame.family = true then _ else _) = _
    split <;> rfl

/-- Closing stops at the frames below, so the same frames are closed. -/
theorem close_onto (hbase : base.OutsideConditional) {tag : String} {closed : Closed}
    (h : s.close tag conditionalFamilies = .ok closed) :
    (s.onto base v).close tag conditionalFamilies =
      .ok ⟨closed.remaining.onto base v, closed.count, closed.nocache || v⟩ := by
  rw [close_eq_ok_iff] at h ⊢
  obtain ⟨htop, rfl⟩ := h
  refine ⟨checkTop_onto htop, ?_⟩
  simp only [onto, takeWhile_onto hbase, dropWhile_onto hbase, List.length_map]
  -- The run has at least one frame, so it takes the flag from outside with it.
  obtain ⟨frame, rest, hframes, hfamily⟩ := checkTop_eq_ok_iff.mp htop
  rw [hframes, List.takeWhile_cons, if_pos hfamily]
  cases v <;> simp [Frame.within, Function.comp_def]

end ScopeStack

/-- A tag does the same on top of other frames as on its own stack. -/
theorem TagCompiler.move_onto {compiler : TagCompiler} {line : Option Nat} {nocache v : Bool}
    {s base : ScopeStack} {m : Move} (hbase : base.OutsideConditional)
    (h : compiler.move line nocache s = .ok m) :
    compiler.move line (nocache || v) (s.onto base v) =
      .ok ⟨m.scopes.onto base v, m.nocache || v, m.closed⟩ := by
  -- Only the closing tag of a conditional could look further down than the innermost frame, and
  -- `hbase` stops it at the frames below.
  cases compiler with
  | ifOpen =>
    cases h
    rfl
  | nocacheOpen =>
    cases h
    rfl
  | print =>
    cases h
    rfl
  | functionCall =>
    cases h
    rfl
  | elseIf =>
    obtain ⟨_, htop, rfl⟩ := map_eq_ok.mp h
    simp only [move, ScopeStack.checkTop_onto htop]
    rfl
  | elseBranch =>
    obtain ⟨scopes, hscopes, rfl⟩ := map_eq_ok.mp h
    obtain ⟨old, rest, hpop, rfl⟩ := ScopeStack.replaceTop_eq_ok_iff.mp hscopes
    simp only [move, ScopeStack.replaceTop, ScopeStack.pop_onto hpop, Except.map]
    rw [ScopeStack.onto_push]
    simp only [Frame.within]
    rw [or_or_within]
  | ifClose =>
    obtain ⟨closed, hclosed, rfl⟩ := map_eq_ok.mp h
    simp only [move, ScopeStack.close_onto hbase hclosed, Except.map]
    rw [or_or_within]
  | nocacheClose =>
    obtain ⟨⟨frame, scopes⟩, hpop, rfl⟩ := map_eq_ok.mp h
    simp only [move, ScopeStack.pop_onto hpop]
    rfl

/-! ## Runs on top of other frames -/

/-- The fragment of a unit that is compiled where caching is off if `v` says so. -/
def Fragment.within (v : Bool) (f : Fragment) : Fragment :=
  { f with nocache := f.nocache || v }

/-- Two contexts at the same place of two runs: one of the unit alone, one of the unit on top of the
    frames of `base`, where caching was off before if `v` says so. -/
structure Context.Inside (inner outer : Context) (base : ScopeStack) (v : Bool) : Prop where
  scopes : outer.scopes = inner.scopes.onto base v
  nocache : outer.nocache = (inner.nocache || v)

section Run

variable {engine : Engine} {base : ScopeStack} {v : Bool} {inner outer : Context}

/-- A tag that is compiled alone is compiled inside: to the same code, and with the flag from
    outside added. -/
theorem Context.Inside.dispatch (hp : engine.Plain) (hbase : base.OutsideConditional)
    (h : inner.Inside outer base v) {tag : Tag} {code : String} {inner' : Context}
    (hd : dispatch engine tag { inner with tagNocache := false } = (.ok code, inner')) :
    ∃ outer', TagPress.dispatch engine tag { outer with tagNocache := false } =
        (.ok code, outer') ∧ inner'.Inside outer' base v ∧
      (outer'.tagNocache || outer'.nocache) = (inner'.tagNocache || inner'.nocache || v) := by
  obtain ⟨own, m, hown, hmove, rfl, rfl⟩ := (dispatch_eq_ok_iff hp).mp hd
  -- The code of the tag does not depend on the context, so only the move is compared.
  have hmove' : engine.move tag { outer with tagNocache := false } =
      .ok ⟨m.scopes.onto base v, m.nocache || v, m.closed⟩ := by
    simp only [Engine.move, h.scopes, h.nocache]
    exact TagCompiler.move_onto hbase hmove
  have hd' := dispatch_of_ok hp hown hmove'
  refine ⟨_, hd', ⟨rfl, rfl⟩, ?_⟩
  simp only [Engine.after, TagCompiler.after]
  cases v <;> simp

/-- What the tags of a unit emit inside is what they emit alone, with the flag from outside. -/
theorem Context.Inside.emissions (hp : engine.Plain) (hbase : base.OutsideConditional)
    (h : inner.Inside outer base v) {tags : List Tag} {all : List Fragment} {last : Context}
    (hrun : emissions engine tags inner = .ok (all, last)) :
    ∃ last', TagPress.emissions engine tags outer = .ok (all.map (Fragment.within v), last') ∧
      last.Inside last' base v := by
  -- The two runs stay in step: `Inside` is kept by every tag.
  induction tags generalizing inner outer all with
  | nil =>
    cases hrun
    exact ⟨outer, rfl, h⟩
  | cons tag tags ih =>
    obtain ⟨code, inner', rest, hd, hrest, rfl⟩ := emissions_cons_eq_ok_iff.mp hrun
    obtain ⟨outer', hd', hinside, hflag⟩ := h.dispatch hp hbase hd
    have hnext : (inner'.noteCode code).Inside (outer'.noteCode code) base v :=
      ⟨hinside.scopes, hinside.nocache⟩
    obtain ⟨last', hrest', hlast⟩ := ih hnext hrest
    refine ⟨last', ?_, hlast⟩
    rw [emissions_cons_eq_ok_iff]
    refine ⟨code, outer', _, hd', hrest', ?_⟩
    rw [List.map_cons, Fragment.within, hflag]

end Run

/-- The invariant on the flags holds at the end of a run. -/
theorem Context.Follows.emissions {engine : Engine} (hc : engine.Configured)
    {before tags : List Tag} {ctx last : Context} {all : List Fragment} (h : ctx.Follows before)
    (hrun : emissions engine tags ctx = .ok (all, last)) : last.Follows (before ++ tags) := by
  induction tags generalizing before ctx all with
  | nil =>
    cases hrun
    rwa [List.append_nil]
  | cons tag tags ih =>
    obtain ⟨code, ctx', rest, hd, hrest, -⟩ := emissions_cons_eq_ok_iff.mp hrun
    have hlast := ih (h.dispatch hc hd) hrest
    rwa [List.append_assoc, List.singleton_append] at hlast

/-! ## Accepted units -/

/-- A run that leaves no block open is a compiled unit. -/
theorem compile_of_compileTags {engine : Engine} {template : Option String} {tags : List Tag}
    {fragments : List Fragment} {last : Context}
    (hrun : compileTags engine tags { template } = .ok (fragments, last))
    (hlast : last.scopes = {}) :
    ∃ c, compile engine template tags = .ok c ∧ c.fragments = fragments := by
  have hfinish : last.finish = .ok () := by
    simp only [Context.finish, ScopeStack.ensureEmpty, hlast, mapError_ok]
  exact ⟨_, compile_eq_ok_iff.mpr ⟨fragments, last, hrun, hfinish, rfl⟩, rfl⟩

section Accepted

variable {engine : Engine} {template : Option String} {tags : List Tag} {c : Compiled}

/-- The run of an accepted unit ends without open blocks and with caching on. -/
theorem emissions_of_compile (hc : engine.Configured)
    (h : compile engine template tags = .ok c) :
    ∃ all last, emissions engine tags { template } = .ok (all, last) ∧
      c.fragments = all.filter (fun f => !f.code.isEmpty) ∧ last.scopes = {} ∧
      last.nocache = false := by
  obtain ⟨fragments, last, hrun, hfinish, rfl⟩ := compile_eq_ok_iff.mp h
  rw [compileTags_eq_emissions] at hrun
  obtain ⟨⟨all, last'⟩, hall, heq⟩ := map_eq_ok.mp hrun
  cases heq
  have hscopes := Context.scopes_of_finish hfinish
  -- The flag at the end follows from the frames, of which there are none.
  have hstart : ({ template } : Context).Follows [] := ⟨rfl, rfl⟩
  have hremembers := (hstart.emissions hc hall).remembers
  rw [hscopes] at hremembers
  exact ⟨all, last, hall, rfl, hscopes, hremembers⟩

/-- An accepted unit is compiled inside every context whose innermost block is no conditional. -/
theorem emissions_inside (hc : engine.Configured)
    (h : compile engine template tags = .ok c) :
    ∃ all last, emissions engine tags { template } = .ok (all, last) ∧
      all.map (·.line) = tags.map (·.line) ∧
      c.fragments = all.filter (fun f => !f.code.isEmpty) ∧
      ∀ ctx : Context, ctx.scopes.OutsideConditional →
        ∃ last', emissions engine tags ctx = .ok (all.map (Fragment.within ctx.nocache), last') ∧
          last'.scopes = ctx.scopes ∧ last'.nocache = ctx.nocache := by
  obtain ⟨all, last, hall, hfragments, hscopes, hnocache⟩ := emissions_of_compile hc h
  refine ⟨all, last, hall, map_line_emissions hall, hfragments, fun ctx hctx => ?_⟩
  -- A context is its own surroundings: the unit starts with no frames on top of it.
  have hstart : ({ template } : Context).Inside ctx ctx.scopes ctx.nocache :=
    ⟨rfl, (Bool.false_or _).symm⟩
  obtain ⟨last', hrun, hlast⟩ := hstart.emissions hc.plain hctx hall
  refine ⟨last', hrun, ?_, ?_⟩
  · rw [hlast.scopes, hscopes]
    rfl
  · rw [hlast.nocache, hnocache, Bool.false_or]

/-- The fragments of an accepted unit inside a context. -/
theorem compileTags_inside (hc : engine.Configured)
    (h : compile engine template tags = .ok c) {ctx : Context}
    (hctx : ctx.scopes.OutsideConditional) :
    ∃ last, compileTags engine tags ctx =
        .ok (c.fragments.map (Fragment.within ctx.nocache), last) ∧
      last.scopes = ctx.scopes ∧ last.nocache = ctx.nocache := by
  obtain ⟨all, -, -, -, hfragments, hinside⟩ := emissions_inside hc h
  obtain ⟨last, hrun, hscopes, hnocache⟩ := hinside ctx hctx
  refine ⟨last, ?_, hscopes, hnocache⟩
  rw [compileTags_eq_emissions, hrun, hfragments]
  simp only [Except.map, List.filter_map]
  rfl

end Accepted

/-- Where caching is on, fragments keep their flags. -/
theorem Fragment.map_within_false (fragments : List Fragment) :
    fragments.map (Fragment.within false) = fragments := by
  have hid : Fragment.within false = id := funext fun f => by simp [Fragment.within]
  rw [hid, List.map_id]

/-- One accepted unit after the other. -/
theorem compile_append {engine : Engine} (hc : engine.Configured)
    {template : Option String} {tags tags' : List Tag} {c c' : Compiled}
    (h : compile engine template tags = .ok c) (h' : compile engine template tags' = .ok c') :
    ∃ e, compile engine template (tags ++ tags') = .ok e ∧
      e.fragments = c.fragments ++ c'.fragments := by
  have hstart : ({ template } : Context).scopes.OutsideConditional :=
    fun frame htop => by cases htop
  obtain ⟨mid, hrun, hscopes, hnocache⟩ := compileTags_inside hc h hstart
  -- The first unit leaves the context as the second one would find it at the start.
  have hmid : mid.scopes.OutsideConditional := by rw [hscopes]; exact hstart
  obtain ⟨last, hrun', hscopes', -⟩ := compileTags_inside hc h' hmid
  rw [hnocache] at hrun'
  simp only [Fragment.map_within_false] at hrun hrun'
  exact compile_of_compileTags (compileTags_append hrun hrun') (hscopes'.trans hscopes)

/-- A tag without code leaves no fragment, only its move. -/
theorem compileTags_singleton_of_empty {engine : Engine} (hp : engine.Plain) {tag : Tag}
    {ctx : Context} {m : Move} (hown : engine.ownCode tag = .ok "")
    (hmove : engine.move tag ctx = .ok m) (hclosed : m.closed = 0) :
    ∃ last, compileTags engine [tag] ctx = .ok ([], last) ∧ last.scopes = m.scopes ∧
      last.nocache = m.nocache := by
  have hmove' : engine.move tag { ctx with tagNocache := false } = .ok m := hmove
  have hd := dispatch_of_ok hp hown hmove'
  have hcode : "" ++ closingBraces m.closed = "" := by rw [hclosed]; rfl
  rw [hcode] at hd
  refine ⟨(engine.after tag { ctx with tagNocache := false } m).noteCode "", ?_, rfl, rfl⟩
  rw [compileTags_cons_of_ok hd]
  rfl

/-- An accepted unit in a block without caching. -/
theorem compile_nocache_block {engine : Engine} (hc : engine.Configured)
    {template : Option String} {tags : List Tag} {c : Compiled}
    (h : compile engine template tags = .ok c) (opening : BlockTag "nocache")
    (closing : BlockTag "/nocache") :
    ∃ e, compile engine template (opening.toTag :: tags ++ [closing.toTag]) = .ok e ∧
      e.fragments = c.fragments.map fun f => { f with nocache := true } := by
  -- The opening tag pushes the only frame and turns caching off.
  have hopen : engine.move opening.toTag { template } =
      .ok ⟨⟨[⟨"nocache", false, opening.line⟩]⟩, true, 0⟩ := by
    rw [Engine.move, engine.compilerOf_eq hc, opening.name_eq]
    rfl
  obtain ⟨opened, hopening, hopened, hoff⟩ :=
    compileTags_singleton_of_empty hc.plain (opening.ownCode hc (by decide) rfl) hopen rfl
  -- The unit runs on top of this frame, which is no conditional, and leaves it there.
  have houtside : opened.scopes.OutsideConditional := by
    rw [hopened]
    rintro frame ⟨⟩
    show "nocache" ∉ conditionalFamilies
    decide
  obtain ⟨inside, hinside, hscopes, -⟩ := compileTags_inside hc h houtside
  -- The closing tag takes it away.
  have hclose : engine.move closing.toTag inside = .ok ⟨{}, false, 0⟩ := by
    rw [Engine.move, engine.compilerOf_eq hc, closing.name_eq, hscopes, hopened]
    rfl
  obtain ⟨closed, hclosing, hclosed, -⟩ :=
    compileTags_singleton_of_empty hc.plain (closing.ownCode hc (by decide) rfl) hclose rfl
  have hrun := compileTags_append hopening (compileTags_append hinside hclosing)
  obtain ⟨e, hcompile, hfragments⟩ := compile_of_compileTags hrun hclosed
  refine ⟨e, hcompile, ?_⟩
  rw [hfragments, hoff, List.nil_append, List.append_nil]
  exact List.map_congr_left fun f _ => by rw [Fragment.within, Bool.or_true]

/-- A unit that is accepted on an engine made from settings is compiled in the same way wherever the
    innermost open block is no conditional, whatever the frames there remember. Each of its tags
    emits the same code, and the flag of each fragment is the flag that it has alone or the flag of
    the surroundings. The open blocks and the flag are afterwards what they were. So two accepted
    units can be put one after the other, and a block without caching around a unit marks all of its
    fragments. -/
theorem compile_inside_any_scope {settings : Settings} {workingDir : Option String}
    {engine : Engine} (hengine : settings.toEngine workingDir = .ok engine)
    {template : Option String} {a : List Tag} {c : Compiled}
    (ha : compile engine template a = .ok c) :
    (∃ all last, emissions engine a { template } = .ok (all, last) ∧
      all.map (·.line) = a.map (·.line) ∧ c.fragments = all.filter (fun f => !f.code.isEmpty) ∧
      ∀ ctx : Context, ctx.scopes.OutsideConditional →
        ∃ last', emissions engine a ctx = .ok (all.map (Fragment.within ctx.nocache), last') ∧
          last'.scopes = ctx.scopes ∧ last'.nocache = ctx.nocache) ∧
    (∀ b d, compile engine template b = .ok d →
      ∃ e, compile engine template (a ++ b) = .ok e ∧
        e.fragments = c.fragments ++ d.fragments) ∧
    (∀ (opening : BlockTag "nocache") (closing : BlockTag "/nocache"),
      ∃ e, compile engine template (opening.toTag :: a ++ [closing.toTag]) = .ok e ∧
        e.fragments = c.fragments.map fun f => { f with nocache := true }) := by
  have hc := Settings.toEngine_configured hengine
  exact ⟨emissions_inside hc ha, fun b d hb => compile_append hc ha hb,
    compile_nocache_block hc ha⟩

/-- A conditional with a block without caching in its first branch. -/
def guardedPrint : List Tag :=
  [{ name := "if", positional := ["$a"] }, { name := "nocache" },
    { name := "print", positional := ["$x"] }, { name := "/nocache" }, { name := "else" },
    { name := "/if" }]

/-- A block of another family, in a conditional, with caching off. -/
def sectionContext : Context :=
  { nocache := true, scopes := ⟨[⟨"section", false, some 2⟩, ⟨"if", true, some 1⟩]⟩ }

/-- Alone, only the print is marked; in the section everything is, and the closing tag leaves the
    conditional below the section open. -/
theorem guardedPrint_inside :
    clockSettings.toEngine none = .ok clockEngine ∧ sectionContext.scopes.OutsideConditional ∧
      ∃ c, compile clockEngine none guardedPrint = .ok c ∧
        c.fragments.map (·.nocache) = [false, true, false, false] ∧
        (∃ all last, emissions clockEngine guardedPrint sectionContext = .ok (all, last) ∧
          all.map (·.nocache) = List.replicate 6 true ∧
          last.scopes = sectionContext.scopes ∧ last.nocache = true) ∧
        (∃ e, compile clockEngine none (guardedPrint ++ guardedPrint) = .ok e ∧
          e.fragments = c.fragments ++ c.fragments) := by
  have hsection : sectionContext.scopes.OutsideConditional := by
    rintro frame ⟨⟩
    decide
  obtain ⟨c, hcompile, hflags⟩ : ∃ c, compile clockEngine none guardedPrint = .ok c ∧
      c.fragments.map (·.nocache) = [false, true, false, false] := ⟨_, rfl, by decide⟩
  obtain ⟨⟨all, last, hall, hlines, -, hinside⟩, happend, -⟩ :=
    compile_inside_any_scope clockSettings_toEngine hcompile
  obtain ⟨last', hrun, hscopes, hnocache⟩ := hinside sectionContext hsection
  refine ⟨clockSettings_toEngine, hsection, c, hcompile, hflags,
    ⟨_, last', hrun, ?_, hscopes, hnocache⟩, happend _ _ hcompile⟩
  -- There are six pieces, one for each tag, and each of them has the flag of the section.
  rw [List.eq_replicate_iff]
  constructor
  · have hlength := congrArg List.length hlines
    simpa [guardedPrint] using hlength
  · simp [Fragment.within, sectionContext]

end TagPress
