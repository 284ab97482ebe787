import TagPress.Proofs.Nesting

/-!
# Conditional chains as nested conditionals

Tags are compiled one by one, and the number of braces that a closing tag writes comes from the
blocks that are open there. This module reads a template as a tree, renders the tree in the usual
recursive way, with every further branch as a conditional inside the `else` of the one before, and
shows that compiling the tags of the tree gives the same text.

## Key results

- `Template.renders`: what every part of a tree emits, whatever blocks are open around it
- `compile_code_eq_render`: the code of a template is the rendering of its tree
-/

namespace TagPress

/-! ## Templates as trees -/

/-- A tag that leaves the open blocks alone. -/
structure LeafTag extends Tag where
  isLeaf : IsLeaf name

/-- A block tag of the given name whose arguments are accepted. -/
structure BlockTag (word : String) extends Tag where
  name_eq : name = word
  /-- The arguments. -/
  attrs : Attributes
  accepted : ((TagCompiler.ofName word).schema.resolve toTag).outcome = .ok attrs

/-- The condition of a branch. -/
def BlockTag.condition {word : String} (tag : BlockTag word) : String :=
  valueOf tag.attrs "condition"

/-- The parts that a template is made of. -/
inductive Part where
  /-- A list of tags and blocks. -/
  | items (level : Level)
  /-- The branches of a conditional after the first one. -/
  | elsePart

/-- Templates in which no conditional stands directly in a branch of another. -/
inductive Template : Part → Type where
  | nil {level : Level} : Template (.items level)
  | leaf {level : Level} (tag : LeafTag) (rest : Template (.items level)) :
      Template (.items level)
  | nocache {level : Level} (opening : BlockTag "nocache") (inner : Template (.items .outer))
      (closing : BlockTag "/nocache") (rest : Template (.items level)) : Template (.items level)
  | conditional (opening : BlockTag "if") (body : Template (.items .branch))
      (others : Template .elsePart) (closing : BlockTag "/if") (rest : Template (.items .outer)) :
      Template (.items .outer)
  | noElse : Template .elsePart
  | elseIf (divider : BlockTag "elseif") (body : Template (.items .branch))
      (others : Template .elsePart) : Template .elsePart
  | elseBranch (divider : BlockTag "else") (body : Template (.items .branch)) : Template .elsePart

/-- The code of a tag that is compiled alone. -/
def Engine.codeAlone (engine : Engine) (tag : Tag) : String :=
  match compile engine none [tag] with
  | .ok c => c.code
  | .error _ => ""

namespace Template

/-- The tags of a template from the first to the last. -/
def tags {p : Part} : Template p → List Tag
  | nil => []
  | leaf tag rest => tag.toTag :: rest.tags
  | nocache opening inner closing rest =>
    opening.toTag :: inner.tags ++ closing.toTag :: rest.tags
  | conditional opening body others closing rest =>
    opening.toTag :: body.tags ++ others.tags ++ closing.toTag :: rest.tags
  | noElse => []
  | elseIf divider body others => divider.toTag :: body.tags ++ others.tags
  | elseBranch divider body => divider.toTag :: body.tags

/-- A conditional whose other branches are already rendered. -/
def renderIf (condition body others : String) : String :=
  "if (" ++ condition ++ ") \x7b" ++ body ++ others

/-- The code of a template as nested conditionals. -/
def render (engine : Engine) {p : Part} : Template p → String
  | nil => ""
  | leaf tag rest => engine.codeAlone tag.toTag ++ rest.render engine
  | nocache _ inner _ rest => inner.render engine ++ rest.render engine
  | conditional opening body others _ rest =>
    renderIf opening.condition (body.render engine) (others.render engine) ++ rest.render engine
  | noElse => "\x7d"
  | elseIf divider body others =>
    "\x7d else \x7b " ++
      renderIf divider.condition (body.render engine) (others.render engine) ++ "\x7d"
  | elseBranch _ body => "\x7d else \x7b" ++ body.render engine ++ "\x7d"

end Template

/-! ## Joining -/

/-- No braces, no text. -/
theorem closingBraces_zero : closingBraces 0 = "" := rfl

/-- One brace, then the others. -/
theorem closingBraces_succ (n : Nat) : closingBraces (n + 1) = "\x7d" ++ closingBraces n := by
  simp [closingBraces, List.replicate_succ]

/-- Runs that go through one after the other go through together. -/
theorem compileTags_append {engine : Engine} {tags tags' : List Tag} {ctx mid last : Context}
    {fragments fragments' : List Fragment}
    (h : compileTags engine tags ctx = .ok (fragments, mid))
    (h' : compileTags engine tags' mid = .ok (fragments', last)) :
    compileTags engine (tags ++ tags') ctx = .ok (fragments ++ fragments', last) := by
  rw [compileTags_append_eq, h]
  simp only [Except.bind, h', Except.map]

/-- What two lists of tags emit, one list after the other. -/
theorem Engine.Emits.append {engine : Engine} {tags tags' : List Tag} {bs bs₁ bs₂ : List Block}
    {code code' : String} (h : engine.Emits tags bs bs₁ code)
    (h' : engine.Emits tags' bs₁ bs₂ code') :
    engine.Emits (tags ++ tags') bs bs₂ (code ++ code') := by
  intro ctx hs
  obtain ⟨fragments, mid, hrun, hmid, htemplate, rfl⟩ := h ctx hs
  obtain ⟨fragments', last, hrun', hlast, htemplate', rfl⟩ := h' mid hmid
  refine ⟨fragments ++ fragments', last, compileTags_append hrun hrun', hlast,
    htemplate'.trans htemplate, ?_⟩
  rw [List.map_append, String.join_append]

/-! ## Single tags -/

/-- A leaf that compiles alone has the same code in every place. -/
theorem ownCode_of_compile_singleton {engine : Engine} (hc : engine.Configured) {tag : Tag}
    (hleaf : IsLeaf tag.name) (h : ∃ c, compile engine none [tag] = .ok c) :
    engine.ownCode tag = .ok (engine.codeAlone tag) := by
  obtain ⟨c, hcompile⟩ := h
  simp only [Engine.codeAlone, hcompile]
  obtain ⟨fragments, last, hrun, -, rfl⟩ := compile_eq_ok_iff.mp hcompile
  obtain ⟨code, ctx, rest, hd, hrest, rfl⟩ := compileTags_cons_eq_ok_iff.mp hrun
  cases hrest
  obtain ⟨own, m, hown, hmove, rfl, -⟩ := (dispatch_eq_ok_iff hc.plain).mp hd
  -- A leaf is a print or a call, and neither closes a block.
  have hclosed : m.closed = 0 := by
    rw [Engine.move, engine.compilerOf_eq hc] at hmove
    obtain hname | hname := hleaf.ofName <;> rw [hname] at hmove <;> cases hmove <;> rfl
  rw [hown, Compiled.code, List.append_nil, join_emitted, hclosed, closingBraces_zero,
    String.append_empty]

namespace BlockTag

variable {word : String}

/-- The code of a block tag comes from its arguments, which are known to be accepted. -/
theorem ownCode {engine : Engine} (hc : engine.Configured) (tag : BlockTag word)
    (hne : TagCompiler.ofName word ≠ .functionCall) {own : String}
    (hwrite : (TagCompiler.ofName word).write engine tag.toTag tag.attrs = .ok own) :
    engine.ownCode tag.toTag = .ok own := by
  rw [Engine.ownCode, engine.compilerOf_eq hc, tag.name_eq]
  exact TagCompiler.ownCode_eq_ok_iff.mpr ⟨fun hcall => absurd hcall hne, _, tag.accepted, hwrite⟩

/-- A block tag that closes nothing, in front of tags that compile. -/
theorem emits_cons {engine : Engine} (hc : engine.Configured) (tag : BlockTag word)
    (hne : TagCompiler.ofName word ≠ .functionCall) {own code : String} {tags : List Tag}
    {bs bs₁ bs₂ : List Block}
    (hwrite : (TagCompiler.ofName word).write engine tag.toTag tag.attrs = .ok own)
    (hcloses : (TagCompiler.ofName word).closes bs = 0)
    (hstep : stepBlocks word bs = some bs₁) (htags : engine.Emits tags bs₁ bs₂ code) :
    engine.Emits (tag.toTag :: tags) bs bs₂ (own ++ code) := by
  have hemits := htags.cons hc (tag.ownCode hc hne hwrite) (tag.name_eq.symm ▸ hstep)
  rw [tag.name_eq, hcloses, closingBraces_zero, String.append_empty] at hemits
  exact hemits

/-- The closing tag of a conditional writes a brace for each of its blocks. -/
theorem emits_ifClose {engine : Engine} (hc : engine.Configured) (closing : BlockTag "/if")
    {cs bs : List Block} (hcs : ConditionalRun cs) (hbs : Outside bs) :
    engine.Emits [closing.toTag] (cs ++ bs) bs (closingBraces cs.length) := by
  have hown : engine.ownCode closing.toTag = .ok "" := closing.ownCode hc (by decide) rfl
  have hstep : stepBlocks closing.name (cs ++ bs) = some bs := by
    rw [closing.name_eq, hcs.stepBlocks_ifClose, hbs]
  have hcloses : (TagCompiler.ofName "/if").closes (cs ++ bs) = cs.length := by
    show ((cs ++ bs).takeWhile Block.isConditional).length = cs.length
    rw [List.takeWhile_append_of_pos hcs.conditional, hbs.takeWhile, List.append_nil]
  have hemits := (engine.emits_nil bs).cons hc hown hstep
  rw [closing.name_eq, hcloses, String.empty_append, String.append_empty] at hemits
  exact hemits

end BlockTag

/-! ## Whole templates -/

namespace Template

/-- What a part of a template emits. A list of items leaves the open blocks as they are. The further
    branches of a conditional stand in a branch `b` with the blocks `cs` of earlier branches below
    it; the closing tag writes one more brace for each of these. -/
def Renders (engine : Engine) : {p : Part} → Template p → Prop
  | .items level, t => ∀ bs, (level = .outer → Outside bs) →
      engine.Emits t.tags bs bs (t.render engine)
  | .elsePart, t => ∀ (closing : BlockTag "/if") (b : Block) (cs bs : List Block),
      b.takesBranch = true → (∀ c ∈ cs, c.isConditional = true) → Outside bs →
      engine.Emits (t.tags ++ [closing.toTag]) (b :: cs ++ bs) bs
        (t.render engine ++ closingBraces cs.length)

/-- Every template whose leaves compile alone emits its rendering. -/
theorem renders {engine : Engine} (hc : engine.Configured) {p : Part} (t : Template p)
    (hleaves : ∀ tag ∈ t.tags, IsLeaf tag.name → ∃ c, compile engine none [tag] = .ok c) :
    t.Renders engine := by
  -- By induction on the tree. For the further branches the closing tag belongs to the statement,
  -- since it is there that the braces of all branches are written.
  induction t with
  | nil => exact fun bs _ => engine.emits_nil bs
  | leaf tag rest ih =>
    intro bs hbs
    simp only [tags, List.forall_mem_cons] at hleaves
    obtain ⟨hleaf, hleaves⟩ := hleaves
    have hown := ownCode_of_compile_singleton hc tag.isLeaf (hleaf tag.isLeaf)
    have hemits := (ih hleaves bs hbs).cons hc hown (stepBlocks_leaf tag.isLeaf bs)
    rw [tag.isLeaf.closes, closingBraces_zero, String.append_empty] at hemits
    exact hemits
  | nocache opening inner closing rest ihInner ihRest =>
    intro bs hbs
    simp only [tags, List.forall_mem_append, List.forall_mem_cons] at hleaves
    obtain ⟨⟨-, hinner⟩, -, hrest⟩ := hleaves
    have hafter := closing.emits_cons hc (by decide) rfl rfl (stepBlocks_nocacheClose bs)
      (ihRest hrest bs hbs)
    -- Inside the block nothing is a conditional, whatever stands around the block.
    have hbefore := ihInner hinner (.nocache :: bs) fun _ => outside_nocache bs
    have hemits := opening.emits_cons hc (by decide) rfl rfl (stepBlocks_nocache bs)
      (hbefore.append hafter)
    rw [String.empty_append, String.empty_append] at hemits
    exact hemits
  | conditional opening body others closing rest ihBody ihOthers ihRest =>
    intro bs hbs
    simp only [tags, List.forall_mem_append, List.forall_mem_cons] at hleaves
    obtain ⟨⟨⟨-, hbody⟩, hothers⟩, -, hrest⟩ := hleaves
    have hbody := ihBody hbody (.ifBranch :: bs) fun h => by cases h
    -- At the first branch there is no earlier one, so no further brace is due at the end.
    have hothers := ihOthers hothers closing .ifBranch [] bs rfl (by simp) (hbs rfl)
    have hemits := opening.emits_cons hc (by decide) rfl rfl (stepBlocks_if bs)
      (hbody.append (hothers.append (ihRest hrest bs hbs)))
    simp only [tags, render, renderIf, List.length_nil, closingBraces_zero, String.append_empty,
      List.append_assoc, List.cons_append, List.nil_append, String.append_assoc] at hemits ⊢
    exact hemits
  | noElse =>
    intro closing b cs bs hb hcs hbs
    have hrun := conditionalRun_cons (Block.isConditional_of_takesBranch hb) hcs
    have hemits := closing.emits_ifClose hc hrun hbs
    rw [List.length_cons, closingBraces_succ] at hemits
    exact hemits
  | elseIf divider body others ihBody ihOthers =>
    intro closing b cs bs hb hcs hbs
    simp only [tags, List.forall_mem_append, List.forall_mem_cons] at hleaves
    obtain ⟨⟨-, hbody⟩, hothers⟩ := hleaves
    have hbody := ihBody hbody (.elseIfBranch :: (b :: cs ++ bs)) fun h => by cases h
    -- The block of the branch before stays open below the new one, and costs a brace of its own.
    have hbelow := conditionalRun_cons (Block.isConditional_of_takesBranch hb) hcs
    have hothers := ihOthers hothers closing .elseIfBranch (b :: cs) bs rfl hbelow.conditional hbs
    have hemits := divider.emits_cons hc (by decide) rfl rfl (stepBlocks_elseIf hb (cs ++ bs))
      (hbody.append hothers)
    simp only [tags, render, renderIf, List.length_cons, closingBraces_succ, List.append_assoc,
      List.cons_append, String.append_assoc] at hemits ⊢
    exact hemits
  | elseBranch divider body ihBody =>
    intro closing b cs bs hb hcs hbs
    simp only [tags, List.forall_mem_cons] at hleaves
    have hbody := ihBody hleaves.2 (.elseBranch :: cs ++ bs) fun h => by cases h
    -- The `else` takes the place of the block before, so no further brace is due.
    have hrun : ConditionalRun (.elseBranch :: cs) := conditionalRun_cons rfl hcs
    have hemits := divider.emits_cons hc (by decide) rfl rfl (stepBlocks_else hb (cs ++ bs))
      (hbody.append (closing.emits_ifClose hc hrun hbs))
    simp only [tags, render, List.length_cons, closingBraces_succ, List.cons_append,
      String.append_assoc] at hemits ⊢
    exact hemits

end Template

/-- A template whose leaves compile alone is compiled, and its code is the rendering of its tree. -/
theorem compile_code_eq_render {s : Settings} {workingDir : Option String} {engine : Engine}
    (hengine : s.toEngine workingDir = .ok engine) (template : Option String)
    (t : Template (.items .outer))
    (hleaves : ∀ tag ∈ t.tags, IsLeaf tag.name → ∃ c, compile engine none [tag] = .ok c) :
    ∃ c, compile engine template t.tags = .ok c ∧ c.code = t.render engine := by
  have hc := Settings.toEngine_configured hengine
  have hemits : engine.Emits t.tags [] [] (t.render engine) :=
    t.renders hc hleaves [] fun _ => outside_nil
  exact hemits.compile template

/-- Three branches, with a conditional inside a block without caching in the second one. -/
def threeBranches : Template (.items .outer) :=
  .conditional ⟨{ name := "if", positional := ["$a"] }, rfl, ⟨[("condition", "$a")]⟩, rfl⟩
    (.leaf ⟨{ name := "print", positional := ["$x"] }, by decide⟩ .nil)
    (.elseIf ⟨{ name := "elseif", positional := ["$b"] }, rfl, ⟨[("condition", "$b")]⟩, rfl⟩
      (.nocache ⟨{ name := "nocache" }, rfl, .empty, rfl⟩
        (.conditional ⟨{ name := "if", positional := ["$c"] }, rfl, ⟨[("condition", "$c")]⟩, rfl⟩
          (.leaf ⟨{ name := "clock" }, by decide⟩ .nil) .noElse
          ⟨{ name := "/if" }, rfl, .empty, rfl⟩ .nil)
        ⟨{ name := "/nocache" }, rfl, .empty, rfl⟩ .nil)
      (.elseBranch ⟨{ name := "else" }, rfl, .empty, rfl⟩ .nil))
    ⟨{ name := "/if" }, rfl, .empty, rfl⟩ .nil

/-- The last closing tag writes two braces, one of them for the conditional in the `else`. -/
theorem threeBranches_compile :
    clockSettings.toEngine none = .ok clockEngine ∧
      (∀ tag ∈ threeBranches.tags, IsLeaf tag.name →
        ∃ c, compile clockEngine none [tag] = .ok c) ∧
      (∃ c, compile clockEngine none threeBranches.tags = .ok c ∧
        c.code = threeBranches.render clockEngine) ∧
      threeBranches.render clockEngine =
        "if ($a) \x7becho $x;\x7d else \x7b if ($b) \x7bif ($c) \x7b" ++
          handlerCall "clock" .empty ++ "\x7d\x7d else \x7b\x7d\x7d" := by
  have hleaves : ∀ tag ∈ threeBranches.tags, IsLeaf tag.name →
      ∃ c, compile clockEngine none [tag] = .ok c := by
    -- Which leaves compile alone is found by computing.
    have hall : threeBranches.tags.all (fun tag =>
        !decide (IsLeaf tag.name) || (compile clockEngine none [tag]).isOk) = true := by decide
    intro tag htag hleaf
    have hok := List.all_eq_true.mp hall tag htag
    rw [decide_eq_true hleaf, Bool.not_true, Bool.false_or] at hok
    exact exists_of_isOk hok
  exact ⟨clockSettings_toEngine, hleaves,
    compile_code_eq_render clockSettings_toEngine none threeBranches hleaves, by decide⟩

end TagPress
