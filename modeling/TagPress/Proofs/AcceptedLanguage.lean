import Mathlib.Data.List.DropRight
import TagPress.Proofs.BlockRun

/-!
# The accepted language

Which tag streams compile is a question about their names. This module gives the grammar of the
names that compile and shows that the run over open blocks accepts exactly its words. The grammar
follows the innermost block: one closing tag ends every conditional down to the next block without
caching, so a conditional inside a branch goes on to the end of the whole conditional.

## Key results

- `derives_iff_runBlocks`: the words of the grammar are the runs that leave no block open
- `viable_iff_runBlocks`: the beginnings of words are the runs that go through
- `compile_ok_iff_derives`: what compiles, and where everything else fails
-/

namespace TagPress

/-! ## The grammar -/

/-- The names of the tags that open, divide or close a block. -/
def blockTags : List String :=
  ["if", "elseif", "else", "/if", "nocache", "/nocache"]

/-- The name of a tag that leaves the open blocks alone. -/
def IsLeaf (name : String) : Prop :=
  name ∉ blockTags

instance (name : String) : Decidable (IsLeaf name) :=
  inferInstanceAs (Decidable (name ∉ blockTags))

/-- The phrases of the grammar. -/
inductive Phrase where
  /-- What may stand outside of conditionals. -/
  | items
  /-- What may follow while an `if` or `elseif` is innermost. -/
  | branch
  /-- What may follow while an `else` is innermost. -/
  | last
  /-- The part of a branch up to its next tag of a conditional. -/
  | body

/-- The grammar of the tag names that compile. -/
inductive Derives : Phrase → List String → Prop where
  | itemsEnd : Derives .items []
  | itemsLeaf {name : String} {rest : List String} :
      IsLeaf name → Derives .items rest → Derives .items (name :: rest)
  | itemsNocache {inner rest : List String} : Derives .items inner → Derives .items rest →
      Derives .items ("nocache" :: inner ++ "/nocache" :: rest)
  | itemsIf {inner rest : List String} : Derives .branch inner → Derives .items rest →
      Derives .items ("if" :: inner ++ "/if" :: rest)
  | branchEnd {b : List String} : Derives .body b → Derives .branch b
  | branchElseIf {b rest : List String} : Derives .body b → Derives .branch rest →
      Derives .branch (b ++ "elseif" :: rest)
  | branchElse {b rest : List String} : Derives .body b → Derives .last rest →
      Derives .branch (b ++ "else" :: rest)
  | branchIf {b rest : List String} : Derives .body b → Derives .branch rest →
      Derives .branch (b ++ "if" :: rest)
  | lastEnd {b : List String} : Derives .body b → Derives .last b
  | lastIf {b rest : List String} : Derives .body b → Derives .branch rest →
      Derives .last (b ++ "if" :: rest)
  | bodyEnd : Derives .body []
  | bodyLeaf {name : String} {rest : List String} :
      IsLeaf name → Derives .body rest → Derives .body (name :: rest)
  | bodyNocache {inner rest : List String} : Derives .items inner → Derives .body rest →
      Derives .body ("nocache" :: inner ++ "/nocache" :: rest)

/-! ## Steps by name -/

/-- A leaf prints or calls a function. -/
theorem IsLeaf.ofName {name : String} (h : IsLeaf name) :
    TagCompiler.ofName name = .print ∨ TagCompiler.ofName name = .functionCall := by
  simp only [IsLeaf, blockTags, List.mem_cons, List.not_mem_nil, or_false, not_or] at h
  obtain ⟨h₁, h₂, h₃, h₄, h₅, h₆⟩ := h
  simp only [TagCompiler.ofName, h₁, h₂, h₃, h₄, h₅, h₆, if_false]
  by_cases hprint : name = "print"
  · exact .inl (if_pos hprint)
  · exact .inr (if_neg hprint)

/-- Leaves fit everywhere and move nothing. -/
theorem stepBlocks_leaf {name : String} (h : IsLeaf name) (bs : List Block) :
    stepBlocks name bs = some bs := by
  unfold stepBlocks
  obtain hname | hname := h.ofName <;> rw [hname] <;> rfl

/-- Leaves close no blocks. -/
theorem IsLeaf.closes {name : String} (h : IsLeaf name) (bs : List Block) :
    (TagCompiler.ofName name).closes bs = 0 := by
  obtain hname | hname := h.ofName <;> rw [hname] <;> rfl

@[simp] theorem stepBlocks_if (bs : List Block) : stepBlocks "if" bs = some (.ifBranch :: bs) := rfl

@[simp] theorem stepBlocks_nocache (bs : List Block) :
    stepBlocks "nocache" bs = some (.nocache :: bs) := rfl

@[simp] theorem stepBlocks_nocacheClose (bs : List Block) :
    stepBlocks "/nocache" (.nocache :: bs) = some bs := rfl

/-- An `elseif` opens its block on top of the branch before. -/
theorem stepBlocks_elseIf {b : Block} (h : b.takesBranch = true) (bs : List Block) :
    stepBlocks "elseif" (b :: bs) = some (.elseIfBranch :: b :: bs) :=
  if_pos h

/-- An `else` takes the place of the branch before. -/
theorem stepBlocks_else {b : Block} (h : b.takesBranch = true) (bs : List Block) :
    stepBlocks "else" (b :: bs) = some (.elseBranch :: bs) :=
  if_pos h

/-- A closing tag takes the innermost conditional and all that stand directly around it. -/
theorem stepBlocks_ifClose {b : Block} (h : b.isConditional = true) (bs : List Block) :
    stepBlocks "/if" (b :: bs) = some (bs.dropWhile Block.isConditional) :=
  if_pos h

/-- No conditional is innermost. -/
def Outside (bs : List Block) : Prop :=
  bs.dropWhile Block.isConditional = bs

theorem outside_nil : Outside [] := rfl

theorem outside_nocache (bs : List Block) : Outside (.nocache :: bs) := rfl

/-- After a closing tag no conditional is innermost. -/
theorem outside_dropWhile (bs : List Block) : Outside (bs.dropWhile Block.isConditional) :=
  List.dropWhile_idempotent Block.isConditional bs

/-- Outside of conditionals there is nothing for a closing tag to close. -/
theorem Outside.takeWhile {bs : List Block} (h : Outside bs) :
    bs.takeWhile Block.isConditional = [] := by
  have happend := List.takeWhile_append_dropWhile (p := Block.isConditional) (l := bs)
  rw [h] at happend
  exact List.append_left_eq_self.mp happend

/-- Blocks that one closing tag ends. -/
structure ConditionalRun (cs : List Block) : Prop where
  nonempty : cs ≠ []
  conditional : ∀ c ∈ cs, c.isConditional = true

/-- A conditional block on top of others. -/
theorem conditionalRun_cons {b : Block} {cs : List Block} (hb : b.isConditional = true)
    (hcs : ∀ c ∈ cs, c.isConditional = true) : ConditionalRun (b :: cs) :=
  ⟨List.cons_ne_nil b cs, List.forall_mem_cons.mpr ⟨hb, hcs⟩⟩

/-- A conditional block alone. -/
theorem conditionalRun_singleton {b : Block} (hb : b.isConditional = true) :
    ConditionalRun [b] :=
  conditionalRun_cons hb (by simp)

/-- A conditional block below a run belongs to it. -/
theorem ConditionalRun.append_singleton {cs : List Block} (h : ConditionalRun cs) {b : Block}
    (hb : b.isConditional = true) : ConditionalRun (cs ++ [b]) := by
  refine ⟨by simp, fun c hc => ?_⟩
  rw [List.mem_append, List.mem_singleton] at hc
  obtain hc | rfl := hc
  · exact h.conditional c hc
  · exact hb

/-- A closing tag ends a run of conditional blocks, and those below up to another block. -/
theorem ConditionalRun.stepBlocks_ifClose {cs : List Block} (h : ConditionalRun cs)
    (bs : List Block) :
    stepBlocks "/if" (cs ++ bs) = some (bs.dropWhile Block.isConditional) := by
  match cs, h with
  | [], h => exact absurd rfl h.nonempty
  | c :: cs, h =>
    obtain ⟨hc, hcs⟩ := List.forall_mem_cons.mp h.conditional
    rw [List.cons_append, TagPress.stepBlocks_ifClose hc, List.dropWhile_append_of_pos hcs]

/-- After the closing tag of a run, the others are run on the blocks below it. -/
theorem ConditionalRun.runBlocks_ifClose {cs : List Block} (h : ConditionalRun cs)
    (names : List String) (bs : List Block) :
    runBlocks ("/if" :: names) (cs ++ bs) =
      runBlocks names (bs.dropWhile Block.isConditional) := by
  rw [runBlocks, h.stepBlocks_ifClose, Option.bind_some]

/-! ## Every word is a run -/

/-- What the words of a phrase do to the open blocks. Items and bodies leave them as they are. A
    branch puts a run of conditional blocks in the place of the innermost one. -/
def Phrase.Runs (names : List String) : Phrase → Prop
  | items => ∀ bs, Outside bs → runBlocks names bs = some bs
  | body => ∀ bs, runBlocks names bs = some bs
  | branch => ∀ b bs, b.takesBranch = true →
      ∃ cs, ConditionalRun cs ∧ runBlocks names (b :: bs) = some (cs ++ bs)
  | last => ∀ bs, ∃ cs, ConditionalRun cs ∧ runBlocks names (.elseBranch :: bs) = some (cs ++ bs)

/-- A body in front of other names is not noticed by them. -/
private theorem runBlocks_body_append {b : List String} (hb : Phrase.body.Runs b)
    (rest : List String) (bs : List Block) : runBlocks (b ++ rest) bs = runBlocks rest bs := by
  rw [runBlocks_append, hb bs, Option.bind_some]

/-- A whole block without caching in front of other names is not noticed by them. -/
private theorem runBlocks_nocache_append {inner : List String} (hinner : Phrase.items.Runs inner)
    (rest : List String) (bs : List Block) :
    runBlocks ("nocache" :: inner ++ "/nocache" :: rest) bs = runBlocks rest bs := by
  rw [List.cons_append, runBlocks, stepBlocks_nocache, Option.bind_some, runBlocks_append,
    hinner _ (outside_nocache bs), Option.bind_some, runBlocks, stepBlocks_nocacheClose,
    Option.bind_some]

/-- A branch that is opened on top of a conditional block ends together with it. -/
private theorem runs_branch_cons {rest : List String} (hrest : Phrase.branch.Runs rest)
    {b b' : Block} (hb : b.takesBranch = true) (hb' : b'.isConditional = true) (bs : List Block) :
    ∃ cs, ConditionalRun cs ∧ runBlocks rest (b :: b' :: bs) = some (cs ++ bs) := by
  obtain ⟨cs, hcs, hrun⟩ := hrest b (b' :: bs) hb
  refine ⟨cs ++ [b'], hcs.append_singleton hb', ?_⟩
  rw [hrun, List.append_assoc, List.singleton_append]

/-- The words of a phrase run as they should. -/
theorem Derives.runs {p : Phrase} {names : List String} (h : Derives p names) : p.Runs names := by
  -- One case per rule of the grammar; each rule is run tag by tag.
  induction h with
  | itemsEnd => exact fun bs _ => rfl
  | bodyEnd => exact fun bs => rfl
  | itemsLeaf hname _ ih =>
    intro bs hbs
    rw [runBlocks, stepBlocks_leaf hname, Option.bind_some]
    exact ih bs hbs
  | bodyLeaf hname _ ih =>
    intro bs
    rw [runBlocks, stepBlocks_leaf hname, Option.bind_some]
    exact ih bs
  | itemsNocache _ _ ihInner ihRest =>
    intro bs hbs
    rw [runBlocks_nocache_append ihInner]
    exact ihRest bs hbs
  | bodyNocache _ _ ihInner ihRest =>
    intro bs
    rw [runBlocks_nocache_append ihInner]
    exact ihRest bs
  | itemsIf _ _ ihInner ihRest =>
    intro bs hbs
    obtain ⟨cs, hcs, hrun⟩ := ihInner .ifBranch bs rfl
    rw [List.cons_append, runBlocks, stepBlocks_if, Option.bind_some, runBlocks_append, hrun,
      Option.bind_some, hcs.runBlocks_ifClose, hbs]
    exact ihRest bs hbs
  | branchEnd _ ih =>
    intro b bs hb
    exact ⟨[b], conditionalRun_singleton (Block.isConditional_of_takesBranch hb), ih (b :: bs)⟩
  | lastEnd _ ih =>
    intro bs
    exact ⟨[.elseBranch], conditionalRun_singleton rfl, ih (.elseBranch :: bs)⟩
  | branchElseIf _ _ ihBody ihRest =>
    intro b bs hb
    rw [runBlocks_body_append ihBody, runBlocks, stepBlocks_elseIf hb, Option.bind_some]
    exact runs_branch_cons ihRest rfl (Block.isConditional_of_takesBranch hb) bs
  -- An `else` is the only divider that leaves no further block behind.
  | branchElse _ _ ihBody ihRest =>
    intro b bs hb
    rw [runBlocks_body_append ihBody, runBlocks, stepBlocks_else hb, Option.bind_some]
    exact ihRest bs
  | branchIf _ _ ihBody ihRest =>
    intro b bs hb
    rw [runBlocks_body_append ihBody, runBlocks, stepBlocks_if, Option.bind_some]
    exact runs_branch_cons ihRest rfl (Block.isConditional_of_takesBranch hb) bs
  | lastIf _ _ ihBody ihRest =>
    intro bs
    rw [runBlocks_body_append ihBody, runBlocks, stepBlocks_if, Option.bind_some]
    exact runs_branch_cons ihRest rfl rfl bs

/-! ## Every run is a word

What is left of a word when blocks are open is described by `Completes`: each block takes its phrase
and its closing tag, and the rest completes the blocks below. Read backwards, every step of a run
adds one name in front of such a completion. -/

/-- The names that close the open blocks and go on to the end of a word. -/
inductive Completes : List Block → List String → Prop where
  | nil {names : List String} : Derives .items names → Completes [] names
  | nocache {bs : List Block} {inner rest : List String} : Derives .items inner →
      Completes bs rest → Completes (.nocache :: bs) (inner ++ "/nocache" :: rest)
  | branch {b : Block} {bs : List Block} {inner rest : List String} : b.takesBranch = true →
      Derives .branch inner → Completes (bs.dropWhile Block.isConditional) rest →
      Completes (b :: bs) (inner ++ "/if" :: rest)
  | last {bs : List Block} {inner rest : List String} : Derives .last inner →
      Completes (bs.dropWhile Block.isConditional) rest →
      Completes (.elseBranch :: bs) (inner ++ "/if" :: rest)

/-- A leaf, or a whole block without caching. -/
inductive IsItem : List String → Prop where
  | leaf {name : String} : IsLeaf name → IsItem [name]
  | nocache {inner : List String} : Derives .items inner →
      IsItem ("nocache" :: inner ++ ["/nocache"])

/-- Leaves and blocks without caching may stand at the front of every phrase. -/
theorem Derives.prepend {item : List String} (hitem : IsItem item) {p : Phrase}
    {names : List String} (h : Derives p names) : Derives p (item ++ names) := by
  -- Branches begin with a body, so the item goes to the front of that.
  have hbody : ∀ b, Derives .body b → Derives .body (item ++ b) := by
    intro b hb
    cases hitem with
    | leaf hname => exact .bodyLeaf hname hb
    | nocache hinner =>
      rw [List.append_assoc]
      exact .bodyNocache hinner hb
  cases p with
  | items =>
    cases hitem with
    | leaf hname => exact .itemsLeaf hname h
    | nocache hinner =>
      rw [List.append_assoc]
      exact .itemsNocache hinner h
  | body => exact hbody names h
  | branch =>
    cases h with
    | branchEnd hb => exact .branchEnd (hbody _ hb)
    | branchElseIf hb hrest => rw [← List.append_assoc]; exact .branchElseIf (hbody _ hb) hrest
    | branchElse hb hrest => rw [← List.append_assoc]; exact .branchElse (hbody _ hb) hrest
    | branchIf hb hrest => rw [← List.append_assoc]; exact .branchIf (hbody _ hb) hrest
  | last =>
    cases h with
    | lastEnd hb => exact .lastEnd (hbody _ hb)
    | lastIf hb hrest => rw [← List.append_assoc]; exact .lastIf (hbody _ hb) hrest

/-- Leaves and blocks without caching may stand in front of every completion. -/
theorem Completes.prepend {item : List String} (hitem : IsItem item) {bs : List Block}
    {names : List String} (h : Completes bs names) : Completes bs (item ++ names) := by
  -- The item goes to the front of the innermost phrase that is still open.
  cases h with
  | nil hnames => exact .nil (hnames.prepend hitem)
  | nocache hinner hrest =>
    rw [← List.append_assoc]
    exact .nocache (hinner.prepend hitem) hrest
  | branch hb hinner hrest =>
    rw [← List.append_assoc]
    exact .branch hb (hinner.prepend hitem) hrest
  | last hinner hrest =>
    rw [← List.append_assoc]
    exact .last (hinner.prepend hitem) hrest

/-- A whole conditional in front of a completion. Where a conditional is innermost, the closing tag
    of the new one closes both. -/
theorem Completes.prepend_if {bs : List Block} {inner rest : List String}
    (hinner : Derives .branch inner) (h : Completes (bs.dropWhile Block.isConditional) rest) :
    Completes bs ("if" :: inner ++ "/if" :: rest) := by
  -- The phrase that the conditional joins is the one of the innermost block.
  match bs with
  | [] =>
    cases h with
    | nil hrest => exact .nil (.itemsIf hinner hrest)
  | .nocache :: bs =>
    cases h with
    | @nocache _ inner' rest' hinner' hrest =>
      have heq : "if" :: inner ++ "/if" :: (inner' ++ "/nocache" :: rest') =
          ("if" :: inner ++ "/if" :: inner') ++ "/nocache" :: rest' := by simp
      rw [heq]
      exact .nocache (.itemsIf hinner hinner') hrest
    | branch hb => cases hb
  | .ifBranch :: bs => exact .branch rfl (.branchIf .bodyEnd hinner) h
  | .elseIfBranch :: bs => exact .branch rfl (.branchIf .bodyEnd hinner) h
  | .elseBranch :: bs => exact .last (.lastIf .bodyEnd hinner) h

/-- A step of a run puts its name in front of what completes the blocks after it. -/
theorem Completes.of_step {name : String} {bs bs' : List Block} {names : List String}
    (hstep : stepBlocks name bs = some bs') (h : Completes bs' names) :
    Completes bs (name :: names) := by
  -- Six names move blocks; everything else is a leaf.
  by_cases hleaf : IsLeaf name
  · rw [stepBlocks_leaf hleaf, Option.some.injEq] at hstep
    subst hstep
    exact h.prepend (.leaf hleaf)
  simp only [IsLeaf, Classical.not_not, blockTags, List.mem_cons, List.not_mem_nil,
    or_false] at hleaf
  obtain rfl | rfl | rfl | rfl | rfl | rfl := hleaf
  · -- An `if` opens a conditional that is closed later.
    cases hstep
    cases h with
    | branch _ hinner hrest => exact hrest.prepend_if hinner
  · -- An `elseif` goes on with the innermost branch.
    match bs, hstep with
    | b :: bs, hstep =>
      obtain ⟨hb, heq⟩ := Option.ite_none_right_eq_some.mp hstep
      cases heq
      cases h with
      | branch _ hinner hrest =>
        rw [List.dropWhile_cons_of_pos (Block.isConditional_of_takesBranch hb)] at hrest
        exact .branch hb (.branchElseIf .bodyEnd hinner) hrest
  · -- An `else` makes the innermost branch the last one.
    match bs, hstep with
    | b :: bs, hstep =>
      obtain ⟨hb, heq⟩ := Option.ite_none_right_eq_some.mp hstep
      cases heq
      cases h with
      | branch hb' => cases hb'
      | last hinner hrest => exact .branch hb (.branchElse .bodyEnd hinner) hrest
  · -- A `/if` ends the innermost branch, whatever its kind.
    match bs, hstep with
    | b :: bs, hstep =>
      obtain ⟨hb, heq⟩ := Option.ite_none_right_eq_some.mp hstep
      cases heq
      cases b with
      | ifBranch => exact .branch rfl (.branchEnd .bodyEnd) h
      | elseIfBranch => exact .branch rfl (.branchEnd .bodyEnd) h
      | elseBranch => exact .last (.lastEnd .bodyEnd) h
      | nocache => cases hb
  · -- A `nocache` opens a block that is closed later.
    cases hstep
    cases h with
    | @nocache _ inner rest hinner hrest =>
      have heq : "nocache" :: (inner ++ "/nocache" :: rest) =
          ("nocache" :: inner ++ ["/nocache"]) ++ rest := by simp
      rw [heq]
      exact hrest.prepend (.nocache hinner)
    | branch hb => cases hb
  · -- A `/nocache` ends the innermost block.
    match bs, hstep with
    | .nocache :: bs, hstep =>
      cases hstep
      exact .nocache .itemsEnd h

/-- The names of a run that leaves no block open complete the blocks that it began with. -/
theorem completes_of_runBlocks {names : List String} {bs : List Block}
    (hrun : runBlocks names bs = some []) : Completes bs names := by
  -- From the end: no names complete no blocks, and each step puts its name in front.
  induction names generalizing bs with
  | nil =>
    simp only [runBlocks, Option.some.injEq] at hrun
    exact hrun ▸ .nil .itemsEnd
  | cons name names ih =>
    obtain ⟨bs', hstep, hrun⟩ := Option.bind_eq_some_iff.mp hrun
    exact (ih hrun).of_step hstep

/-- The words of the grammar are the runs that begin and end without open blocks. -/
theorem derives_iff_runBlocks {names : List String} :
    Derives .items names ↔ runBlocks names [] = some [] := by
  constructor
  · intro h
    exact h.runs [] outside_nil
  · intro hrun
    cases completes_of_runBlocks hrun with
    | nil hnames => exact hnames

/-! ## Beginnings of words -/

/-- The names are the beginning of a word. -/
def Viable (names : List String) : Prop :=
  ∃ rest, Derives .items (names ++ rest)

/-- Whatever blocks are open, some names close them all, and some close all but the innermost
    conditionals. -/
theorem exists_runBlocks_eq_nil (bs : List Block) :
    (∃ names, runBlocks names bs = some []) ∧
      ∃ names, runBlocks names (bs.dropWhile Block.isConditional) = some [] := by
  -- Both halves are needed together, since a `/if` drops conditionals and goes on where the second
  -- half starts.
  induction bs with
  | nil => exact ⟨⟨[], rfl⟩, [], rfl⟩
  | cons b bs ih =>
    obtain ⟨⟨names, hnames⟩, below, hbelow⟩ := ih
    by_cases hb : b.isConditional = true
    · rw [List.dropWhile_cons_of_pos hb]
      refine ⟨⟨"/if" :: below, ?_⟩, below, hbelow⟩
      rw [runBlocks, stepBlocks_ifClose hb, Option.bind_some, hbelow]
    · have hstep : stepBlocks "/nocache" (b :: bs) = some bs := if_neg hb
      have hrun : runBlocks ("/nocache" :: names) (b :: bs) = some [] := by
        rw [runBlocks, hstep, Option.bind_some, hnames]
      rw [List.dropWhile_cons_of_neg hb]
      exact ⟨⟨_, hrun⟩, _, hrun⟩

/-- The beginnings of words are the runs that go through. -/
theorem viable_iff_runBlocks {names : List String} :
    Viable names ↔ ∃ bs, runBlocks names [] = some bs := by
  constructor
  · rintro ⟨rest, hword⟩
    rw [derives_iff_runBlocks, runBlocks_append] at hword
    obtain ⟨bs, hrun, -⟩ := Option.bind_eq_some_iff.mp hword
    exact ⟨bs, hrun⟩
  · -- Whatever is open can be closed, and then the whole is a word.
    rintro ⟨bs, hrun⟩
    obtain ⟨⟨rest, hrest⟩, -⟩ := exists_runBlocks_eq_nil bs
    refine ⟨rest, derives_iff_runBlocks.mpr ?_⟩
    rw [runBlocks_append, hrun, Option.bind_some, hrest]

/-! ## What compiles -/

/-- A stream of acceptable tags compiles exactly if its names are a word of the grammar. Otherwise
    it fails at the first tag whose names up to there begin no word, or at its end if there is no
    such tag. -/
theorem compile_ok_iff_derives {s : Settings} {workingDir : Option String} {engine : Engine}
    (hengine : s.toEngine workingDir = .ok engine) (template : Option String) {tags : List Tag}
    (htags : ∀ tag ∈ tags, engine.Acceptable tag) :
    ((∃ c, compile engine template tags = .ok c) ↔ Derives .items (tags.map (·.name))) ∧
    (¬ Derives .items (tags.map (·.name)) →
      (∃ before tag after innermost, tags = before ++ tag :: after ∧
        Viable (before.map (·.name)) ∧ ¬ Viable ((before ++ [tag]).map (·.name)) ∧
        compile engine template tags =
          .error ⟨.unbalanced tag.name innermost, some tag.name, tag.line, template⟩) ∨
      (Viable (tags.map (·.name)) ∧ ∃ family line,
        compile engine template tags = .error ⟨.unclosedTag family, none, line, template⟩)) := by
  have hc := Settings.toEngine_configured hengine
  refine ⟨(compile_ok_iff_runBlocks hc htags template).trans derives_iff_runBlocks.symm, ?_⟩
  intro hword
  rw [derives_iff_runBlocks] at hword
  -- Whether the run gets stuck or ends with open blocks decides between the two failures.
  cases hrun : runBlocks (tags.map (·.name)) [] with
  | none =>
    obtain ⟨before, tag, after, bs, heq, hbefore, hstuck, herror⟩ :=
      compile_of_runBlocks_eq_none hc htags template hrun
    refine .inl ⟨before, tag, after, _, heq, viable_iff_runBlocks.mpr ⟨bs, hbefore⟩, ?_, herror⟩
    rw [viable_iff_runBlocks, List.map_append, runBlocks_append, hbefore]
    simp [runBlocks, hstuck]
  | some bs =>
    cases bs with
    | nil => exact absurd hrun hword
    | cons b bs =>
      obtain ⟨code, hemits⟩ := Engine.emits_of_runBlocks hc htags hrun
      obtain ⟨line, herror⟩ := hemits.compile_unclosed template
      exact .inr ⟨viable_iff_runBlocks.mpr ⟨b :: bs, hrun⟩, b.family, line, herror⟩

/-- A print with a modifier that is known but takes one argument at most. -/
def overfullPrint : Tag :=
  { name := "print", positional := ["$x"], modifiers := [⟨"default", ["", "1", "2"]⟩] }

/-- Without the condition on the arguments of modifiers the equivalence fails: the tag's attributes
    are accepted, it calls no function, its modifier resolves and its name is a word of the grammar,
    and yet it is not compiled. -/
theorem overfullPrint_fails :
    clockSettings.toEngine none = .ok clockEngine ∧
      clockEngine.compilerOf overfullPrint = .print ∧
      (valueSchema.resolve overfullPrint).outcome = .ok ⟨[("value", "$x")]⟩ ∧
      (∀ step ∈ overfullPrint.modifiers, clockEngine.Resolves step) ∧
      Derives .items ([overfullPrint].map (·.name)) ∧
      compile clockEngine none [overfullPrint] =
        .error { fault := .invalid "modifier 'default' takes at most one argument"
                 tag := some "print" } := by
  -- The step resolves, since its name is known; that is all that resolving asks.
  refine ⟨clockSettings_toEngine, rfl, by decide, ?_, .itemsLeaf (by decide) .itemsEnd, rfl⟩
  intro step hstep
  obtain rfl := List.mem_singleton.mp hstep
  exact fun _ => ⟨.inline defaultModifier, rfl⟩

/-- Two conditionals that share one closing tag; the `else` belongs to the inner one. -/
def sharedClose : List Tag :=
  [{ name := "if", positional := ["$a"] }, { name := "if", positional := ["$b"] },
    { name := "else" }, { name := "clock" }, { name := "/if" }]

/-- One closing tag is enough for both, and without it both stay open. -/
theorem sharedClose_compile :
    clockSettings.toEngine none = .ok clockEngine ∧
      (∀ tag ∈ sharedClose, clockEngine.Acceptable tag) ∧
      (∃ c, compile clockEngine none sharedClose = .ok c) ∧
      ¬ Derives .items (sharedClose.dropLast.map (·.name)) := by
  have hc := Settings.toEngine_configured clockSettings_toEngine
  have hwhole : ∀ tag ∈ sharedClose, clockEngine.Acceptable tag :=
    acceptable_of_all_isOk hc (by decide)
  have hword : Derives .items (sharedClose.map (·.name)) :=
    .itemsIf (.branchIf .bodyEnd (.branchElse .bodyEnd (.lastEnd (.bodyLeaf (by decide) .bodyEnd))))
      .itemsEnd
  refine ⟨clockSettings_toEngine, hwhole,
    (compile_ok_iff_derives clockSettings_toEngine none hwhole).1.mpr hword, ?_⟩
  -- The tags of the part are acceptable as tags of the whole.
  have hpart : ∀ tag ∈ sharedClose.dropLast, clockEngine.Acceptable tag :=
    fun tag htag => hwhole tag (List.dropLast_subset _ htag)
  rw [← (compile_ok_iff_derives clockSettings_toEngine none hpart).1]
  rintro ⟨c, hcompile⟩
  cases hcompile

end TagPress
