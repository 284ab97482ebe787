import TagPress.Proofs.AcceptedLanguage

/-!
# Well-nested streams

A stream is well nested when every block is closed by its own closing tag and conditionals may stand
directly inside the branches of others. Compiling does not agree with this: one `/if` closes every
conditional down to the next block without caching, also those around the one it belongs to. It
agrees exactly on the streams in which no conditional stands directly inside a branch.

## Key results

- `FlatlyNested.derives`, `FlatlyNested.wellNested`: flat streams are words and are well nested
- `WellNested.runsFlat`: a well-nested stream that runs is flat
- `compile_ok_iff_flatlyNested`: among well-nested streams the flat ones compile, and among streams
  that compile the flat ones are well nested
-/

namespace TagPress

/-! ## Two kinds of nesting -/

/-- The names of a conditional with its branches. -/
def conditionalNames (body : List String) (elseIfs : List (List String))
    (last : Option (List String)) : List String :=
  "if" :: body ++ elseIfs.flatMap ("elseif" :: ·) ++ last.elim [] ("else" :: ·) ++ ["/if"]

/-- Every block is closed by its own closing tag. -/
inductive WellNested : List String → Prop where
  | nil : WellNested []
  | leaf {name : String} {rest : List String} :
      IsLeaf name → WellNested rest → WellNested (name :: rest)
  | nocache {inner rest : List String} : WellNested inner → WellNested rest →
      WellNested ("nocache" :: inner ++ "/nocache" :: rest)
  | conditional {body : List String} {elseIfs : List (List String)} {last : Option (List String)}
      {rest : List String} : WellNested body → (∀ b ∈ elseIfs, WellNested b) →
      (∀ b ∈ last, WellNested b) → WellNested rest →
      WellNested (conditionalNames body elseIfs last ++ rest)

/-- Where something stands in a template. -/
inductive Level where
  /-- Directly in the template or in a block without caching. -/
  | outer
  /-- Directly in a branch of a conditional. -/
  | branch

/-- Every block is closed by its own closing tag, and no conditional stands directly in a branch. -/
inductive FlatlyNested : Level → List String → Prop where
  | nil {p : Level} : FlatlyNested p []
  | leaf {p : Level} {name : String} {rest : List String} :
      IsLeaf name → FlatlyNested p rest → FlatlyNested p (name :: rest)
  | nocache {p : Level} {inner rest : List String} : FlatlyNested .outer inner →
      FlatlyNested p rest → FlatlyNested p ("nocache" :: inner ++ "/nocache" :: rest)
  | conditional {body : List String} {elseIfs : List (List String)} {last : Option (List String)}
      {rest : List String} : FlatlyNested .branch body →
      (∀ b ∈ elseIfs, FlatlyNested .branch b) → (∀ b ∈ last, FlatlyNested .branch b) →
      FlatlyNested .outer rest →
      FlatlyNested .outer (conditionalNames body elseIfs last ++ rest)

/-! ## Flat streams -/

/-- Flat nesting is nesting. -/
theorem FlatlyNested.wellNested {p : Level} {names : List String} (h : FlatlyNested p names) :
    WellNested names := by
  induction h with
  | nil => exact .nil
  | leaf hname _ ih => exact .leaf hname ih
  | nocache _ _ ihInner ihRest => exact .nocache ihInner ihRest
  | conditional _ _ _ _ ihBody ihElseIfs ihLast ihRest =>
    exact .conditional ihBody ihElseIfs ihLast ihRest

/-- The branches of a conditional, one after the other, are a branch of the grammar. -/
private theorem derives_branches {body : List String} {elseIfs : List (List String)}
    {last : Option (List String)} (hbody : Derives .body body)
    (helseIfs : ∀ b ∈ elseIfs, Derives .body b) (hlast : ∀ b ∈ last, Derives .body b) :
    Derives .branch (body ++ elseIfs.flatMap ("elseif" :: ·) ++ last.elim [] ("else" :: ·)) := by
  -- The grammar has the branches nested to the right, so the first one is generalized.
  induction elseIfs generalizing body with
  | nil =>
    cases last with
    | none => simpa using Derives.branchEnd hbody
    | some b => simpa using Derives.branchElse hbody (.lastEnd (hlast b rfl))
  | cons b elseIfs ih =>
    obtain ⟨hb, helseIfs⟩ := List.forall_mem_cons.mp helseIfs
    simpa using Derives.branchElseIf hbody (ih hb helseIfs)

/-- Flat streams are words of the accepted language, at the level they stand on. -/
theorem FlatlyNested.derives {p : Level} {names : List String} (h : FlatlyNested p names) :
    match p with
    | .outer => Derives .items names
    | .branch => Derives .body names := by
  -- Items and bodies are different symbols of the grammar with the same rules for leaves and blocks
  -- without caching; a conditional stands among items only.
  induction h with
  | @nil p =>
    cases p with
    | outer => exact .itemsEnd
    | branch => exact .bodyEnd
  | @leaf p _ _ hname _ ih =>
    cases p with
    | outer => exact .itemsLeaf hname ih
    | branch => exact .bodyLeaf hname ih
  | @nocache p _ _ _ _ ihInner ihRest =>
    cases p with
    | outer => exact .itemsNocache ihInner ihRest
    | branch => exact .bodyNocache ihInner ihRest
  | conditional _ _ _ _ ihBody ihElseIfs ihLast ihRest =>
    have hinner := derives_branches ihBody ihElseIfs ihLast
    simpa [conditionalNames] using Derives.itemsIf hinner ihRest

/-! ## Well-nested streams that run

A conditional inside a branch takes the whole run of conditional blocks with it, so the tag that
follows the branch finds no conditional. A run therefore goes through only if every branch is
flat. -/

/-- The names can only run if they are nested flatly. If they hold a conditional, they close every
    conditional that is innermost before them. -/
def RunsFlat (names : List String) : Prop :=
  ∀ bs bs', runBlocks names bs = some bs' →
    FlatlyNested .outer names ∧
      (FlatlyNested .branch names ∧ bs' = bs ∨ bs' = bs.dropWhile Block.isConditional)

/-- The tags that divide or close a conditional. -/
def dividers : List String := ["elseif", "else", "/if"]

/-- Outside of conditionals no divider fits. -/
theorem stepBlocks_divider_outside {name : String} (hname : name ∈ dividers) {bs : List Block}
    (hbs : Outside bs) : stepBlocks name bs = none := by
  cases bs with
  | nil =>
    simp only [dividers, List.mem_cons, List.not_mem_nil, or_false] at hname
    obtain rfl | rfl | rfl := hname <;> rfl
  | cons b bs =>
    -- The innermost block is no conditional, since the run of conditionals is empty.
    have hb : b.isConditional = false := by
      rw [← Bool.not_eq_true]
      intro hb
      have htake := hbs.takeWhile
      rw [List.takeWhile_cons_of_pos hb] at htake
      cases htake
    cases b with
    | nocache =>
      simp only [dividers, List.mem_cons, List.not_mem_nil, or_false] at hname
      obtain rfl | rfl | rfl := hname <;> rfl
    | ifBranch | elseIfBranch | elseBranch => cases hb

/-- A branch before a divider is flat, and the divider meets the blocks that the branch met. -/
theorem RunsFlat.branch {body names : List String} {name : String} {bs bs' : List Block}
    (hbody : RunsFlat body) (hname : name ∈ dividers)
    (hrun : runBlocks (body ++ name :: names) bs = some bs') :
    FlatlyNested .branch body ∧ runBlocks (name :: names) bs = some bs' := by
  rw [runBlocks_append] at hrun
  obtain ⟨bs₁, hrun₁, hrun₂⟩ := Option.bind_eq_some_iff.mp hrun
  obtain ⟨-, ⟨hflat, rfl⟩ | rfl⟩ := hbody _ _ hrun₁
  · exact ⟨hflat, hrun₂⟩
  · -- The branch held a conditional and has closed everything, so the divider gets stuck.
    have hstuck := stepBlocks_divider_outside hname (outside_dropWhile bs)
    rw [runBlocks, hstuck] at hrun₂
    cases hrun₂

/-- All branches of a conditional that runs are flat, and its closing tag closes every conditional
    that is innermost. -/
theorem RunsFlat.branches {body rest : List String} {elseIfs : List (List String)}
    {last : Option (List String)} (hbody : RunsFlat body) (helseIfs : ∀ b ∈ elseIfs, RunsFlat b)
    (hlast : ∀ b ∈ last, RunsFlat b) {cs bs bs' : List Block} (hcs : ConditionalRun cs)
    (hrun : runBlocks
      (body ++ elseIfs.flatMap ("elseif" :: ·) ++ last.elim [] ("else" :: ·) ++ "/if" :: rest)
      (cs ++ bs) = some bs') :
    FlatlyNested .branch body ∧ (∀ b ∈ elseIfs, FlatlyNested .branch b) ∧
      (∀ b ∈ last, FlatlyNested .branch b) ∧
      runBlocks rest (bs.dropWhile Block.isConditional) = some bs' := by
  -- Every `elseif` puts a block on the run, so the blocks `cs` of the conditional are generalized
  -- with the first branch.
  induction elseIfs generalizing body cs with
  | nil =>
    simp only [List.flatMap_nil, List.append_nil] at hrun
    cases last with
    | none =>
      simp only [Option.elim_none, List.append_nil] at hrun
      obtain ⟨hflat, hrun⟩ := hbody.branch (by decide) hrun
      rw [hcs.runBlocks_ifClose] at hrun
      exact ⟨hflat, by simp, by simp, hrun⟩
    | some b =>
      simp only [Option.elim_some, List.append_assoc, List.cons_append] at hrun
      obtain ⟨hflat, hrun⟩ := hbody.branch (by decide) hrun
      -- The `else` takes the place of the innermost block.
      obtain ⟨bs₁, hstep, hrun⟩ := Option.bind_eq_some_iff.mp hrun
      match cs, hcs, hstep with
      | [], hcs, _ => exact absurd rfl hcs.nonempty
      | c :: cs, hcs, hstep =>
        rw [List.cons_append] at hstep
        obtain ⟨hc, heq⟩ := Option.ite_none_right_eq_some.mp hstep
        cases heq
        obtain ⟨hflat', hrun⟩ := (hlast b rfl).branch (by decide) hrun
        have hcs' : ConditionalRun (.elseBranch :: cs) :=
          conditionalRun_cons rfl (List.forall_mem_cons.mp hcs.conditional).2
        rw [← List.cons_append, hcs'.runBlocks_ifClose] at hrun
        exact ⟨hflat, by simp, by simpa using hflat', hrun⟩
  | cons b elseIfs ih =>
    obtain ⟨hb, helseIfs⟩ := List.forall_mem_cons.mp helseIfs
    simp only [List.flatMap_cons, List.append_assoc, List.cons_append] at hrun
    obtain ⟨hflat, hrun⟩ := hbody.branch (by decide) hrun
    -- The `elseif` opens one more block, in which its own branch and the rest are run.
    obtain ⟨bs₁, hstep, hrun⟩ := Option.bind_eq_some_iff.mp hrun
    match cs, hcs, hstep with
    | [], hcs, _ => exact absurd rfl hcs.nonempty
    | c :: cs, hcs, hstep =>
      rw [List.cons_append] at hstep
      obtain ⟨hc, heq⟩ := Option.ite_none_right_eq_some.mp hstep
      cases heq
      have hcs' : ConditionalRun (.elseIfBranch :: c :: cs) :=
        conditionalRun_cons rfl hcs.conditional
      obtain ⟨hflat', helseIfs', hlast', hrest⟩ := ih hb helseIfs hcs' (by simpa using hrun)
      exact ⟨hflat, List.forall_mem_cons.mpr ⟨hflat', helseIfs'⟩, hlast', hrest⟩

/-- A well-nested stream that runs is flat. -/
theorem WellNested.runsFlat {names : List String} (h : WellNested names) : RunsFlat names := by
  induction h with
  | nil =>
    intro bs bs' hrun
    simp only [runBlocks, Option.some.injEq] at hrun
    exact ⟨.nil, .inl ⟨.nil, hrun.symm⟩⟩
  | leaf hname _ ih =>
    intro bs bs' hrun
    rw [runBlocks, stepBlocks_leaf hname, Option.bind_some] at hrun
    obtain ⟨hflat, hbs⟩ := ih bs bs' hrun
    exact ⟨.leaf hname hflat, hbs.imp_left (And.imp_left (.leaf hname))⟩
  | nocache _ _ ihInner ihRest =>
    intro bs bs' hrun
    rw [List.cons_append, runBlocks, stepBlocks_nocache, Option.bind_some, runBlocks_append] at hrun
    obtain ⟨bs₁, hinner, hrun⟩ := Option.bind_eq_some_iff.mp hrun
    obtain ⟨hflat, hbs₁⟩ := ihInner _ _ hinner
    -- A conditional inside the block cannot reach below it.
    have heq : bs₁ = .nocache :: bs := hbs₁.elim And.right id
    rw [heq, runBlocks, stepBlocks_nocacheClose, Option.bind_some] at hrun
    obtain ⟨hrest, hbs⟩ := ihRest _ _ hrun
    exact ⟨.nocache hflat hrest, hbs.imp_left (And.imp_left (.nocache hflat))⟩
  | @conditional body elseIfs last rest _ _ _ _ ihBody ihElseIfs ihLast ihRest =>
    intro bs bs' hrun
    have hrun' : runBlocks (body ++ elseIfs.flatMap ("elseif" :: ·) ++
        last.elim [] ("else" :: ·) ++ "/if" :: rest) ([.ifBranch] ++ bs) = some bs' := by
      simpa [conditionalNames, runBlocks] using hrun
    obtain ⟨hbody, helseIfs, hlast, hrun⟩ :=
      ihBody.branches ihElseIfs ihLast (conditionalRun_singleton rfl) hrun'
    obtain ⟨hrest, hbs⟩ := ihRest _ _ hrun
    -- The closing tag of the conditional has dropped the run, and dropping it again does nothing.
    have heq : bs' = bs.dropWhile Block.isConditional := by
      obtain ⟨-, heq⟩ | heq := hbs
      · exact heq
      · rw [heq]
        exact outside_dropWhile bs
    exact ⟨.conditional hbody helseIfs hlast hrest, .inr heq⟩

/-! ## What compiles -/

/-- Compiling agrees with nesting exactly on the flat streams. A well-nested stream compiles exactly
    if it is flat, and a stream that compiles is well nested exactly if it is flat. A well-nested
    stream that is not flat fails at a tag that does not fit. -/
theorem compile_ok_iff_flatlyNested {s : Settings} {workingDir : Option String} {engine : Engine}
    (hengine : s.toEngine workingDir = .ok engine) (template : Option String) {tags : List Tag}
    (htags : ∀ tag ∈ tags, engine.Acceptable tag) :
    (WellNested (tags.map (·.name)) →
      ((∃ c, compile engine template tags = .ok c) ↔ FlatlyNested .outer (tags.map (·.name)))) ∧
    ((∃ c, compile engine template tags = .ok c) →
      (WellNested (tags.map (·.name)) ↔ FlatlyNested .outer (tags.map (·.name)))) ∧
    (WellNested (tags.map (·.name)) → ¬ FlatlyNested .outer (tags.map (·.name)) →
      ∃ tag ∈ tags, ∃ innermost, compile engine template tags =
        .error ⟨.unbalanced tag.name innermost, some tag.name, tag.line, template⟩) := by
  have hc := Settings.toEngine_configured hengine
  have hok := compile_ok_iff_runBlocks hc htags template
  -- Flat streams are words, and words run through.
  have hflat : FlatlyNested .outer (tags.map (·.name)) →
      ∃ c, compile engine template tags = .ok c :=
    fun h => hok.mpr (derives_iff_runBlocks.mp h.derives)
  refine ⟨fun hnested => ⟨fun h => ?_, hflat⟩, fun h => ⟨fun hnested => ?_, ?_⟩, ?_⟩
  · exact (hnested.runsFlat _ _ (hok.mp h)).1
  · exact (hnested.runsFlat _ _ (hok.mp h)).1
  · exact FlatlyNested.wellNested
  · intro hnested hnot
    cases hrun : runBlocks (tags.map (·.name)) [] with
    | some bs => exact absurd (hnested.runsFlat _ _ hrun).1 hnot
    | none =>
      obtain ⟨before, tag, after, bs, heq, -, -, herror⟩ :=
        compile_of_runBlocks_eq_none hc htags template hrun
      exact ⟨tag, by simp [heq], _, herror⟩

/-- Two conditionals, one directly inside the other. -/
def nestedIfs : List Tag :=
  [{ name := "if", positional := ["$a"] }, { name := "if", positional := ["$b"] },
    { name := "/if" }, { name := "/if" }]

/-- Both conditionals have their own closing tag. -/
theorem nestedIfs_wellNested : WellNested (nestedIfs.map (·.name)) := by
  have hinner : WellNested (conditionalNames [] [] none ++ []) :=
    .conditional .nil (by simp) (by simp) .nil
  show WellNested (conditionalNames (conditionalNames [] [] none ++ []) [] none ++ [])
  exact .conditional hinner (by simp) (by simp) .nil

/-- Each of the tags is acceptable on its own. -/
theorem nestedIfs_acceptable : ∀ tag ∈ nestedIfs, clockEngine.Acceptable tag :=
  acceptable_of_all_isOk (Settings.toEngine_configured clockSettings_toEngine) (by decide)

/-- The second closing tag finds nothing to close. -/
theorem nestedIfs_not_ok (c : Compiled) : compile clockEngine none nestedIfs ≠ .ok c :=
  fun h => by cases h

/-- The two conditionals are nested well, but not flatly. -/
theorem nestedIfs_not_flatlyNested :
    clockSettings.toEngine none = .ok clockEngine ∧
      (∀ tag ∈ nestedIfs, clockEngine.Acceptable tag) ∧
      WellNested (nestedIfs.map (·.name)) ∧ ¬ FlatlyNested .outer (nestedIfs.map (·.name)) := by
  have hiff := (compile_ok_iff_flatlyNested clockSettings_toEngine none nestedIfs_acceptable).1
  refine ⟨clockSettings_toEngine, nestedIfs_acceptable, nestedIfs_wellNested, fun hflat => ?_⟩
  obtain ⟨c, hcompile⟩ := (hiff nestedIfs_wellNested).mpr hflat
  exact nestedIfs_not_ok c hcompile

/-- Branches that are balanced one by one are balanced together. -/
private theorem count_flatMap_if {branches : List (List String)}
    (h : ∀ b ∈ branches, b.count "if" = b.count "/if") :
    (branches.flatMap ("elseif" :: ·)).count "if" =
      (branches.flatMap ("elseif" :: ·)).count "/if" := by
  induction branches with
  | nil => rfl
  | cons b branches ih =>
    obtain ⟨hb, hbranches⟩ := List.forall_mem_cons.mp h
    have hrest := ih hbranches
    simp only [List.flatMap_cons, List.count_append, hrest]
    simpa using hb

/-- A well-nested stream has as many opening as closing tags of conditionals. -/
theorem WellNested.count_if {names : List String} (h : WellNested names) :
    names.count "if" = names.count "/if" := by
  induction h with
  | nil => rfl
  | @leaf name rest hname _ ih =>
    simp only [IsLeaf, blockTags, List.mem_cons, List.not_mem_nil, or_false, not_or] at hname
    have hif : rest.count "if" = rest.count "/if" := ih
    rw [List.count_cons_of_ne hname.1, List.count_cons_of_ne hname.2.2.2.1, hif]
  | @nocache inner rest _ _ ihInner ihRest =>
    have hif : inner.count "if" + rest.count "if" = inner.count "/if" + rest.count "/if" := by
      rw [ihInner, ihRest]
    simpa using hif
  | @conditional body elseIfs last rest _ _ _ _ ihBody ihElseIfs ihLast ihRest =>
    have helseIfs := count_flatMap_if ihElseIfs
    have hlast : (last.elim [] ("else" :: ·)).count "if" =
        (last.elim [] ("else" :: ·)).count "/if" := by
      cases last with
      | none => rfl
      | some b => simpa using ihLast b rfl
    simp only [conditionalNames, List.cons_append, List.append_assoc, List.count_cons,
      List.count_append, List.count_nil, ihBody, helseIfs, hlast, ihRest]
    -- What is left are the two tags of the conditional itself.
    simp
    omega

/-- Two conditionals nested directly are refused, although they are nested well. Without the last
    closing tag they are compiled, although one of them is never closed. -/
theorem nestedIfs_compile :
    ¬ ((∃ c, compile clockEngine none nestedIfs = .ok c) ↔ WellNested (nestedIfs.map (·.name))) ∧
      ¬ ((∃ c, compile clockEngine none (nestedIfs.take 3) = .ok c) ↔
        WellNested ((nestedIfs.take 3).map (·.name))) := by
  constructor
  · -- A nested conditional is well nested and does not compile.
    intro h
    obtain ⟨c, hcompile⟩ := h.mpr nestedIfs_wellNested
    exact nestedIfs_not_ok c hcompile
  · intro h
    have hcount := (h.mp ⟨_, rfl⟩).count_if
    exact absurd hcount (by decide)

end TagPress
