import Mathlib.Data.List.Forall2
import TagPress.Proofs.TagEffect

/-!
# Trusted modifiers

A security policy passes over the modifier steps that it does not trust. This module shows that
passing over a step is the same as leaving it out of the template: with a policy, a unit is compiled
to what the engine without a gate makes of the tags without their untrusted steps, errors included.
The one place where the two runs differ on the way is a call whose steps are all untrusted. It is
still piped, and that counts as code before the call itself does.

## Key results

- `compileTags_eq_of_alike`: tags whose parts agree are compiled to the same fragments and contexts
- `Engine.applyModifiers_erase`: a chain with untrusted steps, and the chain without them
- `compile_gated_eq_erased`: a policy acts on modifiers as erasure
-/

namespace TagPress

/-! ## Tags that compile alike -/

/-- Two tags on two engines differ in their modifier steps only, and neither the engines nor the
    steps make a difference. -/
structure Alike (e₁ e₂ : Engine) (t₁ t₂ : Tag) : Prop where
  name : t₁.name = t₂.name
  line : t₁.line = t₂.line
  attributes : t₁.attributes = t₂.attributes
  positional : t₁.positional = t₂.positional
  compiler : e₁.compilerOf t₁ = e₂.compilerOf t₂
  function : e₁.registry.functions.get? t₁.name = e₂.registry.functions.get? t₂.name
  modifiers (value : String) :
    e₁.applyModifiers {} t₁.modifiers value = e₂.applyModifiers {} t₂.modifiers value

namespace Alike

variable {e₁ e₂ : Engine} {t₁ t₂ : Tag}

/-- The arguments of alike tags are resolved alike. -/
theorem resolve_eq (h : Alike e₁ e₂ t₁ t₂) (schema : Schema) :
    schema.resolve t₁ = schema.resolve t₂ := by
  simp only [Schema.resolve, h.positional, h.attributes]

/-- Alike tags have the same code of their own, or the same fault. -/
theorem ownCode_eq (h : Alike e₁ e₂ t₁ t₂) : e₁.ownCode t₁ = e₂.ownCode t₂ := by
  have hwrite : ∀ compiler : TagCompiler, compiler.write e₁ t₁ = compiler.write e₂ t₂ := by
    intro compiler
    funext attrs
    cases compiler with
    | print => simp only [TagCompiler.write, h.modifiers]
    | functionCall => simp only [TagCompiler.write, h.modifiers, h.name]
    | _ => rfl
  have hfunction := h.function
  rw [h.name] at hfunction
  simp only [Engine.ownCode, TagCompiler.ownCode, h.compiler, h.name, hfunction, h.resolve_eq,
    hwrite]

/-- Alike tags move the open blocks alike. -/
theorem move_eq (h : Alike e₁ e₂ t₁ t₂) (ctx : Context) : e₁.move t₁ ctx = e₂.move t₂ ctx := by
  simp only [Engine.move, h.compiler, h.line]

end Alike

/-- Whether a compiled tag counts as code: tags that take modifiers always do. A call without
    modifiers is not piped, but its own code is not empty. -/
theorem TagCompiler.pipes_or_code {compiler : TagCompiler} {engine : Engine} {tag : Tag}
    {own : String} (hown : compiler.ownCode engine tag = .ok own) (braces : String) :
    (compiler.pipes tag || !(own ++ braces).isEmpty) =
      (decide (compiler = .print) || decide (compiler = .functionCall) ||
        !(own ++ braces).isEmpty) := by
  by_cases hcall : compiler = .functionCall
  · subst hcall
    obtain ⟨-, attrs, -, hwrite⟩ := ownCode_eq_ok_iff.mp hown
    -- A call with modifiers counts as code whatever they write.
    cases hsteps : tag.modifiers with
    | nil =>
      -- Without steps the code is the bare call, which is never empty.
      have heq : handlerCall tag.name attrs = own := by
        simpa [write, hsteps, Engine.applyModifiers] using hwrite
      have hne : own ≠ "" := by
        rw [← heq]
        unfold handlerCall
        simp
      have hcode : (own ++ braces).isEmpty = false := by
        rw [← Bool.not_eq_true, String.isEmpty_iff, String.append_eq_empty_iff]
        exact fun h => hne h.1
      simp [hcode]
    | cons step steps => simp [pipes, hsteps]
  · simp [pipes, hcall]

namespace Alike

variable {e₁ e₂ : Engine} {t₁ t₂ : Tag}

/-- Alike tags leave the same fragment. -/
theorem emitted_eq (h : Alike e₁ e₂ t₁ t₂) (code : String) (ctx : Context) (m : Move) :
    emitted t₁ code (e₁.after t₁ ctx m) = emitted t₂ code (e₂.after t₂ ctx m) := by
  have hfunction := h.function
  rw [h.name] at hfunction
  simp only [emitted, Engine.after, TagCompiler.after, TagCompiler.marks, h.compiler, h.line,
    h.name, hfunction, h.resolve_eq]

/-- Alike tags leave the same context behind, once their code is noted. -/
theorem noteCode_eq (h : Alike e₁ e₂ t₁ t₂) {own : String} (hown : e₁.ownCode t₁ = .ok own)
    (ctx : Context) (m : Move) :
    (e₁.after t₁ ctx m).noteCode (own ++ closingBraces m.closed) =
      (e₂.after t₂ ctx m).noteCode (own ++ closingBraces m.closed) := by
  have hown₂ : e₂.ownCode t₂ = .ok own := by rw [← h.ownCode_eq, hown]
  -- The steps of the two tags may differ, and with them whether something is piped; noting the code
  -- makes up for it.
  have hpipes : ((e₂.compilerOf t₂).pipes t₁ || !(own ++ closingBraces m.closed).isEmpty) =
      ((e₂.compilerOf t₂).pipes t₂ || !(own ++ closingBraces m.closed).isEmpty) := by
    rw [← h.compiler, TagCompiler.pipes_or_code hown, h.compiler, TagCompiler.pipes_or_code hown₂]
  have hfunction := h.function
  rw [h.name] at hfunction
  simp only [Context.noteCode, Engine.after, TagCompiler.after, TagCompiler.marks, Bool.or_assoc,
    h.compiler, hpipes, h.line, h.name, hfunction, h.resolve_eq]

end Alike

/-- Units of alike tags are compiled to the same fragments and contexts, or fail alike. -/
theorem compileTags_eq_of_alike {e₁ e₂ : Engine} (hp₁ : e₁.Plain) (hp₂ : e₂.Plain)
    {tags₁ tags₂ : List Tag} (h : List.Forall₂ (Alike e₁ e₂) tags₁ tags₂) (ctx : Context) :
    compileTags e₁ tags₁ ctx = compileTags e₂ tags₂ ctx := by
  -- The two runs share the context at every place, so the induction needs no relation between two.
  induction h generalizing ctx with
  | nil => rfl
  | @cons t₁ t₂ tags₁ tags₂ halike _ ih =>
    have hfault : ∀ fault, faultAt t₁ ctx.template fault = faultAt t₂ ctx.template fault := by
      intro fault
      rw [faultAt, faultAt, halike.name, halike.line]
    -- A tag fails for lack of code, or at the open blocks, or it is compiled.
    cases hown : e₁.ownCode t₁ with
    | error fault =>
      have hown₂ : e₂.ownCode t₂ = .error fault := by rw [← halike.ownCode_eq, hown]
      rw [compileTags_cons_of_error (dispatch_fst_of_ownCode_error hp₁ hown),
        compileTags_cons_of_error (dispatch_fst_of_ownCode_error hp₂ hown₂)]
      exact congrArg Except.error (hfault fault)
    | ok own =>
      have hown₂ : e₂.ownCode t₂ = .ok own := by rw [← halike.ownCode_eq, hown]
      cases hmove : e₁.move t₁ { ctx with tagNocache := false } with
      | error fault =>
        have hmove₂ : e₂.move t₂ { ctx with tagNocache := false } = .error fault := by
          rw [← halike.move_eq, hmove]
        rw [compileTags_cons_of_error (dispatch_fst_of_move_error hp₁ hown hmove),
          compileTags_cons_of_error (dispatch_fst_of_move_error hp₂ hown₂ hmove₂)]
        exact congrArg Except.error (hfault fault)
      | ok m =>
        have hmove₂ : e₂.move t₂ { ctx with tagNocache := false } = .ok m := by
          rw [← halike.move_eq, hmove]
        rw [compileTags_cons_of_ok (dispatch_of_ok hp₁ hown hmove),
          compileTags_cons_of_ok (dispatch_of_ok hp₂ hown₂ hmove₂), halike.emitted_eq,
          halike.noteCode_eq hown, ih]

/-- Templates of alike tags have the same result. -/
theorem compile_eq_of_alike {e₁ e₂ : Engine} (hp₁ : e₁.Plain) (hp₂ : e₂.Plain)
    {tags₁ tags₂ : List Tag} (h : List.Forall₂ (Alike e₁ e₂) tags₁ tags₂)
    (template : Option String) :
    compile e₁ template tags₁ = compile e₂ template tags₂ := by
  rw [compile_eq, compile_eq, compileTags_eq_of_alike hp₁ hp₂ h]

/-! ## Erasing untrusted steps -/

namespace Policy

/-- The policy disables the modifier, or allows others and not this one. -/
def Distrusts (p : Policy) (name : String) : Prop :=
  name ∈ p.disabledModifiers ∨ p.allowedModifiers ≠ [] ∧ name ∉ p.allowedModifiers

instance (p : Policy) (name : String) : Decidable (p.Distrusts name) :=
  inferInstanceAs (Decidable (_ ∨ _))

/-- A policy trusts what it does not distrust. -/
theorem trustsModifier_eq (p : Policy) (name : String) :
    p.trustsModifier name = !decide (p.Distrusts name) := by
  rw [Bool.eq_iff_iff]
  simp only [trustsModifier, Distrusts, Bool.and_eq_true, Bool.not_eq_true', Bool.or_eq_true,
    List.contains_eq_mem, List.isEmpty_iff, decide_eq_true_eq, decide_eq_false_iff_not]
  by_cases hempty : p.allowedModifiers = [] <;> simp [hempty]

/-- The tag without the modifier steps that the policy does not trust. -/
def eraseUntrusted (p : Policy) (tag : Tag) : Tag :=
  { tag with modifiers := tag.modifiers.filter fun step => !decide (p.Distrusts step.name) }

end Policy

/-- Passing over untrusted steps is the same as erasing them, whatever is registered for them. -/
theorem Engine.applyModifiers_erase {gated free : Engine} {p : Policy}
    (hgated : gated.gate = some p.gate) (hfree : free.gate = none)
    (hmodifiers : ∀ name, ¬ p.Distrusts name →
      gated.registry.resolveModifier? name = free.registry.resolveModifier? name)
    (steps : List Invocation) (value : String) :
    gated.applyModifiers {} steps value =
      free.applyModifiers {} (steps.filter fun step => !decide (p.Distrusts step.name)) value := by
  induction steps generalizing value with
  | nil => rfl
  | cons step steps ih =>
    have htrust : gated.trustsModifier {} step.name = !decide (p.Distrusts step.name) := by
      rw [trustsModifier, hgated]
      exact p.trustsModifier_eq step.name
    by_cases hstep : p.Distrusts step.name
    · -- Passed over on the left, erased on the right.
      rw [List.filter_cons_of_neg (by simp [hstep])]
      simp only [applyModifiers, htrust, hstep, decide_true, Bool.not_true, Bool.not_false, if_true]
      exact ih value
    · rw [List.filter_cons_of_pos (by simp [hstep])]
      have hfreetrust : free.trustsModifier {} step.name = true := by rw [trustsModifier, hfree]
      simp only [applyModifiers, htrust, hstep, hfreetrust, decide_false, Bool.not_true,
        Bool.not_false, Bool.false_eq_true, if_false, hmodifiers step.name hstep]
      cases free.registry.resolveModifier? step.name with
      | none => rfl
      | some handler =>
        cases happly : handler.apply step.name (step.argsWith value) with
        | error fault => simp only [happly]
        | ok code => simp only [happly, ih code]

/-- The tags of a unit with a policy, and without a gate when their untrusted steps are erased. -/
theorem alike_eraseUntrusted (gated free : Engine) {p : Policy} (hgated : gated.gate = some p.gate)
    (hfree : free.gate = none) (htags : gated.registry.tags = free.registry.tags)
    (hfunctions : gated.registry.functions = free.registry.functions)
    (hmodifiers : ∀ name, ¬ p.Distrusts name →
      gated.registry.resolveModifier? name = free.registry.resolveModifier? name)
    (tags : List Tag) : List.Forall₂ (Alike gated free) tags (tags.map p.eraseUntrusted) := by
  rw [List.forall₂_map_right_iff, List.forall₂_same]
  intro tag _
  -- The two engines differ in their gates and the tags in their modifiers; the rest is the same.
  exact
    { name := rfl
      line := rfl
      attributes := rfl
      positional := rfl
      compiler := by
        rw [Engine.compilerOf, Engine.compilerOf, Engine.handlerOf, Engine.handlerOf, htags]
        rfl
      function := by rw [hfunctions]; rfl
      modifiers := Engine.applyModifiers_erase hgated hfree hmodifiers tag.modifiers }

/-- A policy acts on modifiers as erasure: with the policy, a unit is compiled to what the same
    engine without a gate makes of the tags without their untrusted steps, and it fails with the
    same error. So the result depends neither on the untrusted steps of the tags nor on what is
    registered under untrusted names. This is about the built-in ways to compile a tag: a compiler
    of one's own can look at the steps of its tag before the gate does. -/
theorem compile_gated_eq_erased {engine : Engine} (hbuiltIn : engine.registry.BuiltInTags)
    (p : Policy) (template : Option String) (tags : List Tag) :
    compile { engine with gate := some p.gate } template tags =
      compile { engine with gate := none } template (tags.map p.eraseUntrusted) ∧
    (∀ tags', tags'.map p.eraseUntrusted = tags.map p.eraseUntrusted →
      compile { engine with gate := some p.gate } template tags' =
        compile { engine with gate := some p.gate } template tags) ∧
    (∀ registry : Registry, registry.tags = engine.registry.tags →
      registry.functions = engine.registry.functions →
      (∀ name, ¬ p.Distrusts name →
        registry.resolveModifier? name = engine.registry.resolveModifier? name) →
      compile { engine with gate := some p.gate, registry } template tags =
        compile { engine with gate := some p.gate } template tags) := by
  have hgated : ∀ registry : Registry, registry.BuiltInTags →
      { engine with gate := some p.gate, registry }.Plain := fun registry htags =>
    ⟨htags, Engine.steady_of_policy (some p) rfl⟩
  have hfree : { engine with gate := none }.Plain :=
    ⟨hbuiltIn, Engine.steady_of_policy none rfl⟩
  -- The other two parts follow from this one, by comparing what is left after erasing.
  have herase : ∀ tags, compile { engine with gate := some p.gate } template tags =
      compile { engine with gate := none } template (tags.map p.eraseUntrusted) := by
    intro tags
    have halike := alike_eraseUntrusted { engine with gate := some p.gate }
      { engine with gate := none } rfl rfl rfl rfl (fun _ _ => rfl) tags
    exact compile_eq_of_alike (hgated engine.registry hbuiltIn) hfree halike template
  refine ⟨herase tags, fun tags' htags' => ?_, fun registry htags hfunctions hmodifiers => ?_⟩
  · rw [herase tags', htags', herase tags]
  · have halike := alike_eraseUntrusted { engine with gate := some p.gate, registry }
      { engine with gate := none } rfl rfl htags hfunctions hmodifiers tags
    -- The registry has the same tags, which are all built in.
    have hregistry : registry.BuiltInTags := by rwa [Registry.BuiltInTags, htags]
    rw [herase tags]
    exact compile_eq_of_alike (hgated registry hregistry) hfree halike template

/-- A policy that disables one modifier. -/
def noExec : Policy :=
  { disabledModifiers := ["exec"] }

/-- A call and a print whose chains hold the disabled modifier, with the given argument. -/
def execChains (argument : String) : List Tag :=
  [{ name := "clock", modifiers := [⟨"exec", ["", argument]⟩] },
    { name := "print", positional := ["$x"],
      modifiers := [⟨"exec", []⟩, ⟨"cat", ["", "'!'"]⟩] }]

/-- No argument of the disabled modifier and no callback of its name changes the code, and the
    modifier need not exist. -/
theorem execChains_compile :
    (compile { clockEngine with gate := some noExec.gate } none (execChains "'a'")).map (·.code) =
        .ok (handlerCall "clock" .empty ++ "echo ($x . '!');") ∧
      (execChains "'a'").map noExec.eraseUntrusted =
        [{ name := "clock" },
          { name := "print", positional := ["$x"], modifiers := [⟨"cat", ["", "'!'"]⟩] }] ∧
      compile { clockEngine with gate := some noExec.gate } none (execChains "'a'") =
        compile { clockEngine with gate := none } none
          ((execChains "'a'").map noExec.eraseUntrusted) ∧
      compile { clockEngine with gate := some noExec.gate } none (execChains "'b'") =
        compile { clockEngine with gate := some noExec.gate } none (execChains "'a'") ∧
      clockEngine.registry.resolveModifier? "exec" = none ∧
      compile { clockEngine with
          gate := some noExec.gate, registry := clockEngine.registry.registerCallback "exec" } none
          (execChains "'a'") =
        compile { clockEngine with gate := some noExec.gate } none (execChains "'a'") := by
  obtain ⟨herase, hargument, hregistry⟩ :=
    compile_gated_eq_erased (by decide : clockEngine.registry.BuiltInTags) noExec none
      (execChains "'a'")
  refine ⟨by decide, by decide, herase, hargument _ (by decide), by decide, ?_⟩
  refine hregistry _ rfl rfl fun name hname => ?_
  -- The name that is added is not trusted, so no trusted name is looked up differently.
  have hne : name ≠ "exec" := fun heq => hname (.inl (by rw [heq]; decide))
  simp [Registry.resolveModifier?, Registry.registerCallback, Registry.hasCallback,
    Registry.defaultPlugin?, hne]

end TagPress
