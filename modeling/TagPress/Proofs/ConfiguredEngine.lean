import TagPress.Dispatch
import TagPress.Settings

/-!
# Engines made from settings

Settings add callbacks, functions and call targets to the built-in registry. They never add a tag,
an inline modifier or a legacy compiler, and their gate is a policy. So every engine that settings
describe compiles a tag in the way its name alone says, trusts a modifier in all contexts or in
none, and knows four kinds of modifiers, none of which writes empty code.

## Key results

- `Settings.registry_induction`: what everything that settings register keeps
- `Settings.toEngine_configured`: an engine made from settings is `Configured`
- `Engine.Plain.handlerOf_eq`: without compilers of one's own, a tag is compiled in a built-in way
- `Engine.compilerOf_eq`: how a tag is compiled, read off its name
- `Engine.applyModifiers_ok_of_resolves`, `Engine.resolves_of_applyModifiers_ok`: a chain applies
  exactly if each of its steps resolves and takes its arguments
- `Engine.applyModifiers_ne_empty`: a chain of modifiers turns code into code
-/

namespace TagPress

/-! ## Plain engines -/

namespace TagHandler

/-- Whether a tag is compiled in a built-in way. -/
def isBuiltIn : TagHandler → Bool
  | builtIn _ => true
  | custom _ => false

/-- The built-in way that a handler stands for. A compiler of one's own has none, and counts as a
    function call. -/
def compiler : TagHandler → TagCompiler
  | builtIn compiler => compiler
  | custom _ => .functionCall

/-- A built-in handler stands for its own way. -/
@[simp] theorem compiler_builtIn (c : TagCompiler) : (builtIn c).compiler = c := rfl

/-- A built-in handler is determined by the way it stands for. -/
theorem eq_builtIn {handler : TagHandler} (h : handler.isBuiltIn = true) :
    handler = .builtIn handler.compiler := by
  cases handler with
  | builtIn compiler => rfl
  | custom rule => cases h

end TagHandler

/-- All tags are compiled in built-in ways, under whatever names. -/
def Registry.BuiltInTags (r : Registry) : Prop :=
  ∀ handler ∈ r.tags.values, handler.isBuiltIn = true

instance (r : Registry) : Decidable r.BuiltInTags :=
  inferInstanceAs (Decidable (∀ handler ∈ r.tags.values, handler.isBuiltIn = true))

namespace Engine

/-- The built-in way in which a tag is compiled. -/
def compilerOf (engine : Engine) (tag : Tag) : TagCompiler :=
  (engine.handlerOf tag).compiler

/-- The gate trusts a modifier in all contexts or in none. -/
def Steady (engine : Engine) : Prop :=
  ∀ ctx name, engine.trustsModifier ctx name = engine.trustsModifier {} name

/-- An engine without compilers of one's own whose gate does not look at the context. -/
structure Plain (engine : Engine) : Prop where
  tags : engine.registry.BuiltInTags
  steady : engine.Steady

/-- An engine with a policy for its gate, or with none. -/
theorem steady_of_policy {engine : Engine} (policy : Option Policy)
    (h : engine.gate = policy.map Policy.gate) : engine.Steady := by
  intro ctx name
  rw [trustsModifier, trustsModifier, h]
  cases policy <;> rfl

/-- Where all registered tags are built-in, every tag is compiled in a built-in way. -/
theorem handlerOf_eq_of_builtIn {engine : Engine} (h : engine.registry.BuiltInTags) (tag : Tag) :
    engine.handlerOf tag = .builtIn (engine.compilerOf tag) := by
  apply TagHandler.eq_builtIn
  rw [handlerOf]
  cases htag : engine.registry.tags.get? tag.name with
  -- A name that no tag is registered for is the name of a function.
  | none => rfl
  | some handler =>
    exact h handler (List.mem_map.mpr ⟨_, OrderedMap.mem_of_get? htag, rfl⟩)

/-- A plain engine compiles every tag in a built-in way. -/
theorem Plain.handlerOf_eq {engine : Engine} (h : engine.Plain) (tag : Tag) :
    engine.handlerOf tag = .builtIn (engine.compilerOf tag) :=
  handlerOf_eq_of_builtIn h.tags tag

/-- A chain has the same outcome in every context. -/
theorem Steady.applyModifiers_eq {engine : Engine} (h : engine.Steady) (ctx : Context)
    (steps : List Invocation) (value : String) :
    engine.applyModifiers ctx steps value = engine.applyModifiers {} steps value := by
  induction steps generalizing value with
  | nil => rfl
  | cons step steps ih => simp only [applyModifiers, h ctx step.name, ih]

end Engine

/-- Applying modifiers in a context that the gate does not look at. -/
theorem Context.applyModifiers_eq {engine : Engine} (h : engine.Steady) (ctx : Context)
    (steps : List Invocation) (value : String) :
    ctx.applyModifiers engine steps value =
      ((engine.applyModifiers {} steps value).mapError ctx.failure,
        { ctx with hasCode := true }) := by
  rw [applyModifiers, h.applyModifiers_eq]

/-! ## Configured engines -/

/-- The tags and inline modifiers are the built-in ones, and the default handler has no legacy
    compiler. -/
structure Registry.Configured (r : Registry) : Prop where
  tags : r.tags = Registry.builtins.tags
  inlineModifiers : r.inlineModifiers = Registry.builtins.inlineModifiers
  noCompiler (name : String) : r.defaultPlugin? name .modifierCompiler = none

/-- A configured registry, and a gate that does not look at the context. -/
structure Engine.Configured (engine : Engine) : Prop extends engine.registry.Configured where
  steady : engine.Steady

/-- A configured engine is plain. -/
theorem Engine.Configured.plain {engine : Engine} (h : engine.Configured) : engine.Plain where
  tags := by
    rw [Registry.BuiltInTags, h.tags]
    decide
  steady := h.steady

namespace Registry

/-- The built-in registry is configured. -/
theorem builtins_configured : builtins.Configured :=
  ⟨rfl, rfl, fun _ => rfl⟩

/-- A legacy call target is no legacy compiler. -/
theorem Configured.registerPlugin {r : Registry} (h : r.Configured) (name : String)
    (plugin : DefaultPlugin) : (r.registerPlugin .modifier name plugin).Configured := by
  refine ⟨h.tags, h.inlineModifiers, fun other => ?_⟩
  simp only [defaultPlugin?, Registry.registerPlugin]
  rw [OrderedMap.get?_insert]
  exact h.noCompiler other

end Registry

namespace Settings

/-- The registry of an engine made from settings has their modifiers added last, and its gate is a
    policy. -/
theorem parts_of_toEngine {s : Settings} {workingDir : Option String} {engine : Engine}
    (h : s.toEngine workingDir = .ok engine) :
    addModifiers s.modifiers s.baseRegistry = .ok engine.registry ∧
      ∃ policy : Option Policy, engine.gate = policy.map Policy.gate := by
  simp only [toEngine] at h
  cases hreg : addModifiers s.modifiers s.baseRegistry with
  | error e => simp only [hreg, Except.map, reduceCtorEq] at h
  | ok registry =>
    simp only [hreg, Except.map, Except.ok.injEq] at h
    rw [← h]
    exact ⟨rfl, _, rfl⟩

section Induction

variable {P : Registry → Prop}

/-- What every registered call target keeps is kept by the modifiers of the settings. -/
theorem addModifiers_induction
    (htarget : ∀ r name text target, CallTarget.parse text = .ok target → P r →
      P (r.registerPlugin .modifier name (.callable target)))
    {modifiers : List (String × String)} {r r' : Registry} (hr : P r)
    (h : addModifiers modifiers r = .ok r') : P r' := by
  -- By induction on the modifiers, which are registered from the first to the last.
  induction modifiers generalizing r with
  | nil =>
    simp only [addModifiers, Except.ok.injEq] at h
    exact h ▸ hr
  | cons modifier modifiers ih =>
    obtain ⟨name, text⟩ := modifier
    simp only [addModifiers] at h
    cases hparse : CallTarget.parse text with
    | error e => simp only [hparse, reduceCtorEq] at h
    | ok target =>
      simp only [hparse] at h
      exact ih (htarget r name text target hparse hr) h

/-- What holds of the built-in registry, and is kept by everything that settings register, holds of
    the registry of an engine made from settings. -/
theorem registry_induction (hbuiltins : P .builtins)
    (hcallback : ∀ r name, P r → P (r.registerCallback name))
    (hfunction : ∀ r name handler, P r → P (r.registerFunction name handler))
    (htarget : ∀ r name text target, CallTarget.parse text = .ok target → P r →
      P (r.registerPlugin .modifier name (.callable target)))
    {s : Settings} {workingDir : Option String} {engine : Engine}
    (h : s.toEngine workingDir = .ok engine) : P engine.registry := by
  -- The three kinds of registrations come one after the other.
  have hcallbacks : P (s.callbacks.foldl Registry.registerCallback .builtins) :=
    List.foldlRecOn s.callbacks _ hbuiltins fun r hr name _ => hcallback r name hr
  have hbase : P s.baseRegistry :=
    List.foldlRecOn s.functions _ hcallbacks fun r hr f _ => hfunction r f.1 ⟨f.2⟩ hr
  exact addModifiers_induction htarget hbase (parts_of_toEngine h).1

end Induction

/-- An engine made from settings is configured. -/
theorem toEngine_configured {s : Settings} {workingDir : Option String} {engine : Engine}
    (h : s.toEngine workingDir = .ok engine) : engine.Configured := by
  have hregistry : engine.registry.Configured := by
    refine registry_induction Registry.builtins_configured ?_ ?_ ?_ h
    · exact fun r name hr => ⟨hr.tags, hr.inlineModifiers, hr.noCompiler⟩
    · exact fun r name handler hr => ⟨hr.tags, hr.inlineModifiers, hr.noCompiler⟩
    · exact fun r name _ target _ hr => hr.registerPlugin name (.callable target)
  obtain ⟨policy, hgate⟩ := (parts_of_toEngine h).2
  exact ⟨hregistry, Engine.steady_of_policy policy hgate⟩

end Settings

/-- Settings with one function, whose output must not be cached. -/
def clockSettings : Settings :=
  { functions := [("clock", false)] }

/-- The engine of these settings. -/
def clockEngine : Engine :=
  { registry := clockSettings.baseRegistry }

/-- These settings make this engine. -/
theorem clockSettings_toEngine : clockSettings.toEngine none = .ok clockEngine := rfl

/-! ## Tags by name -/

/-- The way to compile a tag of the given name when only the built-in tags are registered. -/
def TagCompiler.ofName (name : String) : TagCompiler :=
  if name = "if" then .ifOpen
  else if name = "elseif" then .elseIf
  else if name = "else" then .elseBranch
  else if name = "/if" then .ifClose
  else if name = "nocache" then .nocacheOpen
  else if name = "/nocache" then .nocacheClose
  else if name = "print" then .print
  else .functionCall

/-- A look-up with a default, one entry at a time. -/
private theorem getD_lookup_cons {β : Type} (name k : String) (v d : β)
    (entries : List (String × β)) :
    (((k, v) :: entries).lookup name).getD d =
      if name = k then v else (entries.lookup name).getD d := by
  rw [List.lookup_cons]
  by_cases h : name = k
  · simp [h]
  · simp [h, beq_eq_false_iff_ne.mpr h]

/-- How a tag is compiled, read off its name. -/
theorem Engine.compilerOf_eq {engine : Engine} (h : engine.Configured) (tag : Tag) :
    engine.compilerOf tag = .ofName tag.name := by
  -- Written out, the look-up is the chain of comparisons of `ofName`.
  have htags : Registry.builtins.tags =
      ⟨[("if", .builtIn .ifOpen), ("elseif", .builtIn .elseIf), ("else", .builtIn .elseBranch),
        ("/if", .builtIn .ifClose), ("nocache", .builtIn .nocacheOpen),
        ("/nocache", .builtIn .nocacheClose), ("print", .builtIn .print)]⟩ := rfl
  simp only [Engine.compilerOf, Engine.handlerOf, h.tags, htags, OrderedMap.get?,
    TagCompiler.ofName, getD_lookup_cons, List.lookup_nil, Option.getD_none,
    apply_ite TagHandler.compiler, TagHandler.compiler_builtIn]

/-! ## Modifiers -/

namespace ModifierHandler

/-- The handlers that occur in an engine made from settings. -/
def Standard (handler : ModifierHandler) : Prop :=
  handler = .inline concatModifier ∨ handler = .inline defaultModifier ∨
    handler = .callback ∨ ∃ target, handler = .callable target

/-- Whether a standard handler takes its arguments depends on their number, not on the piped
    value. -/
theorem Standard.apply_ok_congr {handler : ModifierHandler} (h : handler.Standard) {name : String}
    {value code : String} {args : List String} (hok : handler.apply name (value :: args) = .ok code)
    (value' : String) : ∃ code', handler.apply name (value' :: args) = .ok code' := by
  obtain rfl | rfl | rfl | ⟨target, rfl⟩ := h
  · exact ⟨_, rfl⟩
  · -- Only this one counts its arguments, and the piped value is not among those it counts.
    match args, hok with
    | [], _ => exact ⟨_, rfl⟩
    | [_], _ => exact ⟨_, rfl⟩
  · exact ⟨_, rfl⟩
  · exact ⟨_, rfl⟩

/-- A standard handler writes code. -/
theorem Standard.apply_ne_empty {handler : ModifierHandler} (h : handler.Standard) {name : String}
    {code : String} {args : List String} (hok : handler.apply name args = .ok code) :
    code ≠ "" := by
  -- Each kind of handler puts text of its own around the arguments.
  obtain rfl | rfl | rfl | ⟨target, rfl⟩ := h
  · simp only [apply, concatModifier, Except.ok.injEq] at hok
    simp [← hok]
  · match args, hok with
    | [value], hok =>
      simp only [apply, defaultModifier, Except.ok.injEq] at hok
      simp [← hok]
    | [value, fallback], hok =>
      simp only [apply, defaultModifier, Except.ok.injEq] at hok
      simp [← hok]
  · simp only [apply, Except.ok.injEq] at hok
    subst hok
    unfold callbackCall
    simp
  · simp only [apply, CallTarget.call_eq, Except.ok.injEq] at hok
    simp [← hok]

end ModifierHandler

namespace Registry

/-- The built-in inline modifiers are the two that are compiled into the engine. -/
private theorem builtins_inline_cases {name : String} {rule : InlineModifier}
    (h : builtins.inlineModifiers.get? name = some rule) :
    rule = concatModifier ∨ rule = defaultModifier := by
  -- The map is written out, so that looking a name up is a chain of tests.
  have hinline : builtins.inlineModifiers =
      ⟨[("cat", concatModifier), ("default", defaultModifier)]⟩ := rfl
  simp only [hinline, OrderedMap.get?, List.lookup_cons, List.lookup_nil] at h
  split at h
  · exact .inl (Option.some.inj h).symm
  · split at h
    · exact .inr (Option.some.inj h).symm
    · cases h

/-- An engine made from settings knows standard modifiers only. -/
theorem Configured.resolveModifier?_standard {r : Registry} (h : r.Configured) {name : String}
    {handler : ModifierHandler} (hname : r.resolveModifier? name = some handler) :
    handler.Standard := by
  simp only [resolveModifier?, h.inlineModifiers, h.noCompiler] at hname
  cases hinline : builtins.inlineModifiers.get? name with
  | some rule =>
    simp only [hinline, Option.some.injEq] at hname
    cases builtins_inline_cases hinline with
    | inl hrule => exact .inl (by rw [← hname, hrule])
    | inr hrule => exact .inr (.inl (by rw [← hname, hrule]))
  | none =>
    simp only [hinline] at hname
    by_cases hcallback : r.hasCallback name = true
    · rw [if_pos hcallback] at hname
      exact .inr (.inr (.inl (Option.some.inj hname).symm))
    · rw [if_neg hcallback] at hname
      -- The question for a legacy compiler is answered with nothing, so a target is left.
      split at hname
      · rename_i target _
        exact .inr (.inr (.inr ⟨target, (Option.some.inj hname).symm⟩))
      · cases hname

end Registry

namespace Engine

/-- A chain gives code in one of two ways: the first step is passed over, or its modifier is known
    and writes the expression for the other steps. -/
theorem applyModifiers_cons_eq_ok_iff {engine : Engine} {ctx : Context} {step : Invocation}
    {steps : List Invocation} {value code : String} :
    engine.applyModifiers ctx (step :: steps) value = .ok code ↔
      (engine.trustsModifier ctx step.name = false ∧
          engine.applyModifiers ctx steps value = .ok code) ∨
        ∃ handler next, engine.trustsModifier ctx step.name = true ∧
          engine.registry.resolveModifier? step.name = some handler ∧
          handler.apply step.name (step.argsWith value) = .ok next ∧
          engine.applyModifiers ctx steps next = .ok code := by
  rw [applyModifiers]
  cases engine.trustsModifier ctx step.name with
  | false => simp
  | true =>
    cases engine.registry.resolveModifier? step.name with
    | none => simp
    | some handler => cases happly : handler.apply step.name (step.argsWith value) <;> simp [happly]

/-- A step of a chain is passed over, or its modifier is known. -/
def Resolves (engine : Engine) (step : Invocation) : Prop :=
  engine.trustsModifier {} step.name = true →
    ∃ handler, engine.registry.resolveModifier? step.name = some handler

/-- A step of a chain is passed over, or its modifier takes the step's arguments if it is known. -/
def TakesArguments (engine : Engine) (step : Invocation) : Prop :=
  engine.trustsModifier {} step.name = true →
    ∀ handler, engine.registry.resolveModifier? step.name = some handler →
      ∀ value, ∃ code, handler.apply step.name (step.argsWith value) = .ok code

/-- A chain whose steps resolve and take their arguments applies to every expression. -/
theorem applyModifiers_ok_of_resolves {engine : Engine} {steps : List Invocation}
    (hresolves : ∀ step ∈ steps, engine.Resolves step)
    (htakes : ∀ step ∈ steps, engine.TakesArguments step) (value : String) :
    ∃ code, engine.applyModifiers {} steps value = .ok code := by
  -- Every step is applied to the code of the steps before it.
  induction steps generalizing value with
  | nil => exact ⟨value, rfl⟩
  | cons step steps ih =>
    obtain ⟨hstep, hsteps⟩ := List.forall_mem_cons.mp hresolves
    obtain ⟨hargs, hothers⟩ := List.forall_mem_cons.mp htakes
    cases htrust : engine.trustsModifier {} step.name with
    | false =>
      obtain ⟨code, hcode⟩ := ih hsteps hothers value
      exact ⟨code, applyModifiers_cons_eq_ok_iff.mpr (.inl ⟨htrust, hcode⟩)⟩
    | true =>
      obtain ⟨handler, hhandler⟩ := hstep htrust
      obtain ⟨next, happly⟩ := hargs htrust handler hhandler value
      obtain ⟨code, hcode⟩ := ih hsteps hothers next
      exact ⟨code, applyModifiers_cons_eq_ok_iff.mpr
        (.inr ⟨handler, next, htrust, hhandler, happly, hcode⟩)⟩

/-- On an engine made from settings, a chain that applies to one expression has only steps that
    resolve and take their arguments. -/
theorem resolves_of_applyModifiers_ok {engine : Engine} (hc : engine.Configured)
    {steps : List Invocation} {value code : String}
    (h : engine.applyModifiers {} steps value = .ok code) :
    ∀ step ∈ steps, engine.Resolves step ∧ engine.TakesArguments step := by
  induction steps generalizing value with
  | nil => simp
  | cons step steps ih =>
    obtain ⟨htrust, hrest⟩ | ⟨handler, next, -, hhandler, happly, hrest⟩ :=
      applyModifiers_cons_eq_ok_iff.mp h
    · -- A step that is passed over has nothing to resolve.
      have hpassed : engine.Resolves step ∧ engine.TakesArguments step :=
        ⟨fun ht => absurd ht (by simp [htrust]), fun ht => absurd ht (by simp [htrust])⟩
      exact List.forall_mem_cons.mpr ⟨hpassed, ih hrest⟩
    · -- The chain shows this for one expression only; that the handler is standard gives all.
      have htakes : engine.TakesArguments step := by
        intro _ other hother value'
        obtain rfl : handler = other := Option.some.inj (hhandler.symm.trans hother)
        exact (hc.resolveModifier?_standard hhandler).apply_ok_congr happly value'
      exact List.forall_mem_cons.mpr ⟨⟨fun _ => ⟨handler, hhandler⟩, htakes⟩, ih hrest⟩

/-- On an engine made from settings, a chain of modifiers turns code into code. -/
theorem applyModifiers_ne_empty {engine : Engine} (hc : engine.Configured) {ctx : Context}
    {steps : List Invocation} {value code : String} (hvalue : value ≠ "")
    (h : engine.applyModifiers ctx steps value = .ok code) : code ≠ "" := by
  induction steps generalizing value with
  | nil =>
    simp only [applyModifiers, Except.ok.injEq] at h
    exact h ▸ hvalue
  | cons step steps ih =>
    -- A step that is not trusted keeps the value; any other gives code of its own.
    obtain ⟨-, hrest⟩ | ⟨handler, next, -, hhandler, happly, hrest⟩ :=
      applyModifiers_cons_eq_ok_iff.mp h
    · exact ih hvalue hrest
    · exact ih ((hc.resolveModifier?_standard hhandler).apply_ne_empty happly) hrest

end Engine

end TagPress
