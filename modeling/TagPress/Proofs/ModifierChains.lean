import Mathlib.Data.List.Forall2
import TagPress.Proofs.TagEffect

/-!
# Chains of modifiers

A chain is applied step by step, so a chain in two parts is the first part and then the second on
what it wrote. A step overwrites the slot of the piped value and never reads it. On an engine made
from settings a step knows nothing of the piped value either: it fails for every value alike, or it
writes the same text around every value. So a chain never loses what is piped through it.

## Key results

- `Engine.applyModifiers_append`: a chain in two parts
- `Engine.applyModifiers_congr`: chains that differ in their slots only
- `Engine.wraps_applyModifiers`: a chain writes a text around the value, whatever the value is
- `modifierChain_composes`: the three together, for chains that are compiled in a context
-/

namespace TagPress

/-! ## Chains in parts -/

namespace Engine

/-- A trusted step whose modifier is known is compiled by the modifier's handler. -/
theorem applyModifiers_singleton_of_known {engine : Engine} {ctx : Context} {step : Invocation}
    {handler : ModifierHandler} (htrust : engine.trustsModifier ctx step.name = true)
    (hhandler : engine.registry.resolveModifier? step.name = some handler) (value : String) :
    engine.applyModifiers ctx [step] value = handler.apply step.name (step.argsWith value) := by
  cases hcode : handler.apply step.name (step.argsWith value) with
  | error fault => simp [applyModifiers, htrust, hhandler, hcode]
  | ok code => simp [applyModifiers, htrust, hhandler, hcode]

/-- A chain is its first step, and then the others on what that step wrote. -/
theorem applyModifiers_cons (engine : Engine) (ctx : Context) (step : Invocation)
    (steps : List Invocation) (value : String) :
    engine.applyModifiers ctx (step :: steps) value =
      (engine.applyModifiers ctx [step] value).bind (engine.applyModifiers ctx steps) := by
  -- A step ends in one of four ways, and each of them is that of the chain of this step alone.
  by_cases htrust : engine.trustsModifier ctx step.name = true
  · cases hhandler : engine.registry.resolveModifier? step.name with
    | none => simp [applyModifiers, htrust, hhandler, Except.bind]
    | some handler =>
      rw [applyModifiers_singleton_of_known htrust hhandler]
      cases hcode : handler.apply step.name (step.argsWith value) with
      | error fault => simp [applyModifiers, htrust, hhandler, hcode, Except.bind]
      | ok code => simp [applyModifiers, htrust, hhandler, hcode, Except.bind]
  · simp [applyModifiers, htrust, Except.bind]

/-- A chain in two parts is the first part, and then the second on what that wrote. -/
theorem applyModifiers_append (engine : Engine) (ctx : Context) (first second : List Invocation)
    (value : String) :
    engine.applyModifiers ctx (first ++ second) value =
      (engine.applyModifiers ctx first value).bind (engine.applyModifiers ctx second) := by
  -- The value is what the steps before have written.
  induction first generalizing value with
  | nil => rfl
  | cons step steps ih =>
    rw [List.cons_append, applyModifiers_cons, applyModifiers_cons engine ctx step steps]
    cases engine.applyModifiers ctx [step] value with
    | error fault => rfl
    | ok code => exact ih code

end Engine

/-! ## The slot of the piped value -/

/-- The invocations differ at most in the slot of the piped value. It may also be missing. -/
structure Invocation.SameButSlot (m m' : Invocation) : Prop where
  name : m.name = m'.name
  further : m.args.tail = m'.args.tail

namespace Engine

/-- A step overwrites the slot. -/
theorem applyModifiers_singleton_congr (engine : Engine) (ctx : Context) {m m' : Invocation}
    (h : m.SameButSlot m') (value : String) :
    engine.applyModifiers ctx [m] value = engine.applyModifiers ctx [m'] value := by
  have hargs : m.argsWith value = m'.argsWith value := by
    rw [Invocation.argsWith, Invocation.argsWith, List.drop_one, List.drop_one, h.further]
  simp only [applyModifiers, h.name, hargs]

/-- Chains that differ in their slots only do the same. -/
theorem applyModifiers_congr (engine : Engine) (ctx : Context) {steps steps' : List Invocation}
    (h : List.Forall₂ Invocation.SameButSlot steps steps') (value : String) :
    engine.applyModifiers ctx steps value = engine.applyModifiers ctx steps' value := by
  induction h generalizing value with
  | nil => rfl
  | @cons m m' steps steps' hm _ ih =>
    rw [applyModifiers_cons, applyModifiers_cons engine ctx m',
      engine.applyModifiers_singleton_congr ctx hm]
    congr 1
    funext code
    exact ih code

end Engine

/-! ## Texts around the value -/

/-- What is written for a value is a fault that does not depend on the value, or the value with
    texts around it that do not. -/
def Wraps (f : String → Except Fault String) : Prop :=
  (∃ fault, ∀ value, f value = .error fault) ∨
    ∃ before after, ∀ value, f value = .ok (before ++ value ++ after)

/-- Passing a value on writes nothing around it. -/
theorem wraps_ok : Wraps Except.ok :=
  .inr ⟨"", "", by simp⟩

/-- The property is one of the outcomes. -/
theorem Wraps.congr {f g : String → Except Fault String} (hf : Wraps f)
    (h : ∀ value, g value = f value) : Wraps g := by
  rwa [funext h]

/-- Texts around texts: the second function writes around what the first one wrote. -/
theorem Wraps.bind {f g : String → Except Fault String} (hf : Wraps f) (hg : Wraps g) :
    Wraps fun value => (f value).bind g := by
  obtain ⟨fault, hf⟩ | ⟨before, after, hf⟩ := hf
  · exact .inl ⟨fault, fun value => by simp only [hf, Except.bind]⟩
  · obtain ⟨fault, hg⟩ | ⟨before', after', hg⟩ := hg
    · exact .inl ⟨fault, fun value => by simp only [hf, hg, Except.bind]⟩
    · refine .inr ⟨before' ++ before, after ++ after', fun value => ?_⟩
      simp only [hf, hg, Except.bind, String.append_assoc]

/-- Each of the standard handlers writes around the piped value, and none looks at it. -/
theorem ModifierHandler.Standard.wraps_apply {handler : ModifierHandler} (h : handler.Standard)
    (name : String) (args : List String) :
    Wraps fun value => handler.apply name (value :: args) := by
  -- The text around the value is read off the code that each kind of handler writes.
  obtain rfl | rfl | rfl | ⟨target, rfl⟩ := h
  · refine .inr ⟨"(", String.join (args.map (" . " ++ ·)) ++ ")", fun value => ?_⟩
    simp only [apply, concatModifier, Text.joinWith_cons, String.append_assoc]
  · cases args with
    | nil => exact .inr ⟨"(", " ?? '')", fun value => rfl⟩
    | cons fallback others =>
      cases others with
      | nil =>
        refine .inr ⟨"(", " ?? " ++ fallback ++ ")", fun value => ?_⟩
        simp only [apply, defaultModifier, String.append_assoc]
      | cons _ _ =>
        -- A second argument is refused, before anything is written.
        exact .inl ⟨_, fun value => rfl⟩
  · refine .inr ⟨"$_tpl->getModifierCallback(" ++ Code.quote name ++ ")(",
      String.join (args.map ("," ++ ·)) ++ ")", fun value => ?_⟩
    simp only [apply]
    unfold callbackCall
    simp only [Text.joinWith_cons, String.append_assoc]
  · refine .inr ⟨target.render ++ "(", String.join (args.map ("," ++ ·)) ++ ")", fun value => ?_⟩
    simp only [apply, CallTarget.call_eq, Text.joinWith_cons, String.append_assoc]

namespace Engine

variable {engine : Engine}

/-- A step fails for every value, or writes the same text around every value. -/
theorem wraps_applyModifiers_singleton (h : engine.registry.Configured) (ctx : Context)
    (step : Invocation) :
    Wraps (engine.applyModifiers ctx [step]) := by
  -- Not trusted, not known, or handled: each way treats all values alike.
  by_cases htrust : engine.trustsModifier ctx step.name = true
  · cases hhandler : engine.registry.resolveModifier? step.name with
    | none =>
      refine .inl ⟨.unknownModifier step.name, fun value => ?_⟩
      simp [applyModifiers, htrust, hhandler]
    | some handler =>
      have happly := (h.resolveModifier?_standard hhandler).wraps_apply step.name (step.args.drop 1)
      exact happly.congr (applyModifiers_singleton_of_known htrust hhandler)
  · exact wraps_ok.congr fun value => by simp [applyModifiers, htrust]

/-- On an engine made from settings, a chain fails for every value or writes the same text around
    every value. -/
theorem wraps_applyModifiers (h : engine.registry.Configured) (ctx : Context)
    (steps : List Invocation) :
    Wraps (engine.applyModifiers ctx steps) := by
  induction steps with
  | nil => exact wraps_ok
  | cons step steps ih =>
    have hbind := (wraps_applyModifiers_singleton h ctx step).bind ih
    exact hbind.congr (engine.applyModifiers_cons ctx step steps)

end Engine

/-! ## Chains in a context -/

/-- Chains of modifiers on an engine made from settings, in any context. A chain in two parts does
    what the first part does and then, if that succeeds, the second on what it wrote, faults and
    contexts included. The slots of the invocations make no difference, and neither does it whether
    there is a slot. And the code of a chain contains the expression that was piped through it, with
    the same text around any other expression. -/
theorem modifierChain_composes {s : Settings} {workingDir : Option String} {engine : Engine}
    (h : s.toEngine workingDir = .ok engine) (ctx : Context) (first second : List Invocation)
    (base : String) :
    ctx.applyModifiers engine (first ++ second) base =
        ((ctx.applyModifiers engine first base).andThen fun code next =>
          next.applyModifiers engine second code) ∧
      (∀ first', List.Forall₂ Invocation.SameButSlot first' first →
        ctx.applyModifiers engine first' base = ctx.applyModifiers engine first base) ∧
      (∀ code, (ctx.applyModifiers engine first base).1 = .ok code →
        base.toList <:+: code.toList ∧
          ∃ before after, ∀ value,
            (ctx.applyModifiers engine first value).1 = .ok (before ++ value ++ after)) := by
  refine ⟨?_, fun first' hfirst => ?_, fun code hcode => ?_⟩
  · -- The context that the gate sees is marked as having code, and marking it again changes
    -- nothing.
    rw [Context.applyModifiers, Context.applyModifiers, engine.applyModifiers_append]
    cases engine.applyModifiers { ctx with hasCode := true } first base with
    | error fault => rfl
    | ok code => rfl
  · rw [Context.applyModifiers, Context.applyModifiers, engine.applyModifiers_congr _ hfirst]
  · obtain ⟨fault, hfault⟩ | ⟨before, after, hwraps⟩ :=
      Engine.wraps_applyModifiers (Settings.toEngine_configured h).toConfigured
        { ctx with hasCode := true } first
    · rw [Context.applyModifiers, hfault] at hcode
      cases hcode
    · have hvalue : ∀ value, (ctx.applyModifiers engine first value).1 =
          .ok (before ++ value ++ after) := by
        intro value
        rw [Context.applyModifiers, hwraps]
        rfl
      refine ⟨⟨before.toList, after.toList, ?_⟩, before, after, hvalue⟩
      rw [hvalue] at hcode
      rw [← Except.ok.inj hcode, String.toList_append, String.toList_append]

/-- Settings with a callback, one call target of each form and a policy that disables a modifier. -/
def pipingSettings : Settings :=
  { modifiers := [("upper", "strtoupper"), ("fmt", "$f->format"), ("shout", "Text::shout")]
    callbacks := ["money"]
    security := { enabled := true, disabledModifiers := ["exec"] } }

/-- The engine of these settings. -/
def pipingEngine : Engine :=
  { registry := ((pipingSettings.baseRegistry.registerPlugin .modifier "upper"
      (.callable (.function "strtoupper"))).registerPlugin .modifier "fmt"
      (.callable (.method "$f" "format"))).registerPlugin .modifier "shout"
      (.callable (.static "Text" "shout"))
    gate := some (Policy.gate { disabledModifiers := ["exec"] }) }

/-- A step that is passed over, an inline modifier and a function, with a value in the last slot. -/
def pipedFirst (slot : List String) : List Invocation :=
  [⟨"exec", ["", "'rm'"]⟩, ⟨"cat", ["", "'!'"]⟩, ⟨"upper", slot⟩]

/-- A callback, a method, a static method and the other inline modifier. -/
def pipedSecond : List Invocation :=
  [⟨"money", ["", "2"]⟩, ⟨"fmt", []⟩, ⟨"shout", [""]⟩, ⟨"default", ["", "'-'"]⟩]

/-- A chain through every kind of modifier. The slot may hold anything or be missing. -/
theorem pipedFirst_composes :
    pipingSettings.toEngine none = .ok pipingEngine ∧
      (Context.applyModifiers {} pipingEngine (pipedFirst [] ++ pipedSecond) "$v").1 =
        .ok ("(Text::shout($f->format($_tpl->getModifierCallback('money')(" ++
          "strtoupper(($v . '!')),2))) ?? '-')") ∧
      Context.applyModifiers {} pipingEngine (pipedFirst [] ++ pipedSecond) "$v" =
        ((Context.applyModifiers {} pipingEngine (pipedFirst []) "$v").andThen fun code next =>
          next.applyModifiers pipingEngine pipedSecond code) ∧
      Context.applyModifiers {} pipingEngine (pipedFirst ["$w"]) "$v" =
        Context.applyModifiers {} pipingEngine (pipedFirst []) "$v" ∧
      (Context.applyModifiers {} pipingEngine (pipedFirst []) "$v").1 =
        .ok "strtoupper(($v . '!'))" ∧
      "$v".toList <:+: "strtoupper(($v . '!'))".toList := by
  have hengine : pipingSettings.toEngine none = .ok pipingEngine := rfl
  obtain ⟨hparts, hslots, hinside⟩ :=
    modifierChain_composes hengine {} (pipedFirst []) pipedSecond "$v"
  -- The chains differ in the slot of one step only, which the piped value replaces.
  have hsame : List.Forall₂ Invocation.SameButSlot (pipedFirst ["$w"]) (pipedFirst []) :=
    .cons ⟨rfl, rfl⟩ (.cons ⟨rfl, rfl⟩ (.cons ⟨rfl, rfl⟩ .nil))
  exact ⟨hengine, by decide, hparts, hslots _ hsame, by decide, (hinside _ (by decide)).1⟩

end TagPress
