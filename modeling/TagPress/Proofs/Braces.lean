import TagPress.Proofs.ResolvedArguments
import TagPress.Proofs.TargetGrammar

/-!
# Balanced braces

A conditional is written with braces around its branches, and every frame of a conditional on the
stack stands for one brace that is still open. The texts of a tag end up in the code as they are, so
they must not bring braces of their own; then everything between the braces of the block tags is
free of them, and the depth of the code written so far is the number of conditional frames.

`braceDepth` follows the depth through a text and stops at a closing brace that has no partner. One
lemma says what each kind of tag does to it, and the run over a unit only puts the pieces together.

## Key results

- `Engine.braceFree_applyModifiers`: modifiers of an engine made from settings add no braces
- `braceDepth_of_dispatch`: the depth after a tag is the number of conditional frames after it
- `code_braces_track_frames`: the braces of a unit, tag by tag and at its end
-/

namespace TagPress

/-! ## Depth -/

/-- The number of open braces after a text that begins at depth `d`; nothing if a closing brace
    comes too early. -/
def braceDepth (d : Nat) : List Char → Option Nat
  | [] => some d
  | c :: cs =>
    if c = '\x7b' then braceDepth (d + 1) cs
    else if c = '\x7d' then
      match d with
      | 0 => none
      | d + 1 => braceDepth d cs
    else braceDepth d cs

/-- The depth is followed through one text after the other. -/
theorem braceDepth_append (d : Nat) (xs ys : List Char) :
    braceDepth d (xs ++ ys) = (braceDepth d xs).bind fun d' => braceDepth d' ys := by
  induction xs generalizing d with
  | nil => rfl
  | cons c xs ih =>
    simp only [List.cons_append, braceDepth]
    split
    · exact ih (d + 1)
    · split
      · cases d with
        | zero => rfl
        | succ d => exact ih d
      · exact ih d

/-- As many closing braces as are open above a depth lead back to it. -/
theorem braceDepth_replicate (d n : Nat) :
    braceDepth (d + n) (List.replicate n '\x7d') = some d := by
  induction n with
  | zero => rfl
  | succ n ih =>
    rw [List.replicate_succ]
    show braceDepth (d + n) (List.replicate n '\x7d') = some d
    exact ih

/-- A depth that is reached is the difference of the counts. -/
theorem count_of_braceDepth {d d' : Nat} {cs : List Char} (h : braceDepth d cs = some d') :
    d + cs.count '\x7b' = d' + cs.count '\x7d' := by
  -- The depth is generalized, since every brace moves it.
  induction cs generalizing d with
  | nil =>
    cases h
    rfl
  | cons c cs ih =>
    have hne : ¬ '\x7b' = '\x7d' := by decide
    simp only [braceDepth] at h
    split at h
    · rename_i hopen
      have hrest := ih h
      rw [hopen, List.count_cons_self, List.count_cons_of_ne hne]
      omega
    · split at h
      · rename_i hclose
        -- A brace that closes nothing has ended the count.
        cases d with
        | zero => cases h
        | succ d =>
          have hrest := ih h
          rw [hclose, List.count_cons_self, List.count_cons_of_ne (Ne.symm hne)]
          omega
      · rename_i hopen hclose
        rw [List.count_cons_of_ne hopen, List.count_cons_of_ne hclose]
        exact ih h

/-- The text has `d` more opening than closing braces, and no beginning of it has more closing than
    opening ones. -/
def OpenBraces (text : String) (d : Nat) : Prop :=
  text.toList.count '\x7b' = text.toList.count '\x7d' + d ∧
    ∀ n, (text.toList.take n).count '\x7d' ≤ (text.toList.take n).count '\x7b'

/-- A text that is followed from depth zero has its braces in order. -/
theorem openBraces_of_braceDepth {text : String} {d : Nat}
    (h : braceDepth 0 text.toList = some d) : OpenBraces text d := by
  refine ⟨?_, fun n => ?_⟩
  · have htotal := count_of_braceDepth h
    omega
  · -- The depth at the end of a beginning is a number, so it is not below zero.
    rw [← List.take_append_drop n text.toList, braceDepth_append] at h
    obtain ⟨mid, hmid, -⟩ := Option.bind_eq_some_iff.mp h
    have htotal := count_of_braceDepth hmid
    omega

/-! ## Texts without braces -/

/-- No brace occurs in the text. -/
def BraceFree (s : String) : Prop :=
  ∀ c ∈ s.toList, c ≠ '\x7b' ∧ c ≠ '\x7d'

-- Characters are a finite type, so the instance is named: it has to go through the text only.
instance (s : String) : Decidable (BraceFree s) :=
  List.decidableBAll (fun c => c ≠ '\x7b' ∧ c ≠ '\x7d') s.toList

/-- A text without braces stays at its depth. -/
theorem BraceFree.braceDepth {s : String} (h : BraceFree s) (d : Nat) :
    braceDepth d s.toList = some d := by
  unfold BraceFree at h
  -- The induction is on the characters, and the predicate speaks of the text.
  generalize s.toList = cs at h ⊢
  induction cs with
  | nil => rfl
  | cons c cs ih =>
    obtain ⟨⟨hopen, hclose⟩, hcs⟩ := List.forall_mem_cons.mp h
    simp only [TagPress.braceDepth, hopen, hclose, if_false]
    exact ih hcs

/-- Two texts are free of braces together exactly if both are. -/
@[simp] theorem braceFree_append {s t : String} :
    BraceFree (s ++ t) ↔ BraceFree s ∧ BraceFree t := by
  simp only [BraceFree, String.toList_append, List.forall_mem_append]

/-- Joined pieces are free of braces if the pieces and the separator are. -/
theorem braceFree_joinWith {sep : String} (hsep : BraceFree sep) {pieces : List String}
    (h : ∀ piece ∈ pieces, BraceFree piece) : BraceFree (Text.joinWith sep pieces) := by
  intro c hc
  obtain hmem | ⟨piece, hpiece, hmem⟩ := Text.mem_joinWith hc
  · exact hsep c hmem
  · exact h piece hpiece c hmem

namespace Code

/-- Escaping brings in backslashes only. -/
theorem mem_of_mem_escape {c : Char} {cs : List Char} (h : c ∈ escape cs) : c = '\\' ∨ c ∈ cs := by
  induction cs with
  | nil => cases h
  | cons c' cs ih =>
    rw [escape] at h
    split at h <;> grind

/-- A literal of a text without braces has none. -/
theorem braceFree_quote {s : String} (h : BraceFree s) : BraceFree (quote s) := by
  intro c hc
  -- Quoting adds quotes and backslashes, nothing else.
  have hcases : c = '\x27' ∨ c = '\\' ∨ c ∈ s.toList := by
    simp only [toList_quote, List.mem_append, List.mem_cons] at hc
    grind [mem_of_mem_escape]
  obtain rfl | rfl | hc := hcases
  · decide
  · decide
  · exact h c hc

/-- The array of arguments without braces has none. -/
theorem braceFree_paramsArray {attrs : OrderedMap String String}
    (h : ∀ entry ∈ attrs.entries, BraceFree entry.1 ∧ BraceFree entry.2) :
    BraceFree (paramsArray attrs) := by
  simp only [paramsArray, braceFree_append]
  refine ⟨⟨by decide, braceFree_joinWith (by decide) ?_⟩, by decide⟩
  intro piece hpiece
  obtain ⟨⟨name, value⟩, hentry, rfl⟩ := List.mem_map.mp hpiece
  obtain ⟨hname, hvalue⟩ := h _ hentry
  simp only [braceFree_append]
  exact ⟨⟨braceFree_quote hname, by decide⟩, hvalue⟩

end Code

namespace CallTarget

/-- Braces are no word characters. -/
theorem IsWord.braceFree {word : String} (h : IsWord word) : BraceFree word := by
  intro c hc
  constructor
  · rintro rfl
    exact h.notMem (by decide) hc
  · rintro rfl
    exact h.notMem (by decide) hc

/-- The words of a call target have no braces, and nor have the arrow, the colons and the dollar
    sign. -/
theorem braceFree_render_of_parse {text : String} {target : CallTarget}
    (h : parse text = .ok target) : BraceFree target.render := by
  obtain ⟨hwritten, -⟩ := parse_eq_ok_iff.mp h
  cases hwritten with
  | function hname => exact hname.braceFree
  | method hholder hname =>
    simp only [render, braceFree_append]
    exact ⟨⟨⟨by decide, hholder.braceFree⟩, by decide⟩, hname.braceFree⟩
  | static howner hname =>
    simp only [render, braceFree_append]
    exact ⟨⟨howner.braceFree, by decide⟩, hname.braceFree⟩

end CallTarget

/-! ## Modifiers -/

/-- The call targets among the legacy modifiers have no braces. -/
def Registry.PlainTargets (r : Registry) : Prop :=
  ∀ name target, r.defaultPlugin? name .modifier = some (.callable target) →
    BraceFree target.render

/-- Settings register call targets that were parsed, and these have no braces. -/
theorem Settings.toEngine_plainTargets {s : Settings} {workingDir : Option String}
    {engine : Engine} (h : s.toEngine workingDir = .ok engine) : engine.registry.PlainTargets := by
  -- Only the settings register targets, and they register what was parsed.
  refine registry_induction ?_ (fun _ _ hr => hr) (fun _ _ _ hr => hr) ?_ h
  · intro name target hname
    cases hname
  · intro r name text target hparse hr other target' hother
    simp only [Registry.defaultPlugin?, Registry.registerPlugin] at hother
    rw [OrderedMap.get?_insert] at hother
    split at hother
    · cases hother
      exact CallTarget.braceFree_render_of_parse hparse
    · exact hr other target' hother

/-- A call target comes from the default handler. -/
theorem Registry.defaultPlugin?_of_resolveModifier? {r : Registry} {name : String}
    {target : CallTarget} (h : r.resolveModifier? name = some (.callable target)) :
    r.defaultPlugin? name .modifier = some (.callable target) := by
  -- Only the last of the four places gives a target to call.
  simp only [resolveModifier?] at h
  split at h
  · cases h
  · split at h
    · cases h
    · split at h
      · cases h
      · split at h
        · rename_i hplugin
          cases h
          exact hplugin
        · cases h

/-- The arguments of a step and its name are all that it adds, but for the words of its target. -/
theorem ModifierHandler.Standard.braceFree_apply {handler : ModifierHandler} (h : handler.Standard)
    (htarget : ∀ target, handler = .callable target → BraceFree target.render) {name : String}
    (hname : BraceFree name) {args : List String} (hargs : ∀ arg ∈ args, BraceFree arg)
    {code : String} (hok : handler.apply name args = .ok code) : BraceFree code := by
  -- One case for each kind of handler; each writes fixed text around its arguments.
  obtain rfl | rfl | rfl | ⟨target, rfl⟩ := h
  · cases hok
    simp only [braceFree_append]
    exact ⟨⟨by decide, braceFree_joinWith (by decide) hargs⟩, by decide⟩
  · match args, hargs, hok with
    | [value], hargs, hok =>
      cases hok
      simp only [braceFree_append]
      exact ⟨⟨by decide, hargs value List.mem_cons_self⟩, by decide⟩
    | [value, fallback], hargs, hok =>
      cases hok
      simp only [List.forall_mem_cons] at hargs
      simp only [braceFree_append]
      exact ⟨⟨⟨⟨by decide, hargs.1⟩, by decide⟩, hargs.2.1⟩, by decide⟩
  · cases hok
    unfold callbackCall
    simp only [braceFree_append]
    exact ⟨⟨⟨⟨by decide, Code.braceFree_quote hname⟩, by decide⟩,
      braceFree_joinWith (by decide) hargs⟩, by decide⟩
  · cases hok
    simp only [CallTarget.call_eq, braceFree_append]
    exact ⟨⟨⟨htarget target rfl, by decide⟩, braceFree_joinWith (by decide) hargs⟩, by decide⟩

/-- A chain of modifiers on an engine made from settings adds no braces. -/
theorem Engine.braceFree_applyModifiers {engine : Engine} (hc : engine.Configured)
    (htargets : engine.registry.PlainTargets) {ctx : Context} {steps : List Invocation}
    (hsteps : ∀ step ∈ steps, BraceFree step.name ∧ ∀ arg ∈ step.args, BraceFree arg)
    {value code : String} (hvalue : BraceFree value)
    (h : engine.applyModifiers ctx steps value = .ok code) : BraceFree code := by
  -- The code of one step is the value of the next.
  induction steps generalizing value with
  | nil =>
    cases h
    exact hvalue
  | cons step steps ih =>
    obtain ⟨⟨hname, hargs⟩, hsteps⟩ := List.forall_mem_cons.mp hsteps
    obtain ⟨-, hrest⟩ | ⟨handler, next, -, hhandler, happly, hrest⟩ :=
      applyModifiers_cons_eq_ok_iff.mp h
    · exact ih hsteps hvalue hrest
    · refine ih hsteps ?_ hrest
      -- The value goes into the slot, so it is one of the arguments.
      have hwith : ∀ arg ∈ step.argsWith value, BraceFree arg :=
        List.forall_mem_cons.mpr ⟨hvalue, fun arg harg => hargs arg (List.mem_of_mem_drop harg)⟩
      refine (hc.resolveModifier?_standard hhandler).braceFree_apply ?_ hname hwith happly
      rintro target rfl
      exact htargets _ target (Registry.defaultPlugin?_of_resolveModifier? hhandler)

/-! ## One tag -/

/-- All texts of a tag. -/
def Tag.texts (tag : Tag) : List String :=
  tag.name :: tag.attributes.entries.flatMap (fun (name, value) => [name, value]) ++
    tag.positional ++ tag.modifiers.flatMap fun step => step.name :: step.args

/-- No text of the tag has a brace. -/
def Tag.BraceFree (tag : Tag) : Prop :=
  ∀ text ∈ tag.texts, TagPress.BraceFree text

instance (tag : Tag) : Decidable tag.BraceFree :=
  inferInstanceAs (Decidable (∀ text ∈ tag.texts, TagPress.BraceFree text))

namespace Tag.BraceFree

variable {tag : Tag}

/-- The name of such a tag has no braces. -/
theorem name (h : tag.BraceFree) : TagPress.BraceFree tag.name :=
  h _ (List.mem_append_left _ (List.mem_append_left _ List.mem_cons_self))

/-- The steps of such a tag have no braces. -/
theorem modifiers (h : tag.BraceFree) :
    ∀ step ∈ tag.modifiers, TagPress.BraceFree step.name ∧
      ∀ arg ∈ step.args, TagPress.BraceFree arg := by
  intro step hstep
  have htexts : ∀ text ∈ step.name :: step.args, TagPress.BraceFree text := fun text htext =>
    h text (List.mem_append_right _ (List.mem_flatMap_of_mem hstep htext))
  exact List.forall_mem_cons.mp htexts

/-- Nor have the arguments that are resolved, with the names that positional values get. -/
theorem resolved (h : tag.BraceFree) (compiler : TagCompiler) {attrs : Attributes}
    (hattrs : (compiler.schema.resolve tag).outcome = .ok attrs) :
    ∀ entry ∈ attrs.entries, TagPress.BraceFree entry.1 ∧ TagPress.BraceFree entry.2 := by
  -- The names for positional values come from the schemas and are fixed texts.
  have hnames : ∀ name ∈ compiler.schema.shorthand, TagPress.BraceFree name := by
    cases compiler <;> decide
  have hpositional : ∀ value ∈ tag.positional, TagPress.BraceFree value := fun value hvalue =>
    h value (List.mem_append_left _ (List.mem_append_right _ hvalue))
  have hattributes : ∀ entry ∈ tag.attributes.entries,
      TagPress.BraceFree entry.1 ∧ TagPress.BraceFree entry.2 := by
    intro entry hentry
    have htexts : ∀ text ∈ [entry.1, entry.2], TagPress.BraceFree text := fun text htext =>
      h text (List.mem_append_left _ (List.mem_append_left _
        (List.mem_cons_of_mem _ (List.mem_flatMap_of_mem hentry htext))))
    exact ⟨htexts _ (by simp), htexts _ (by simp)⟩
  exact Schema.forall_of_resolve hnames hpositional hattributes hattrs

end Tag.BraceFree

/-- An argument that is read has no braces, and a missing one is the empty text. -/
theorem braceFree_valueOf {attrs : Attributes}
    (h : ∀ entry ∈ attrs.entries, BraceFree entry.1 ∧ BraceFree entry.2) (name : String) :
    BraceFree (valueOf attrs name) := by
  rw [valueOf]
  cases hget : attrs.get? name with
  | none => decide
  | some value => exact (h _ (OrderedMap.mem_of_get? hget)).2

/-- How many braces a tag needs to find open, and how many of these and its own are open behind what
    it writes itself. -/
def TagCompiler.braces : TagCompiler → Nat × Nat
  | ifOpen => (0, 1)
  | elseIf => (1, 2)
  | elseBranch => (1, 1)
  | _ => (0, 0)

/-- What a tag writes itself takes the depth from the braces it needs to those it leaves open. -/
theorem TagCompiler.braceDepth_ownCode {compiler : TagCompiler} {engine : Engine} {tag : Tag}
    {own : String} (hc : engine.Configured) (htargets : engine.registry.PlainTargets)
    (hfree : tag.BraceFree) (hown : compiler.ownCode engine tag = .ok own) (d : Nat) :
    braceDepth (d + compiler.braces.1) own.toList = some (d + compiler.braces.2) := by
  obtain ⟨-, attrs, hattrs, hwrite⟩ := ownCode_eq_ok_iff.mp hown
  have hresolved := hfree.resolved compiler hattrs
  -- The three tags that write braces write them around an argument; the code of all others is free
  -- of them.
  cases compiler with
  | ifOpen =>
    cases hwrite
    have hcondition := braceFree_valueOf hresolved "condition"
    have hbefore : braceDepth d "if (".toList = some d := rfl
    simp only [braces, Nat.add_zero, String.toList_append, braceDepth_append, hbefore,
      hcondition.braceDepth, Option.bind_some]
    rfl
  | elseIf =>
    cases hwrite
    have hcondition := braceFree_valueOf hresolved "condition"
    have hbefore : braceDepth (d + 1) "\x7d else \x7b if (".toList = some (d + 1) := rfl
    simp only [braces, String.toList_append, braceDepth_append, hbefore, hcondition.braceDepth,
      Option.bind_some]
    rfl
  | elseBranch =>
    cases hwrite
    rfl
  | ifClose | nocacheOpen | nocacheClose =>
    cases hwrite
    rfl
  | print =>
    obtain ⟨code, hcode, rfl⟩ := map_eq_ok.mp hwrite
    have hvalue := braceFree_valueOf hresolved "value"
    have hecho : BraceFree ("echo " ++ code ++ ";") := by
      simp only [braceFree_append]
      exact ⟨⟨by decide, Engine.braceFree_applyModifiers hc htargets hfree.modifiers hvalue hcode⟩,
        by decide⟩
    exact hecho.braceDepth d
  | functionCall =>
    have hcall : BraceFree (handlerCall tag.name attrs) := by
      unfold handlerCall
      simp only [braceFree_append]
      exact ⟨⟨⟨⟨by decide, Code.braceFree_quote hfree.name⟩, by decide⟩,
        Code.braceFree_paramsArray hresolved⟩, by decide⟩
    have hcode := Engine.braceFree_applyModifiers hc htargets hfree.modifiers hcall hwrite
    exact hcode.braceDepth d

/-! ## Frames of conditionals -/

/-- The number of open blocks that belong to a conditional. -/
def conditionalFrames (frames : List Frame) : Nat :=
  frames.countP fun frame => conditionalFamilies.contains frame.family

/-- An open block counts if it belongs to a conditional. -/
theorem conditionalFrames_cons (frame : Frame) (frames : List Frame) :
    conditionalFrames (frame :: frames) =
      conditionalFrames frames + if conditionalFamilies.contains frame.family then 1 else 0 :=
  List.countP_cons

/-- So does a block that is opened. -/
theorem conditionalFrames_push (s : ScopeStack) (frame : Frame) :
    conditionalFrames (s.push frame).frames =
      conditionalFrames s.frames + if conditionalFamilies.contains frame.family then 1 else 0 :=
  List.countP_cons

/-- Blocks after which a branch may follow belong to conditionals. -/
theorem contains_conditional_of_branch {family : String}
    (h : ["if", "elseif"].contains family = true) : conditionalFamilies.contains family = true := by
  simp only [conditionalFamilies, List.contains_cons, List.contains_nil, Bool.or_eq_true] at h ⊢
  grind

/-- The run that a closing tag takes has conditional frames only. -/
theorem conditionalFrames_eq (frames : List Frame) :
    conditionalFrames frames =
      conditionalFrames (frames.dropWhile fun frame => conditionalFamilies.contains frame.family) +
        (frames.takeWhile fun frame => conditionalFamilies.contains frame.family).length := by
  -- All frames of the run belong to a conditional.
  have htake : conditionalFrames
      (frames.takeWhile fun frame => conditionalFamilies.contains frame.family) =
        (frames.takeWhile fun frame => conditionalFamilies.contains frame.family).length :=
    List.countP_eq_length.mpr fun frame hframe =>
      List.all_eq_true.mp List.all_takeWhile frame hframe
  rw [← htake, Nat.add_comm, conditionalFrames, conditionalFrames, conditionalFrames,
    ← List.countP_append, List.takeWhile_append_dropWhile]

/-- The braces that a tag needs stand for frames that it checks, and what it leaves open and does
    not close stands for the frames after it. -/
theorem TagCompiler.conditionalFrames_of_move {compiler : TagCompiler} {line : Option Nat}
    {nocache : Bool} {s : ScopeStack} {m : Move} (h : compiler.move line nocache s = .ok m) :
    ∃ d, conditionalFrames s.frames = d + compiler.braces.1 ∧
      d + compiler.braces.2 = conditionalFrames m.scopes.frames + m.closed := by
  -- The number `d` leaves out the frame that the tag checks, which stands for the brace that it
  -- closes and opens again.
  cases compiler with
  | ifOpen | nocacheOpen =>
    cases h
    refine ⟨conditionalFrames s.frames, rfl, ?_⟩
    simp only [conditionalFrames_push]
    rfl
  | print | functionCall =>
    cases h
    exact ⟨conditionalFrames s.frames, rfl, rfl⟩
  | elseIf =>
    obtain ⟨_, htop, rfl⟩ := map_eq_ok.mp h
    obtain ⟨frame, rest, hframes, hfamily⟩ := ScopeStack.checkTop_eq_ok_iff.mp htop
    have hcount : conditionalFrames s.frames = conditionalFrames rest + 1 := by
      rw [hframes, conditionalFrames_cons, contains_conditional_of_branch hfamily, if_pos rfl]
    refine ⟨conditionalFrames rest, hcount, ?_⟩
    simp only [conditionalFrames_push, hcount]
    rfl
  | elseBranch =>
    obtain ⟨scopes, hscopes, rfl⟩ := map_eq_ok.mp h
    obtain ⟨old, rest, hpop, rfl⟩ := ScopeStack.replaceTop_eq_ok_iff.mp hscopes
    obtain ⟨hframes, hfamily⟩ := ScopeStack.pop_eq_ok_iff.mp hpop
    refine ⟨conditionalFrames rest.frames, ?_, ?_⟩
    · rw [hframes, conditionalFrames_cons, contains_conditional_of_branch hfamily, if_pos rfl]
      rfl
    · simp only [conditionalFrames_push]
      rfl
  | ifClose =>
    obtain ⟨closed, hclosed, rfl⟩ := map_eq_ok.mp h
    obtain ⟨-, rfl⟩ := ScopeStack.close_eq_ok_iff.mp hclosed
    exact ⟨conditionalFrames s.frames, rfl, conditionalFrames_eq s.frames⟩
  | nocacheClose =>
    obtain ⟨⟨frame, scopes⟩, hpop, rfl⟩ := map_eq_ok.mp h
    obtain ⟨hframes, hfamily⟩ := ScopeStack.pop_eq_ok_iff.mp hpop
    have hnocache : frame.family = "nocache" := by simpa using hfamily
    refine ⟨conditionalFrames scopes.frames, ?_, rfl⟩
    rw [hframes, conditionalFrames_cons, hnocache]
    rfl

/-! ## Units -/

section Unit

variable {engine : Engine} (hc : engine.Configured)
  (htargets : engine.registry.PlainTargets)

include hc htargets

/-- If the depth of the code before a tag is the number of conditional frames, so it is after it. -/
theorem braceDepth_of_dispatch {tag : Tag} (hfree : tag.BraceFree) {ctx ctx' : Context}
    {code : String} (hd : dispatch engine tag ctx = (.ok code, ctx')) :
    braceDepth (conditionalFrames ctx.scopes.frames) code.toList =
      some (conditionalFrames ctx'.scopes.frames) := by
  obtain ⟨own, m, hown, hmove, rfl, rfl⟩ := (dispatch_eq_ok_iff hc.plain).mp hd
  obtain ⟨d, hneeds, hleaves⟩ := TagCompiler.conditionalFrames_of_move hmove
  have hwritten := TagCompiler.braceDepth_ownCode hc htargets hfree hown d
  -- First what the tag writes itself, then the braces of the frames that it closes.
  rw [String.toList_append, braceDepth_append, hneeds, hwritten, Option.bind_some, hleaves,
    closingBraces, String.toList_ofList, braceDepth_replicate]
  rfl

/-- The depth of the code of a run, from the frames before it to those after it. -/
theorem braceDepth_of_compileTags {tags : List Tag} (hfree : ∀ tag ∈ tags, tag.BraceFree)
    {ctx last : Context} {fragments : List Fragment}
    (hrun : compileTags engine tags ctx = .ok (fragments, last)) :
    braceDepth (conditionalFrames ctx.scopes.frames)
        (String.join (fragments.map (·.code))).toList =
      some (conditionalFrames last.scopes.frames) := by
  -- The invariant is that the depth of the code so far is the number of conditional frames.
  induction tags generalizing ctx fragments with
  | nil =>
    cases hrun
    rfl
  | cons tag tags ih =>
    obtain ⟨htag, htags⟩ := List.forall_mem_cons.mp hfree
    obtain ⟨code, ctx', rest, hd, hrest, rfl⟩ := compileTags_cons_eq_ok_iff.mp hrun
    have hcode := braceDepth_of_dispatch hc htargets htag hd
    have hframes : (ctx'.noteCode code).scopes.frames = ctx'.scopes.frames := rfl
    rw [List.map_append, String.join_append, join_emitted, String.toList_append, braceDepth_append,
      hcode, Option.bind_some, ← hframes]
    exact ih htags hrest

end Unit

/-- On an engine made from settings, take tags none of whose texts has a brace. After every tag that
    is compiled, the opening braces written so far are as many as the closing ones and the open
    blocks of conditionals together, and nowhere in the code do closing braces outnumber the opening
    ones before them. So the braces of an accepted unit are balanced. -/
theorem code_braces_track_frames {settings : Settings} {workingDir : Option String}
    {engine : Engine} (hengine : settings.toEngine workingDir = .ok engine)
    (template : Option String) {tags : List Tag}
    (hfree : ∀ tag ∈ tags, tag.BraceFree) :
    (∀ before fragments ctx, before <+: tags →
      compileTags engine before { template } = .ok (fragments, ctx) →
      OpenBraces (String.join (fragments.map (·.code))) (conditionalFrames ctx.scopes.frames)) ∧
    ∀ c, compile engine template tags = .ok c → OpenBraces c.code 0 := by
  have hc := Settings.toEngine_configured hengine
  have htargets := Settings.toEngine_plainTargets hengine
  constructor
  · intro before fragments ctx hbefore hrun
    have hfree' : ∀ tag ∈ before, tag.BraceFree := fun tag htag => hfree tag (hbefore.subset htag)
    exact openBraces_of_braceDepth (braceDepth_of_compileTags hc htargets hfree' hrun)
  · intro c hcompile
    obtain ⟨fragments, last, hrun, hfinish, rfl⟩ := compile_eq_ok_iff.mp hcompile
    have hdepth := braceDepth_of_compileTags hc htargets hfree hrun
    rw [Context.scopes_of_finish hfinish] at hdepth
    exact openBraces_of_braceDepth hdepth

/-- Settings with a function and with a legacy modifier that calls a static method. -/
def shoutSettings : Settings :=
  { functions := [("clock", false)], modifiers := [("shout", "Text::shout")] }

/-- The engine of these settings. -/
def shoutEngine : Engine :=
  { registry := shoutSettings.baseRegistry.registerPlugin .modifier "shout"
      (.callable (.static "Text" "shout")) }

/-- These settings make this engine. -/
theorem shoutSettings_toEngine : shoutSettings.toEngine none = .ok shoutEngine := rfl

/-- A conditional that stands directly in a branch of another, so that both share the closing
    tag. -/
def sharedBranches : List Tag :=
  [{ name := "if", positional := ["$a"] },
    { name := "print", positional := ["$x"], modifiers := [⟨"shout", [""]⟩] },
    { name := "elseif", positional := ["$b"] }, { name := "if", positional := ["$c"] },
    { name := "else" }, { name := "clock" }, { name := "/if" }]

/-- The code of the tags before the closing one. -/
def sharedBranchesCode : String :=
  "if ($a) \x7becho Text::shout($x);\x7d else \x7b if ($b) \x7bif ($c) \x7b\x7d else \x7b" ++
    handlerCall "clock" .empty

/-- Three braces are open before the closing tag, one for each frame, and it closes them all. -/
theorem sharedBranches_braces :
    shoutSettings.toEngine none = .ok shoutEngine ∧ (∀ tag ∈ sharedBranches, tag.BraceFree) ∧
      (∃ fragments ctx,
        compileTags shoutEngine (sharedBranches.take 6) {} = .ok (fragments, ctx) ∧
        conditionalFrames ctx.scopes.frames = 3 ∧
        String.join (fragments.map (·.code)) = sharedBranchesCode ∧
        OpenBraces sharedBranchesCode 3) ∧
      ∃ c, compile shoutEngine none sharedBranches = .ok c ∧
        c.code = sharedBranchesCode ++ "\x7d\x7d\x7d" ∧ OpenBraces c.code 0 := by
  have hfree : ∀ tag ∈ sharedBranches, tag.BraceFree := by decide
  obtain ⟨hbefore, hwhole⟩ := code_braces_track_frames shoutSettings_toEngine none hfree
  obtain ⟨fragments, ctx, hrun, hframes, hcode⟩ : ∃ fragments ctx,
      compileTags shoutEngine (sharedBranches.take 6) {} = .ok (fragments, ctx) ∧
        conditionalFrames ctx.scopes.frames = 3 ∧
        String.join (fragments.map (·.code)) = sharedBranchesCode :=
    ⟨_, _, rfl, by decide, by decide⟩
  -- Two `if` and one `elseif` are open after six tags.
  have hopen := hbefore _ _ _ (List.take_prefix 6 sharedBranches) hrun
  rw [hframes, hcode] at hopen
  exact ⟨shoutSettings_toEngine, hfree, ⟨fragments, ctx, hrun, hframes, hcode, hopen⟩,
    _, rfl, by decide, hwhole _ rfl⟩

end TagPress
