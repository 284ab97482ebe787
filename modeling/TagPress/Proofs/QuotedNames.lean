import TagPress.Proofs.ModifierChains

/-!
# Quoted names

Emitted code names functions, callbacks and attributes by single-quoted literals, and the text of a
name is arbitrary. A literal is read from its opening quote on: a backslash before a backslash or a
quote stands for that character, and the first other quote ends the literal. Read in this way, a
quoted text comes back whole and the reader goes on exactly behind it, whatever follows. So no name
can end its literal early and have the rest of itself read as code.

## Key results

- `Code.escape_eq_backslashed`: the two escapes can be written one after the other
- `Code.readLiteral_quote`: reading takes exactly the literal and gives the text back
- `Code.embeds_of_eq`: the same for a literal inside a code, with anything around the code
- `quoted_names_read_back`: the names in the code of arrays, calls and callbacks
-/

namespace TagPress

namespace Code

/-! ## Reading literals -/

/-- A text with a backslash before every `c`. -/
def backslashed (c : Char) (cs : List Char) : List Char :=
  cs.flatMap fun d => if d = c then ['\\', d] else [d]

/-- Characters are rewritten one by one. -/
theorem backslashed_cons (c d : Char) (cs : List Char) :
    backslashed c (d :: cs) = (if d = c then ['\\', d] else [d]) ++ backslashed c cs :=
  List.flatMap_cons

/-- Escaping both characters at once is doubling the backslashes and escaping the quotes after that.
    The backslashes of the second step come too late to be doubled. -/
theorem escape_eq_backslashed (cs : List Char) :
    escape cs = backslashed '\x27' (backslashed '\\' cs) := by
  induction cs with
  | nil => rfl
  | cons c cs ih =>
    by_cases hslash : c = '\\'
    · subst hslash
      -- Neither of the two backslashes is a quote, so the second step leaves them alone.
      simp [escape, backslashed_cons, ih]
    · by_cases hquote : c = '\x27'
      · subst hquote
        simp [escape, backslashed_cons, ih]
      · simp [escape, backslashed_cons, hslash, hquote, ih]

/-- A backslash before a backslash or a quote stands for that character. -/
theorem readInside_escaped {c : Char} (hc : c = '\\' ∨ c = '\x27') (cs : List Char) :
    readInside ('\\' :: c :: cs) =
      (readInside cs).map fun (text, rest) => (c :: text, rest) := by
  obtain rfl | rfl := hc
  · rw [readInside]
  · rw [readInside]

/-- A character that is neither a backslash nor a quote stands for itself. -/
theorem readInside_plain {c : Char} (hslash : c ≠ '\\') (hquote : c ≠ '\x27') (cs : List Char) :
    readInside (c :: cs) = (readInside cs).map fun (text, rest) => (c :: text, rest) := by
  rw [readInside]
  · simp [hquote]
  · simp [hslash]
  · simp [hslash]

/-- An escaped text is read back up to the quote behind it. -/
theorem readInside_escape (cs rest : List Char) :
    readInside (escape cs ++ '\x27' :: rest) = some (cs, rest) := by
  -- The text is arbitrary, so every character may be one that the reader treats specially.
  induction cs with
  | nil => rfl
  | cons c cs ih =>
    rw [escape]
    split
    · rename_i hc
      -- The reader is at an escaped character, so it takes the backslash and the character at once
      -- and never meets a quote of the text on its own.
      rw [Bool.or_eq_true, beq_iff_eq, beq_iff_eq] at hc
      rw [List.cons_append, List.cons_append, readInside_escaped hc, ih]
      rfl
    · rename_i hc
      rw [Bool.or_eq_true, beq_iff_eq, beq_iff_eq, not_or] at hc
      rw [List.cons_append, readInside_plain hc.1 hc.2, ih]
      rfl

/-- Reading a literal takes exactly the literal and gives its text back. -/
theorem readLiteral_quote (s : String) (rest : List Char) :
    readLiteral ((quote s).toList ++ rest) = some (s.toList, rest) := by
  rw [toList_quote, List.cons_append, List.append_assoc, List.singleton_append]
  exact readInside_escape s.toList rest

/-! ## Literals inside a code -/

/-- The literal of `name` stands in a code between `before` and `after`. Whatever is written around
    the code, a reader that has come to the opening quote reads the name and goes on with what is
    written behind the literal. -/
structure Embeds (code before name after : String) : Prop where
  code_eq : code = before ++ quote name ++ after
  reads (left right : String) :
    readLiteral ((left ++ code ++ right).toList.drop (left ++ before).length) =
      some (name.toList, (after ++ right).toList)

/-- A literal in a code can be read from its opening quote on, with anything around the code. -/
theorem embeds_of_eq {code before name after : String}
    (h : code = before ++ quote name ++ after) : Embeds code before name after where
  code_eq := h
  reads left right := by
    -- What stands to the left of the quote is dropped, and the reader starts at the literal.
    have hcode : (left ++ code ++ right).toList =
        (left ++ before).toList ++ ((quote name).toList ++ (after ++ right).toList) := by
      simp only [h, String.toList_append, List.append_assoc]
    rw [hcode, ← String.length_toList, List.drop_left, readLiteral_quote]

/-- A literal stays where it is when the code becomes a part of another. -/
theorem Embeds.within {code before name after : String} (h : Embeds code before name after)
    (left right : String) :
    Embeds (left ++ code ++ right) (left ++ before) name (after ++ right) := by
  apply embeds_of_eq
  rw [h.code_eq]
  simp only [String.append_assoc]

/-! ## Arrays -/

/-- The code of one named parameter. -/
def entryCode (entry : String × String) : String :=
  quote entry.1 ++ "=>" ++ entry.2

/-- The code of an array up to the entry behind the entries of `front`. -/
def arrayBefore (front : List (String × String)) : String :=
  "array(" ++ String.join (front.map fun entry => entryCode entry ++ ",")

/-- The code of an array from behind a name on: its value, the entries of `back` and the end. -/
def arrayAfter (value : String) (back : List (String × String)) : String :=
  "=>" ++ value ++ String.join (back.map fun entry => "," ++ entryCode entry) ++ ")"

/-- An array is the joined code of its entries. -/
theorem paramsArray_eq (attrs : OrderedMap String String) :
    paramsArray attrs = "array(" ++ Text.joinWith "," (attrs.entries.map entryCode) ++ ")" := rfl

/-- The literal of an entry's name in its array. -/
theorem embeds_paramsArray {attrs : OrderedMap String String} {front back : List (String × String)}
    {name value : String} (h : attrs.entries = front ++ (name, value) :: back) :
    Embeds (paramsArray attrs) (arrayBefore front) name (arrayAfter value back) := by
  apply embeds_of_eq
  -- Seen from the entry, the separators belong to the entries before and behind it.
  rw [paramsArray_eq, h, List.map_append, List.map_cons, Text.joinWith_append_cons, arrayBefore,
    arrayAfter, entryCode]
  simp only [List.map_map, Function.comp_def, String.append_assoc]

end Code

/-! ## Function calls -/

/-- The function's literal in the call of its handler. -/
theorem embeds_handlerCall (function : String) (attrs : Attributes) :
    Code.Embeds (handlerCall function attrs) "$_tpl->getFunctionHandler(" function
      (")->handle(" ++ Code.paramsArray attrs ++ ", $_tpl)") := by
  apply Code.embeds_of_eq
  unfold handlerCall
  simp only [String.append_assoc]

/-- The literal of an attribute in the call of a handler. -/
theorem embeds_handlerCall_attribute (function : String) {attrs : Attributes}
    {front back : List (String × String)} {name value : String}
    (h : attrs.entries = front ++ (name, value) :: back) :
    Code.Embeds (handlerCall function attrs)
      ("$_tpl->getFunctionHandler(" ++ Code.quote function ++ ")->handle(" ++
        Code.arrayBefore front)
      name (Code.arrayAfter value back ++ ", $_tpl)") := by
  unfold handlerCall
  exact (Code.embeds_paramsArray h).within _ _

/-- The gate sees a context that has code. -/
theorem Context.applyModifiers_eq_ok {ctx : Context} {engine : Engine} {steps : List Invocation}
    {value code : String} (h : (ctx.applyModifiers engine steps value).1 = .ok code) :
    engine.applyModifiers { ctx with hasCode := true } steps value = .ok code := by
  unfold Context.applyModifiers at h
  cases hcode : engine.applyModifiers { ctx with hasCode := true } steps value with
  | error fault =>
    rw [hcode] at h
    cases h
  | ok other =>
    rw [hcode] at h
    exact congrArg Except.ok (Except.ok.inj h)

/-- A compiled call is what its modifiers make of the call of the handler, in the context that the
    gate sees. -/
theorem exists_handlerCall {engine : Engine} {function : String} {tag : Tag} {ctx : Context}
    {code : String} (h : (compileCall engine function tag ctx).1 = .ok code) :
    ∃ attrs seen, (functionSchema.resolve tag).outcome = .ok attrs ∧
      engine.applyModifiers seen tag.modifiers (handlerCall function attrs) = .ok code := by
  unfold compileCall at h
  -- The call succeeds, so its function is known and its arguments fit.
  cases hhandler : engine.registry.functions.get? function with
  | none => simp [hhandler] at h
  | some handler =>
    simp only [hhandler] at h
    cases hattrs : (functionSchema.resolve tag).outcome with
    | error fault => simp [Context.resolve_of_error hattrs, Step.andThen] at h
    | ok attrs =>
      simp only [Context.resolve_of_ok hattrs, Step.andThen] at h
      split at h
      · -- Without modifiers the call is the code, and so it is after the empty chain.
        rename_i hsteps
        refine ⟨attrs, ctx, rfl, ?_⟩
        rw [List.isEmpty_iff.mp hsteps, Engine.applyModifiers]
        exact congrArg Except.ok (Except.ok.inj h)
      · exact ⟨attrs, _, rfl, Context.applyModifiers_eq_ok h⟩

/-! ## Callbacks -/

/-- The callback's literal in its call. -/
theorem embeds_callbackCall (name : String) (args : List String) :
    Code.Embeds (callbackCall name args) "$_tpl->getModifierCallback(" name
      (")(" ++ Text.joinWith "," args ++ ")") := by
  apply Code.embeds_of_eq
  unfold callbackCall
  simp only [String.append_assoc]

namespace Engine

variable {engine : Engine} {ctx : Context}

/-- Where a step of a chain is a callback, the rest of the chain goes on with its call. -/
theorem exists_callbackCall {step : Invocation}
    (htrust : engine.trustsModifier ctx step.name = true)
    (hcallback : engine.registry.resolveModifier? step.name = some .callback)
    {first second : List Invocation} {base code : String}
    (h : engine.applyModifiers ctx (first ++ step :: second) base = .ok code) :
    ∃ value, engine.applyModifiers ctx first base = .ok value ∧
      engine.applyModifiers ctx second (callbackCall step.name (step.argsWith value)) =
        .ok code := by
  rw [applyModifiers_append, bind_eq_ok] at h
  obtain ⟨value, hfirst, hrest⟩ := h
  rw [applyModifiers_cons, applyModifiers_singleton_of_known htrust hcallback] at hrest
  exact ⟨value, hfirst, hrest⟩

/-- A chain makes `code` out of `part` in a context, and on an engine made from settings the part
    stands in the code as it is. -/
structure Carries (engine : Engine) (ctx : Context) (steps : List Invocation)
    (part code : String) : Prop where
  applied : engine.applyModifiers ctx steps part = .ok code
  around : engine.registry.Configured → ∃ left right, code = left ++ part ++ right

/-- A chain on an engine made from settings only writes around what it is applied to. -/
theorem carries {steps : List Invocation} {part code : String}
    (h : engine.applyModifiers ctx steps part = .ok code) : engine.Carries ctx steps part code := by
  refine ⟨h, fun hconfigured => ?_⟩
  obtain ⟨fault, hfault⟩ | ⟨left, right, hwraps⟩ := wraps_applyModifiers hconfigured ctx steps
  · rw [hfault] at h
    cases h
  · rw [hwraps] at h
    exact ⟨left, right, (Except.ok.inj h).symm⟩

end Engine

/-! ## Names in emitted code -/

/-- The literal of a text is the text with its backslashes doubled and its quotes escaped after
    that, between quotes. Reading it takes exactly the literal and gives the text back, whatever
    follows. So the names that are embedded in code are read back from their literals: the name of
    each entry of an array, the names of the function and of the attributes in a compiled call, and
    the name of each callback in a compiled chain. Chains keep the code that they are applied to, on
    an engine made from settings, whatever context the gate sees. -/
theorem quoted_names_read_back :
    (∀ s : String,
      (Code.quote s).toList =
        '\x27' :: (Code.backslashed '\x27' (Code.backslashed '\\' s.toList) ++ ['\x27']) ∧
      ∀ rest, Code.readLiteral ((Code.quote s).toList ++ rest) = some (s.toList, rest)) ∧
    (∀ (attrs : Attributes) (front back : List (String × String)) (name value : String),
      attrs.entries = front ++ (name, value) :: back →
      Code.Embeds (Code.paramsArray attrs) (Code.arrayBefore front) name
        (Code.arrayAfter value back)) ∧
    (∀ (engine : Engine) (function : String) (tag : Tag) (ctx : Context) (code : String),
      (compileCall engine function tag ctx).1 = .ok code →
      ∃ attrs seen, (functionSchema.resolve tag).outcome = .ok attrs ∧
        engine.Carries seen tag.modifiers (handlerCall function attrs) code ∧
        Code.Embeds (handlerCall function attrs) "$_tpl->getFunctionHandler(" function
          (")->handle(" ++ Code.paramsArray attrs ++ ", $_tpl)") ∧
        ∀ front back name value, attrs.entries = front ++ (name, value) :: back →
          Code.Embeds (handlerCall function attrs)
            ("$_tpl->getFunctionHandler(" ++ Code.quote function ++ ")->handle(" ++
              Code.arrayBefore front)
            name (Code.arrayAfter value back ++ ", $_tpl)")) ∧
    (∀ (engine : Engine) (ctx : Context) (first second : List Invocation) (step : Invocation)
      (base code : String),
      engine.trustsModifier { ctx with hasCode := true } step.name = true →
      engine.registry.resolveModifier? step.name = some .callback →
      (ctx.applyModifiers engine (first ++ step :: second) base).1 = .ok code →
      ∃ value, engine.applyModifiers { ctx with hasCode := true } first base = .ok value ∧
        engine.Carries { ctx with hasCode := true } second
          (callbackCall step.name (step.argsWith value)) code ∧
        Code.Embeds (callbackCall step.name (step.argsWith value)) "$_tpl->getModifierCallback("
          step.name (")(" ++ Text.joinWith "," (step.argsWith value) ++ ")")) := by
  refine ⟨fun s => ⟨?_, Code.readLiteral_quote s⟩, ?_, ?_, ?_⟩
  · rw [Code.toList_quote, Code.escape_eq_backslashed]
  · intro attrs front back name value hentries
    exact Code.embeds_paramsArray hentries
  · intro engine function tag ctx code hcode
    -- The call is written first, and the modifiers are applied to it.
    obtain ⟨attrs, seen, hattrs, happlied⟩ := exists_handlerCall hcode
    refine ⟨attrs, seen, hattrs, Engine.carries happlied, embeds_handlerCall function attrs, ?_⟩
    intro front back name value hentries
    exact embeds_handlerCall_attribute function hentries
  · intro engine ctx first second step base code htrust hcallback hcode
    -- The chain is cut at the callback: what comes before it is its argument, what follows carries
    -- it.
    obtain ⟨value, hfirst, hsecond⟩ :=
      Engine.exists_callbackCall htrust hcallback (Context.applyModifiers_eq_ok hcode)
    exact ⟨value, hfirst, Engine.carries hsecond, embeds_callbackCall step.name _⟩

/-- An engine whose function and callback have quotes and backslashes in their names. -/
def oddlyNamed : Engine :=
  { registry := (Registry.builtins.registerFunction "o'clock\\" {}).registerCallback "\\'" }

/-- A name that ends with a backslash, and one that looks like the rest of an array. -/
def oddAttributes : Attributes :=
  ⟨[("zone\\", "$z"), ("'=>1),", "'x'")]⟩

/-- A call of the function, piped through the callback and one more modifier. -/
def oddCall : Tag :=
  { name := "o'clock\\"
    attributes := oddAttributes
    modifiers := [⟨"\\'", ["", "2"]⟩, ⟨"cat", ["", "'!'"]⟩] }

/-- All four names of the call are read back, and the call stands in the code with the callback and
    the last modifier around it. -/
theorem oddCall_reads_back :
    oddlyNamed.registry.Configured ∧
      (functionSchema.resolve oddCall).outcome = .ok oddAttributes ∧
      (compileCall oddlyNamed "o'clock\\" oddCall {}).1 =
        .ok ("($_tpl->getModifierCallback('\\\\\\'')($_tpl->getFunctionHandler('o\\'clock\\\\')" ++
          "->handle(array('zone\\\\'=>$z,'\\'=>1),'=>'x'), $_tpl),2) . '!')") ∧
      Code.readLiteral ((Code.quote "'=>1),").toList ++ "=>'x')".toList) =
        some ("'=>1),".toList, "=>'x')".toList) ∧
      Code.Embeds (Code.paramsArray oddAttributes) "array(" "zone\\" "=>$z,'\\'=>1),'=>'x')" ∧
      Code.Embeds (handlerCall "o'clock\\" oddAttributes) "$_tpl->getFunctionHandler(" "o'clock\\"
        ")->handle(array('zone\\\\'=>$z,'\\'=>1),'=>'x'), $_tpl)" ∧
      Code.Embeds (handlerCall "o'clock\\" oddAttributes)
        "$_tpl->getFunctionHandler('o\\'clock\\\\')->handle(array('zone\\\\'=>$z," "'=>1),"
        "=>'x'), $_tpl)" ∧
      (∃ left right,
        "($_tpl->getModifierCallback('\\\\\\'')($_tpl->getFunctionHandler('o\\'clock\\\\')" ++
          "->handle(array('zone\\\\'=>$z,'\\'=>1),'=>'x'), $_tpl),2) . '!')" =
          left ++ handlerCall "o'clock\\" oddAttributes ++ right) ∧
      (Context.applyModifiers {} oddlyNamed oddCall.modifiers "$v").1 =
        .ok "($_tpl->getModifierCallback('\\\\\\'')($v,2) . '!')" ∧
      Code.Embeds (callbackCall "\\'" ["$v", "2"]) "$_tpl->getModifierCallback(" "\\'"
        ")($v,2)" := by
  have hconfigured : oddlyNamed.registry.Configured := ⟨rfl, rfl, fun _ => rfl⟩
  have hattrs : (functionSchema.resolve oddCall).outcome = .ok oddAttributes := by decide
  have hcode : (compileCall oddlyNamed "o'clock\\" oddCall {}).1 =
      .ok ("($_tpl->getModifierCallback('\\\\\\'')($_tpl->getFunctionHandler('o\\'clock\\\\')" ++
        "->handle(array('zone\\\\'=>$z,'\\'=>1),'=>'x'), $_tpl),2) . '!')") := by
    decide +kernel
  have hchain : (Context.applyModifiers {} oddlyNamed oddCall.modifiers "$v").1 =
      .ok "($_tpl->getModifierCallback('\\\\\\'')($v,2) . '!')" := by
    decide +kernel
  obtain ⟨hread, harray, hcalls, hchains⟩ := quoted_names_read_back
  obtain ⟨attrs, seen, hattrs', hcarries, hfunction, hnames⟩ :=
    hcalls oddlyNamed "o'clock\\" oddCall {} _ hcode
  -- The computed arguments are the ones that the theorem speaks of.
  obtain rfl : oddAttributes = attrs := Except.ok.inj (hattrs.symm.trans hattrs')
  obtain ⟨value, hvalue, -, hcallback⟩ :=
    hchains oddlyNamed {} [] [⟨"cat", ["", "'!'"]⟩] ⟨"\\'", ["", "2"]⟩ "$v" _ rfl rfl hchain
  obtain rfl : "$v" = value := Except.ok.inj hvalue
  exact ⟨hconfigured, hattrs, hcode, (hread _).2 _, harray _ [] _ _ _ rfl, hfunction,
    hnames [("zone\\", "$z")] [] _ _ rfl, hcarries.around hconfigured, hchain, hcallback⟩

end TagPress
