import Mathlib.Data.List.Basic
import TagPress.CallTarget

/-!
# The grammar of call targets

A call target is written `f`, `C::m` or `$o->m`, where each part is a word of alphanumeric
characters, underscores and backslashes. The reader looks for the first arrow, else for the first
double colon, and never looks again. That is enough, since no word has a character of a separator in
it: a target has no separator before the one that it is written with, and a text with a separator
too many leaves one inside a part, which is then no word.

## Key results

- `Text.eq_of_splitOnce`, `Text.splitOnce_append`: where a text is cut at a separator
- `CallTarget.Written`: the targets of the grammar
- `CallTarget.parseChars_eq_some_iff`: the texts that are read as a target
- `callTarget_grammar`: reading accepts exactly the grammar, and the grammar is not ambiguous
-/

namespace TagPress

/-! ## Cutting once -/

namespace Text

/-- The two parts with the separator between them are the text. -/
theorem eq_of_splitOnce {sep cs before after : List Char}
    (h : splitOnce sep cs = some (before, after)) : cs = before ++ (sep ++ after) := by
  induction cs generalizing before with
  | nil => cases h
  | cons c cs ih =>
    rw [splitOnce] at h
    split at h
    · rename_i rest hrest
      cases h
      exact (List.isPrefixOf?_eq_some_iff_append_eq.mp hrest).symm
    · obtain ⟨⟨front, back⟩, hparts, heq⟩ := Option.map_eq_some_iff.mp h
      cases heq
      rw [ih hparts, List.cons_append]

/-- Before the first character of the separator nothing is cut. -/
theorem splitOnce_cons {d c : Char} (hne : c ≠ d) (sep cs : List Char) :
    splitOnce (d :: sep) (c :: cs) =
      (splitOnce (d :: sep) cs).map fun (before, after) => (c :: before, after) := by
  have hprefix : (d :: sep).isPrefixOf? (c :: cs) = none := by
    simp [List.isPrefixOf?, hne.symm]
  rw [splitOnce, hprefix]

/-- Without the first character of the separator nothing is cut. -/
theorem splitOnce_of_notMem {d : Char} {cs : List Char} (h : d ∉ cs) (sep : List Char) :
    splitOnce (d :: sep) cs = none := by
  induction cs with
  | nil => rfl
  | cons c cs ih =>
    rw [List.mem_cons, not_or] at h
    rw [splitOnce_cons (Ne.symm h.1), ih h.2, Option.map_none]

/-- A text is cut behind a part that has nothing of the separator. -/
theorem splitOnce_append {d : Char} {before : List Char} (h : d ∉ before)
    (sep after : List Char) :
    splitOnce (d :: sep) (before ++ (d :: sep ++ after)) = some (before, after) := by
  induction before with
  | nil =>
    have hprefix : (d :: sep).isPrefixOf? (d :: sep ++ after) = some after :=
      List.isPrefixOf?_eq_some_iff_append_eq.mpr rfl
    rw [List.nil_append, List.cons_append, splitOnce, ← List.cons_append, hprefix]
  | cons c cs ih =>
    rw [List.mem_cons, not_or] at h
    rw [List.cons_append, splitOnce_cons (Ne.symm h.1), ih h.2, Option.map_some]

end Text

namespace CallTarget

/-! ## Words -/

/-- A part of a call target: alphanumeric characters, underscores and backslashes, at least one. -/
structure IsWord (word : String) : Prop where
  ne_empty : word ≠ ""
  chars : ∀ c ∈ word.toList, Text.isAlphanumeric c = true ∨ c = '_' ∨ c = '\\'

/-- The parts that are read are words. -/
theorem isPart_toList_iff {word : String} : isPart word.toList = true ↔ IsWord word := by
  have hchars : word.toList.all isPartChar = true ↔
      ∀ c ∈ word.toList, Text.isAlphanumeric c = true ∨ c = '_' ∨ c = '\\' := by
    simp [isPartChar, Text.isWordChar, or_assoc]
  rw [isPart, Bool.and_eq_true, hchars]
  constructor
  · rintro ⟨hne, hall⟩
    exact ⟨by simpa using hne, hall⟩
  · rintro ⟨hne, hall⟩
    exact ⟨by simpa using hne, hall⟩

instance : DecidablePred IsWord := fun _ => decidable_of_iff _ isPart_toList_iff

/-- A part that is read is a word. -/
theorem isWord_ofList {cs : List Char} (h : isPart cs = true) : IsWord (String.ofList cs) :=
  isPart_toList_iff.mp (by rwa [String.toList_ofList])

/-- A word has none of the other characters, such as those of the separators. -/
theorem IsWord.notMem {word : String} (h : IsWord word) {c : Char}
    (hc : isPartChar c = false) : c ∉ word.toList := by
  intro hmem
  have hpart := isPart_toList_iff.mpr h
  rw [isPart, Bool.and_eq_true] at hpart
  rw [List.all_eq_true.mp hpart.2 c hmem] at hc
  cases hc

/-! ## Targets -/

/-- The targets of the grammar. -/
inductive Written : CallTarget → Prop where
  /-- A function by its name. -/
  | function {name : String} (hname : IsWord name) : Written (.function name)
  /-- A method of the object in a variable, which is a word behind a dollar sign. -/
  | method {holder name : String} (hholder : IsWord holder) (hname : IsWord name) :
    Written (.method ("$" ++ holder) name)
  /-- A static method of an owner. -/
  | static {owner name : String} (howner : IsWord owner) (hname : IsWord name) :
    Written (.static owner name)

/-- A variable is a word behind a dollar sign. -/
theorem exists_of_isVariable {cs : List Char} (h : isVariable cs = true) :
    ∃ holder, IsWord holder ∧ String.ofList cs = "$" ++ holder := by
  unfold isVariable at h
  split at h
  · rename_i word
    refine ⟨String.ofList word, isWord_ofList h, ?_⟩
    rw [← String.toList_inj]
    simp
  · cases h

/-- What is written as a target of the grammar is read as that target. -/
theorem Written.parseChars_render {target : CallTarget} (h : target.Written) :
    parseChars target.render.toList = some target := by
  cases h with
  | @function name hname =>
    have harrow := Text.splitOnce_of_notMem (hname.notMem (c := '-') (by decide)) ['>']
    have hcolons := Text.splitOnce_of_notMem (hname.notMem (c := ':') (by decide)) [':']
    simp [render, parseChars, harrow, hcolons, isPart_toList_iff.mpr hname]
  | @method holder name hholder hname =>
    -- The arrow is the first one, since the variable has no dash.
    have hdash : '-' ∉ '$' :: holder.toList := by
      simpa using hholder.notMem (c := '-') (by decide)
    have harrow := Text.splitOnce_append hdash ['>'] name.toList
    have hobject : isVariable ('$' :: holder.toList) = true := isPart_toList_iff.mpr hholder
    have hchars : (render (.method ("$" ++ holder) name)).toList =
        '$' :: holder.toList ++ ('-' :: ['>'] ++ name.toList) := by
      simp [render]
    have hback : String.ofList ('$' :: holder.toList) = "$" ++ holder := by
      rw [← String.toList_inj]
      simp
    simp only [parseChars, hchars, harrow, hobject, isPart_toList_iff.mpr hname, hback,
      String.ofList_toList, Bool.and_self, if_true]
  | @static owner name howner hname =>
    -- Neither part has a dash, so there is no arrow, and the owner has no colon.
    have hdash : '-' ∉ owner.toList ++ (':' :: [':'] ++ name.toList) := by
      simp [howner.notMem (c := '-') (by decide), hname.notMem (c := '-') (by decide)]
    have harrow := Text.splitOnce_of_notMem hdash ['>']
    have hcolons := Text.splitOnce_append (howner.notMem (c := ':') (by decide)) [':'] name.toList
    have hchars : (render (.static owner name)).toList =
        owner.toList ++ (':' :: [':'] ++ name.toList) := by
      simp [render]
    simp only [parseChars, hchars, harrow, hcolons, isPart_toList_iff.mpr howner,
      isPart_toList_iff.mpr hname, String.ofList_toList, Bool.and_self, if_true]

/-- What is read as a target is the written form of a target of the grammar. -/
theorem written_of_parseChars {cs : List Char} {target : CallTarget}
    (h : parseChars cs = some target) : target.Written ∧ String.ofList cs = target.render := by
  -- The three branches of the reader are the three forms of the grammar.
  unfold parseChars at h
  split at h
  · rename_i object name hsplit
    obtain ⟨hparts, htarget⟩ := Option.ite_none_right_eq_some.mp h
    cases htarget
    rw [Bool.and_eq_true] at hparts
    obtain ⟨holder, hholder, hobject⟩ := exists_of_isVariable hparts.1
    rw [Text.eq_of_splitOnce hsplit, hobject]
    refine ⟨.method hholder (isWord_ofList hparts.2), ?_⟩
    rw [render, ← hobject, ← String.toList_inj]
    simp
  · split at h
    · rename_i owner name hsplit
      obtain ⟨hparts, htarget⟩ := Option.ite_none_right_eq_some.mp h
      cases htarget
      rw [Bool.and_eq_true] at hparts
      rw [Text.eq_of_splitOnce hsplit]
      refine ⟨.static (isWord_ofList hparts.1) (isWord_ofList hparts.2), ?_⟩
      rw [render, ← String.toList_inj]
      simp
    · obtain ⟨hpart, htarget⟩ := Option.ite_none_right_eq_some.mp h
      cases htarget
      exact ⟨.function (isWord_ofList hpart), rfl⟩

/-- A text without blanks around it is read as what it is the written form of. -/
theorem parseChars_eq_some_iff {cs : List Char} {target : CallTarget} :
    parseChars cs = some target ↔ target.Written ∧ String.ofList cs = target.render := by
  refine ⟨written_of_parseChars, ?_⟩
  rintro ⟨hwritten, htext⟩
  rw [← hwritten.parseChars_render, ← htext, String.toList_ofList]

/-- A text is read as what it is, without the blanks around it, the written form of. -/
theorem parse_eq_ok_iff {text : String} {target : CallTarget} :
    parse text = .ok target ↔ target.Written ∧ Text.strip text = target.render := by
  rw [Text.strip, ← parseChars_eq_some_iff, parse]
  cases parseChars (Text.trim text.toList) <;> simp

/-- A text that is not read is reported without the blanks around it. -/
theorem parse_eq_error_iff {text : String} {e : InvalidCallable} :
    parse text = .error e ↔
      e = ⟨Text.strip text⟩ ∧ ∀ target : CallTarget, target.Written →
        Text.strip text ≠ target.render := by
  cases hparse : parse text with
  | ok found =>
    obtain ⟨hwritten, htext⟩ := parse_eq_ok_iff.mp hparse
    simp only [reduceCtorEq, false_iff, not_and]
    exact fun _ hnone => hnone found hwritten htext
  | error reported =>
    have hreported : reported = ⟨Text.strip text⟩ := by
      rw [parse] at hparse
      split at hparse
      · cases hparse
      · exact (Except.error.inj hparse).symm
    have hnone : ∀ target : CallTarget, target.Written → Text.strip text ≠ target.render := by
      intro target hwritten htext
      rw [parse_eq_ok_iff.mpr ⟨hwritten, htext⟩] at hparse
      cases hparse
    rw [hreported, Except.error.injEq, eq_comm]
    exact (and_iff_left hnone).symm

/-- No text is written for two targets of the grammar. -/
theorem Written.render_inj {a b : CallTarget} (ha : a.Written) (hb : b.Written)
    (h : a.render = b.render) : a = b := by
  have hread := ha.parseChars_render
  rw [h, hb.parseChars_render] at hread
  exact (Option.some.inj hread).symm

end CallTarget

/-- Reading call targets accepts exactly the grammar. A text is read as a target if and only if the
    target belongs to the grammar and the text without the blanks around it is the written form of
    the target. Every other text is rejected, and reported without those blanks. No text is written
    for two targets. And the call of a target, in or out of the grammar, is its written form with
    the parameters in parentheses behind it. -/
theorem callTarget_grammar (text : String) :
    (∀ target, CallTarget.parse text = .ok target ↔
      target.Written ∧ Text.strip text = target.render) ∧
    (∀ e, CallTarget.parse text = .error e ↔ e = ⟨Text.strip text⟩ ∧
      ∀ target : CallTarget, target.Written → Text.strip text ≠ target.render) ∧
    (∀ a b : CallTarget, a.Written → b.Written → a.render = b.render → a = b) ∧
    ∀ (target : CallTarget) (params : String),
      target.call params = target.render ++ "(" ++ params ++ ")" :=
  ⟨fun _ => CallTarget.parse_eq_ok_iff, fun _ => CallTarget.parse_eq_error_iff,
    fun _ _ => CallTarget.Written.render_inj, CallTarget.call_eq⟩

/-- A method with blanks around it is read and called. With a static method in the place of the
    variable the text is no target, although it has an arrow and words around it. -/
theorem formatMethod_grammar :
    CallTarget.parse " $fmt->format\n" = .ok (.method "$fmt" "format") ∧
      (CallTarget.method "$fmt" "format").Written ∧
      (CallTarget.method "$fmt" "format").call "$x,1" = "$fmt->format($x,1)" ∧
      CallTarget.parse "App\\Text::new->format" = .error ⟨"App\\Text::new->format"⟩ ∧
      ∀ target : CallTarget, target.Written → target.render ≠ "App\\Text::new->format" := by
  have hread : CallTarget.parse " $fmt->format\n" = .ok (.method "$fmt" "format") := by decide
  have hother : CallTarget.parse "App\\Text::new->format" =
      .error ⟨"App\\Text::new->format"⟩ := by
    decide
  obtain ⟨haccepted, -, -, hcall⟩ := callTarget_grammar " $fmt->format\n"
  obtain ⟨-, hrejected, -⟩ := callTarget_grammar "App\\Text::new->format"
  refine ⟨hread, ((haccepted _).mp hread).1, hcall _ _, hother, fun target hwritten htext => ?_⟩
  exact ((hrejected _).mp hother).2 target hwritten htext.symm

end TagPress
