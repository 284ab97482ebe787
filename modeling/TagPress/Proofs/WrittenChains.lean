import Mathlib.Data.List.Forall2
import TagPress.Proofs.WrittenInvocations

/-!
# Written chains

A chain of modifiers is given as a list of steps, or as one text with a bar between the steps. The
reader of the text cuts at every bar, where the reader of one step keeps what stands in quotes
together. So the text is read as the list exactly if no step has a bar, and a step with a bar inside
quotes falls apart: the quote that opens stands before the bar and the one that closes behind it,
and neither is blank. What is read then, if anything, is a longer chain.

## Key results

- `Invocation.writtenSteps_joinWith`: the steps of a text are those of its parts
- `Invocation.two_le_length_writtenSteps`: a step with a bar inside quotes is read as several
- `chain_reads_as_steps_iff`: the texts that are read as the list of their steps
-/

namespace TagPress

/-- A list is read element by element. -/
theorem mapM_eq_ok_iff {ε α β : Type} {f : α → Except ε β} {xs : List α} {ys : List β} :
    xs.mapM f = .ok ys ↔ List.Forall₂ (fun x y => f x = .ok y) xs ys := by
  induction xs generalizing ys with
  | nil => cases ys <;> simp [pure, Except.pure]
  | cons x xs ih =>
    rw [List.mapM_cons]
    -- The list is read if its first element is and then the others are.
    cases hx : f x with
    | error e => simp [bind, Except.bind, List.forall₂_cons_left_iff, hx]
    | ok y =>
      cases hxs : xs.mapM f with
      | error e =>
        simp [bind, Except.bind, List.forall₂_cons_left_iff, ← ih, hxs]
      | ok rest =>
        simp [bind, Except.bind, pure, Except.pure, List.forall₂_cons_left_iff, ← ih, hx, hxs,
          eq_comm]

namespace Invocation

open Text (Uncut openQuote trim)

/-! ## Steps of a text -/

/-- The steps of a chain, as they are written between the bars. Blank ones do not count. -/
def writtenSteps (cs : List Char) : List (List Char) :=
  (cs.splitOn '|').filter fun step => !(trim step).isEmpty

/-- A chain is read step by step. -/
theorem parseChain_eq_ok_iff {text : String} {chain : List Invocation} :
    parseChain text = .ok chain ↔
      List.Forall₂ (fun step m => parse (String.ofList step) = .ok m)
        (writtenSteps text.toList) chain :=
  mapM_eq_ok_iff

/-- At a bar the steps are cut, whatever stands around it. -/
theorem writtenSteps_append_bar (cs ds : List Char) :
    writtenSteps (cs ++ '|' :: ds) = writtenSteps cs ++ writtenSteps ds := by
  rw [writtenSteps, List.splitOn_append_cons_self, List.filter_append]
  rfl

/-- The steps of joined texts are the steps of the texts, one after the other. -/
theorem writtenSteps_joinWith (texts : List String) :
    writtenSteps (Text.joinWith "|" texts).toList =
      texts.flatMap fun text => writtenSteps text.toList := by
  fun_induction Text.joinWith "|" texts with
  | case1 => rfl
  | case2 text => simp
  | case3 text texts hne ih =>
    have hbar : (text ++ "|" ++ Text.joinWith "|" texts).toList =
        text.toList ++ '|' :: (Text.joinWith "|" texts).toList := by
      simp
    rw [hbar, writtenSteps_append_bar, ih, List.flatMap_cons]

/-- A text without bars is one step, unless it is blank. -/
theorem writtenSteps_of_notMem {cs : List Char} (hbar : '|' ∉ cs) (hblank : trim cs ≠ []) :
    writtenSteps cs = [cs] := by
  simp [writtenSteps, List.splitOn_eq_singleton hbar, hblank]

/-- A quote is neither a bar nor blank, so a text with a quote has a step. -/
theorem writtenSteps_ne_nil {cs : List Char} {q : Char} (hq : Text.isQuote q = true)
    (hmem : q ∈ cs) : writtenSteps cs ≠ [] := by
  have hbar : q ≠ '|' := by
    rintro rfl
    exact absurd hq (by decide)
  have hblank : Text.isBlank q = false := by
    rw [← Bool.not_eq_true]
    intro hblank
    rw [Text.isQuote_of_isBlank hblank] at hq
    cases hq
  -- The quote is in one of the parts, which is not dropped as blank.
  have hflat : q ∈ (cs.splitOn '|').flatten := by
    simpa [Text.flatten_splitOn, hbar] using hmem
  obtain ⟨step, hstep, hq⟩ := List.mem_flatten.mp hflat
  refine List.ne_nil_of_mem (List.mem_filter.mpr ⟨hstep, ?_⟩)
  simpa using Text.trim_ne_nil hq hblank

/-- Between two states of which only one is inside a quotation stands a quote. -/
theorem exists_isQuote {quote : Option Char} (hquote : ∀ q ∈ quote, Text.isQuote q = true)
    {cs : List Char} (h : openQuote quote cs ≠ quote) : ∃ q ∈ cs, Text.isQuote q = true := by
  by_contra hnone
  push Not at hnone
  exact h (Text.openQuote_of_not_isQuote hquote fun c hc => by simpa using hnone c hc)

/-- A text whose bars all stand inside quotes is read as several steps as soon as it has a bar. -/
theorem two_le_length_writtenSteps {cs : List Char} (huncut : Uncut '|' none cs)
    (hclosed : openQuote none cs = none) (hbar : '|' ∈ cs) : 2 ≤ (writtenSteps cs).length := by
  obtain ⟨before, after, rfl⟩ := List.append_of_mem hbar
  have hopen : openQuote none before ≠ none := huncut before after rfl
  have hquotes : ∀ q ∈ openQuote none before, Text.isQuote q = true :=
    Text.isQuote_of_openQuote (by simp) before
  -- The quotation is opened before the bar, and the bar leaves it open, so it is closed behind.
  have hstay : Text.quoteAfter (openQuote none before) '|' = openQuote none before :=
    Text.quoteAfter_of_not_isQuote hquotes (by decide)
  have hclose : openQuote (openQuote none before) after ≠ openQuote none before := by
    rw [Text.openQuote_append, Text.openQuote_cons, hstay] at hclosed
    rw [hclosed]
    exact hopen.symm
  obtain ⟨q, hq, hopens⟩ := exists_isQuote (by simp) hopen
  obtain ⟨r, hr, hcloses⟩ := exists_isQuote hquotes hclose
  have hfirst := List.length_pos_of_ne_nil (writtenSteps_ne_nil hopens hq)
  have hsecond := List.length_pos_of_ne_nil (writtenSteps_ne_nil hcloses hr)
  rw [writtenSteps_append_bar, List.length_append]
  omega

/-- What can be read as an invocation is not blank. -/
theorem trim_ne_nil_of_parse {text : String} {m : Invocation} (h : parse text = .ok m) :
    trim text.toList ≠ [] := by
  intro hnil
  rw [parse, hnil] at h
  cases h

/-! ## Steps of a list -/

section Steps

variable {steps : List String} {ms : List Invocation} (hread : steps.mapM parse = .ok ms)

include hread

/-- Steps that can be read are not blank. -/
theorem trim_ne_nil_of_mem : ∀ step ∈ steps, trim step.toList ≠ [] := by
  have hboth := (mapM_eq_ok_iff.mp hread).imp fun step m h => And.intro (trim_ne_nil_of_parse h) h
  exact ((List.forall₂_and_left _ _).mp hboth).1

/-- Steps without bars are read one by one. -/
theorem parseChain_joinWith (hbar : ∀ step ∈ steps, '|' ∉ step.toList) :
    parseChain (Text.joinWith "|" steps) = .ok ms := by
  have hwhole : ∀ step ∈ steps, writtenSteps step.toList = [step.toList] := fun step hstep =>
    writtenSteps_of_notMem (hbar step hstep) (trim_ne_nil_of_mem hread step hstep)
  rw [parseChain_eq_ok_iff, writtenSteps_joinWith, List.flatMap_congr hwhole,
    ← List.map_eq_flatMap, List.forall₂_map_left_iff]
  simpa using mapM_eq_ok_iff.mp hread

/-- Each step gives at least one, and each step with a bar inside quotes at least two. -/
theorem length_add_countP_le (huncut : ∀ step ∈ steps, Uncut '|' none step.toList)
    (hclosed : ∀ step ∈ steps, openQuote none step.toList = none) :
    steps.length + steps.countP (fun step => step.toList.contains '|') ≤
      (writtenSteps (Text.joinWith "|" steps).toList).length := by
  have hblank := trim_ne_nil_of_mem hread
  clear hread
  rw [writtenSteps_joinWith]
  -- By induction on the steps, of which each is counted for itself.
  induction steps with
  | nil => simp
  | cons step steps ih =>
    have hrest := ih (fun s hs => huncut s (List.mem_cons_of_mem _ hs))
      (fun s hs => hclosed s (List.mem_cons_of_mem _ hs))
      (fun s hs => hblank s (List.mem_cons_of_mem _ hs))
    rw [List.length_cons, List.countP_cons, List.flatMap_cons, List.length_append]
    by_cases hbar : '|' ∈ step.toList
    · have htwo := two_le_length_writtenSteps (huncut step List.mem_cons_self)
        (hclosed step List.mem_cons_self) hbar
      simp only [List.contains_iff_mem, hbar, if_true]
      omega
    · have hone := writtenSteps_of_notMem hbar (hblank step List.mem_cons_self)
      simp only [List.contains_iff_mem, hbar, if_false, hone, List.length_singleton]
      omega

end Steps

end Invocation

/-- A chain given as one text and the same chain given as a list of steps. Take any steps that can
    be read, with all quotes closed and no bar outside quotes. The text, with a bar between the
    steps, is read as the same list exactly if no step has a bar at all. If some have one, inside
    quotes, the text is not read, or as a chain that is longer by at least their number. -/
theorem chain_reads_as_steps_iff {steps : List String} {ms : List Invocation}
    (hread : steps.mapM Invocation.parse = .ok ms)
    (huncut : ∀ step ∈ steps, Text.Uncut '|' none step.toList)
    (hclosed : ∀ step ∈ steps, Text.openQuote none step.toList = none) :
    (Invocation.parseChain (Text.joinWith "|" steps) = .ok ms ↔
      ∀ step ∈ steps, '|' ∉ step.toList) ∧
    ∀ chain, Invocation.parseChain (Text.joinWith "|" steps) = .ok chain →
      ms.length + steps.countP (fun step => step.toList.contains '|') ≤ chain.length := by
  have hlength : steps.length = ms.length := (mapM_eq_ok_iff.mp hread).length_eq
  have hlonger : ∀ chain, Invocation.parseChain (Text.joinWith "|" steps) = .ok chain →
      ms.length + steps.countP (fun step => step.toList.contains '|') ≤ chain.length := by
    intro chain hchain
    have hcount := Invocation.length_add_countP_le hread huncut hclosed
    have hsame := (Invocation.parseChain_eq_ok_iff.mp hchain).length_eq
    omega
  refine ⟨⟨fun hchain => ?_, Invocation.parseChain_joinWith hread⟩, hlonger⟩
  -- The list itself is not longer, so that no step has a bar.
  have hzero : steps.countP (fun step => step.toList.contains '|') = 0 := by
    have hle := hlonger ms hchain
    omega
  simpa [List.countP_eq_zero] using hzero

/-- Steps with a colon in quotes, an apostrophe in quotes and blanks. -/
def clockSteps : List String :=
  [" date_format : '%H:%M' ", "upper", "cat:\"it's\""]

/-- The text of these steps is read as the list of them. -/
theorem clockSteps_chain :
    Text.joinWith "|" clockSteps = " date_format : '%H:%M' |upper|cat:\"it's\"" ∧
      clockSteps.mapM Invocation.parse =
        .ok [⟨"date_format", ["", "'%H:%M'"]⟩, ⟨"upper", [""]⟩, ⟨"cat", ["", "\"it's\""]⟩] ∧
      (∀ step ∈ clockSteps, Text.Uncut '|' none step.toList) ∧
      (∀ step ∈ clockSteps, Text.openQuote none step.toList = none) ∧
      Invocation.parseChain (Text.joinWith "|" clockSteps) =
        clockSteps.mapM Invocation.parse := by
  have hread : clockSteps.mapM Invocation.parse =
      .ok [⟨"date_format", ["", "'%H:%M'"]⟩, ⟨"upper", [""]⟩, ⟨"cat", ["", "\"it's\""]⟩] := by
    decide
  have huncut : ∀ step ∈ clockSteps, Text.Uncut '|' none step.toList := by decide
  have hclosed : ∀ step ∈ clockSteps, Text.openQuote none step.toList = none := by decide
  obtain ⟨hchain, -⟩ := chain_reads_as_steps_iff hread huncut hclosed
  exact ⟨by decide, hread, huncut, hclosed, (hchain.mpr (by decide)).trans hread.symm⟩

/-- A step with a bar inside quotes falls apart. The text of the first is not read at all. The text
    of the second is read as two steps, of which neither was written. -/
theorem barredStep_chain_differs :
    (Invocation.parse "cat:'a|b'" = .ok ⟨"cat", ["", "'a|b'"]⟩ ∧
      Text.Uncut '|' none "cat:'a|b'".toList ∧ Text.openQuote none "cat:'a|b'".toList = none ∧
      Invocation.parseChain (Text.joinWith "|" ["cat:'a|b'"]) = .error ⟨"b'"⟩) ∧
    Invocation.parse "cat:'a|lower:b'" = .ok ⟨"cat", ["", "'a|lower:b'"]⟩ ∧
      Text.Uncut '|' none "cat:'a|lower:b'".toList ∧
      Text.openQuote none "cat:'a|lower:b'".toList = none ∧
      Invocation.parseChain (Text.joinWith "|" ["cat:'a|lower:b'"]) =
        .ok [⟨"cat", ["", "'a"]⟩, ⟨"lower", ["", "b'"]⟩] := by
  decide

end TagPress
