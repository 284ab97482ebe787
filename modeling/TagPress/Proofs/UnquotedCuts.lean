import Mathlib.Data.List.DropRight
import TagPress.Text.Blank
import TagPress.Text.Split

/-!
# Cutting outside quotes

A text is cut at every separator outside quotes, and blanks are trimmed from texts and pieces. What
matters of a piece for the pieces behind it is the quotation that it leaves open. The pieces that a
cut can leave are exactly those that have no separator outside quotes and of which only the last
leaves a quotation open, and joining them with the separator gives the text back. Trimming changes
none of this, since blanks neither open nor close a quotation.

## Key results

- `splitUnquoted_eq_iff`: cutting and joining are inverse, on exactly the lists of pieces of a cut
- `trim_eq_self_iff`: the texts that trimming leaves alone
- `openQuote_trim`, `IsCut.map_trim`: trimmed pieces are pieces of a cut again
-/

namespace TagPress.Text

/-! ## Open quotations -/

/-- The characters of a class that has neither quote in it are no quotes. -/
theorem isQuote_eq_false {p : Char → Bool} (hsingle : p '\x27' = false)
    (hdouble : p '\x22' = false) {c : Char} (hc : p c = true) : isQuote c = false := by
  rw [← Bool.not_eq_true]
  intro hquote
  rw [isQuote, Bool.or_eq_true, beq_iff_eq, beq_iff_eq] at hquote
  obtain rfl | rfl := hquote
  · rw [hc] at hsingle
    cases hsingle
  · rw [hc] at hdouble
    cases hdouble

/-- The quotation that is open after one more character. It closes only with the character that
    opened it. -/
def quoteAfter (quote : Option Char) (c : Char) : Option Char :=
  match quote with
  | some q => if c = q then none else some q
  | none => if isQuote c then some c else none

/-- The quotation that is open after a text. -/
def openQuote (quote : Option Char) (cs : List Char) : Option Char :=
  cs.foldl quoteAfter quote

theorem openQuote_cons (quote : Option Char) (c : Char) (cs : List Char) :
    openQuote quote (c :: cs) = openQuote (quoteAfter quote c) cs := rfl

/-- What is open after a text is open before the next one. -/
theorem openQuote_append (quote : Option Char) (cs ds : List Char) :
    openQuote quote (cs ++ ds) = openQuote (openQuote quote cs) ds :=
  List.foldl_append

/-- Only a quote is ever open. -/
theorem isQuote_of_quoteAfter {quote : Option Char} (hquote : ∀ q ∈ quote, isQuote q = true)
    (c : Char) : ∀ q ∈ quoteAfter quote c, isQuote q = true := by
  intro q hq
  cases quote with
  | some p =>
    simp only [quoteAfter] at hq
    split at hq
    · cases hq
    · exact hquote q hq
  | none =>
    simp only [quoteAfter] at hq
    split at hq
    · rename_i hc
      rwa [← Option.some.inj hq]
    · cases hq

/-- After a text only a quote can be open. -/
theorem isQuote_of_openQuote {quote : Option Char} (hquote : ∀ q ∈ quote, isQuote q = true)
    (cs : List Char) : ∀ q ∈ openQuote quote cs, isQuote q = true := by
  induction cs generalizing quote with
  | nil => exact hquote
  | cons c cs ih => exact ih (isQuote_of_quoteAfter hquote c)

/-- Other characters change nothing. -/
theorem quoteAfter_of_not_isQuote {quote : Option Char} (hquote : ∀ q ∈ quote, isQuote q = true)
    {c : Char} (hc : isQuote c = false) : quoteAfter quote c = quote := by
  cases quote with
  | none => simp [quoteAfter, hc]
  | some q =>
    have hne : c ≠ q := by
      rintro rfl
      rw [hquote c rfl] at hc
      cases hc
    simp [quoteAfter, hne]

/-- A text without quotes opens and closes nothing. -/
theorem openQuote_of_not_isQuote {quote : Option Char} (hquote : ∀ q ∈ quote, isQuote q = true)
    {cs : List Char} (hcs : ∀ c ∈ cs, isQuote c = false) : openQuote quote cs = quote := by
  induction cs with
  | nil => rfl
  | cons c cs ih =>
    obtain ⟨hc, hcs⟩ := List.forall_mem_cons.mp hcs
    rw [openQuote_cons, quoteAfter_of_not_isQuote hquote hc, ih hcs]

/-! ## Pieces -/

/-- Every `sep` of the text stands inside quotes, when `quote` is open before the text. -/
def Uncut (sep : Char) (quote : Option Char) (cs : List Char) : Prop :=
  ∀ before after, cs = before ++ sep :: after → openQuote quote before ≠ none

theorem uncut_nil (sep : Char) (quote : Option Char) : Uncut sep quote [] := by
  simp [Uncut]

/-- A first character is no separator, or it stands inside quotes. -/
theorem uncut_cons {sep : Char} {quote : Option Char} {c : Char} {cs : List Char} :
    Uncut sep quote (c :: cs) ↔
      (c = sep → quote ≠ none) ∧ Uncut sep (quoteAfter quote c) cs := by
  constructor
  · intro h
    refine ⟨fun hc => h [] cs (by rw [hc]; rfl), fun before after hcs => ?_⟩
    exact h (c :: before) after (by rw [hcs]; rfl)
  · rintro ⟨hc, hcs⟩ before after heq
    -- The separator is the first character, or it comes later.
    cases before with
    | nil => exact hc (List.cons.inj heq).1
    | cons d before =>
      obtain ⟨rfl, htail⟩ := List.cons.inj heq
      exact hcs before after htail

instance decidableUncut (sep : Char) :
    (quote : Option Char) → (cs : List Char) → Decidable (Uncut sep quote cs)
  | quote, [] => .isTrue (uncut_nil sep quote)
  | quote, c :: cs =>
    have := decidableUncut sep (quoteAfter quote c) cs
    decidable_of_iff' _ uncut_cons

/-- The second of two texts starts with what the first one leaves open. -/
theorem uncut_append {sep : Char} {quote : Option Char} {cs ds : List Char} :
    Uncut sep quote (cs ++ ds) ↔ Uncut sep quote cs ∧ Uncut sep (openQuote quote cs) ds := by
  induction cs generalizing quote with
  | nil => simp [uncut_nil, openQuote]
  | cons c cs ih => rw [List.cons_append, uncut_cons, uncut_cons, ih, and_assoc, openQuote_cons]

/-- Without separators there is nothing to cut. -/
theorem uncut_of_notMem {sep : Char} {cs : List Char} (h : sep ∉ cs) (quote : Option Char) :
    Uncut sep quote cs := by
  rintro before after rfl
  exact absurd (by simp) h

/-- Nothing is cut before the quote that closes the quotation. -/
theorem uncut_of_quote_notMem {q : Char} {cs : List Char} (h : q ∉ cs) (sep : Char) :
    Uncut sep (some q) cs := by
  induction cs with
  | nil => exact uncut_nil sep (some q)
  | cons c cs ih =>
    rw [List.mem_cons, not_or] at h
    have hstay : quoteAfter (some q) c = some q := if_neg fun hc => h.1 hc.symm
    rw [uncut_cons, hstay]
    exact ⟨by simp, ih h.2⟩

/-- The pieces that cutting a text at `sep` can leave. -/
structure IsCut (sep : Char) (pieces : List (List Char)) : Prop where
  ne_nil : pieces ≠ []
  uncut : ∀ piece ∈ pieces, Uncut sep none piece
  closed : ∀ piece ∈ pieces.dropLast, openQuote none piece = none

/-- One piece is a cut if it has no separator outside quotes. -/
theorem isCut_singleton {sep : Char} {piece : List Char} :
    IsCut sep [piece] ↔ Uncut sep none piece :=
  ⟨fun h => h.uncut piece List.mem_cons_self, fun h => ⟨by simp, by simpa using h, by simp⟩⟩

/-- Only the last piece may leave a quotation open, so the first one of several closes its own. -/
theorem isCut_cons {sep : Char} {piece : List Char} {pieces : List (List Char)}
    (hne : pieces ≠ []) :
    IsCut sep (piece :: pieces) ↔
      Uncut sep none piece ∧ openQuote none piece = none ∧ IsCut sep pieces := by
  constructor
  · rintro ⟨-, huncut, hclosed⟩
    obtain ⟨hpiece, huncut⟩ := List.forall_mem_cons.mp huncut
    rw [List.dropLast_cons_of_ne_nil hne] at hclosed
    obtain ⟨hnone, hclosed⟩ := List.forall_mem_cons.mp hclosed
    exact ⟨hpiece, hnone, hne, huncut, hclosed⟩
  · rintro ⟨hpiece, hnone, -, huncut, hclosed⟩
    refine ⟨by simp, List.forall_mem_cons.mpr ⟨hpiece, huncut⟩, ?_⟩
    rw [List.dropLast_cons_of_ne_nil hne]
    exact List.forall_mem_cons.mpr ⟨hnone, hclosed⟩

/-! ## Cutting -/

section Cutting

variable {sep : Char}

/-- A character that is no separator outside quotes goes to the first piece. -/
theorem splitUnquoted_cons {quote : Option Char} {c : Char} (hc : c = sep → quote ≠ none)
    (cs : List Char) :
    splitUnquoted sep quote (c :: cs) =
      consFirst c (splitUnquoted sep (quoteAfter quote c) cs) := by
  cases quote with
  | some q => by_cases hq : c = q <;> simp [splitUnquoted, quoteAfter, hq]
  | none =>
    have hne : c ≠ sep := fun heq => hc heq rfl
    by_cases hquote : isQuote c = true <;> simp [splitUnquoted, quoteAfter, hquote, hne]

/-- A separator outside quotes ends an empty first piece. -/
theorem splitUnquoted_sep (hsep : isQuote sep = false) (cs : List Char) :
    splitUnquoted sep none (sep :: cs) = [] :: splitUnquoted sep none cs := by
  simp [splitUnquoted, hsep]

/-- A text whose separators all stand inside quotes is one piece. -/
theorem splitUnquoted_of_uncut {quote : Option Char} {piece : List Char}
    (h : Uncut sep quote piece) : splitUnquoted sep quote piece = [piece] := by
  induction piece generalizing quote with
  | nil => rfl
  | cons c cs ih =>
    obtain ⟨hc, hcs⟩ := uncut_cons.mp h
    rw [splitUnquoted_cons hc, ih hcs, consFirst]

/-- Behind a piece that leaves no quotation open, the separator cuts. -/
theorem splitUnquoted_append_sep (hsep : isQuote sep = false) {quote : Option Char}
    {piece : List Char} (h : Uncut sep quote piece) (hopen : openQuote quote piece = none)
    (rest : List Char) :
    splitUnquoted sep quote (piece ++ sep :: rest) = piece :: splitUnquoted sep none rest := by
  -- By induction on the piece; what is open changes from character to character.
  induction piece generalizing quote with
  | nil =>
    rw [show quote = none from hopen, List.nil_append, splitUnquoted_sep hsep]
  | cons c cs ih =>
    obtain ⟨hc, hcs⟩ := uncut_cons.mp h
    rw [List.cons_append, splitUnquoted_cons hc, ih hcs hopen, consFirst]

/-- A text is one piece, or has a first cut. -/
theorem uncut_or_exists_cut (sep : Char) (quote : Option Char) (cs : List Char) :
    Uncut sep quote cs ∨
      ∃ piece rest, cs = piece ++ sep :: rest ∧ Uncut sep quote piece ∧
        openQuote quote piece = none := by
  induction cs generalizing quote with
  | nil => exact .inl (uncut_nil sep quote)
  | cons c cs ih =>
    -- The first character cuts, or it belongs to the first piece.
    by_cases hc : c = sep → quote ≠ none
    · obtain hcs | ⟨piece, rest, rfl, hpiece, hopen⟩ := ih (quoteAfter quote c)
      · exact .inl (uncut_cons.mpr ⟨hc, hcs⟩)
      · exact .inr ⟨c :: piece, rest, rfl, uncut_cons.mpr ⟨hc, hpiece⟩, hopen⟩
    · push Not at hc
      exact .inr ⟨[], cs, by rw [hc.1]; rfl, uncut_nil sep quote, hc.2⟩

/-- Cutting leaves pieces of a cut, which make up the text again. -/
theorem isCut_splitUnquoted (hsep : isQuote sep = false) (cs : List Char) :
    IsCut sep (splitUnquoted sep none cs) ∧
      [sep].intercalate (splitUnquoted sep none cs) = cs := by
  -- The induction is on the length, since what follows a cut is cut again.
  induction hlength : cs.length using Nat.strong_induction_on generalizing cs with
  | _ n ih =>
    obtain huncut | ⟨piece, rest, rfl, hpiece, hopen⟩ := uncut_or_exists_cut sep none cs
    · rw [splitUnquoted_of_uncut huncut]
      exact ⟨isCut_singleton.mpr huncut, List.intercalate_singleton⟩
    · have hshorter : rest.length < n := by
        rw [← hlength, List.length_append, List.length_cons]
        omega
      obtain ⟨hrest, hjoin⟩ := ih rest.length hshorter rest rfl
      rw [splitUnquoted_append_sep hsep hpiece hopen]
      refine ⟨(isCut_cons hrest.ne_nil).mpr ⟨hpiece, hopen, hrest⟩, ?_⟩
      rw [List.intercalate_cons_of_ne_nil hrest.ne_nil, hjoin, List.append_assoc,
        List.singleton_append]

/-- Joined pieces of a cut are cut into the same pieces. -/
theorem IsCut.splitUnquoted_intercalate (hsep : isQuote sep = false) {pieces : List (List Char)}
    (h : IsCut sep pieces) :
    splitUnquoted sep none ([sep].intercalate pieces) = pieces := by
  induction pieces with
  | nil => exact absurd rfl h.ne_nil
  | cons piece pieces ih =>
    cases pieces with
    | nil =>
      rw [List.intercalate_singleton]
      exact splitUnquoted_of_uncut (isCut_singleton.mp h)
    | cons next pieces =>
      obtain ⟨hpiece, hopen, hrest⟩ := (isCut_cons (by simp)).mp h
      rw [List.intercalate_cons_cons, List.append_assoc, List.singleton_append,
        splitUnquoted_append_sep hsep hpiece hopen, ih hrest]

/-- Cutting and joining are inverse on exactly the pieces of a cut. -/
theorem splitUnquoted_eq_iff (hsep : isQuote sep = false) {cs : List Char}
    {pieces : List (List Char)} :
    splitUnquoted sep none cs = pieces ↔ IsCut sep pieces ∧ [sep].intercalate pieces = cs := by
  constructor
  · rintro rfl
    exact isCut_splitUnquoted hsep cs
  · rintro ⟨hpieces, rfl⟩
    exact IsCut.splitUnquoted_intercalate hsep hpieces

end Cutting

/-! ## Trimming -/

/-- Blanks are no quotes. -/
theorem isQuote_of_isBlank {c : Char} (h : isBlank c = true) : isQuote c = false :=
  isQuote_eq_false (by decide) (by decide) h

/-- What trimming takes away is blank and stands on the two sides. -/
theorem exists_eq_trim (cs : List Char) :
    ∃ front back, cs = front ++ (trim cs ++ back) ∧ (∀ c ∈ front, isBlank c = true) ∧
      ∀ c ∈ back, isBlank c = true := by
  refine ⟨cs.takeWhile isBlank, (trimStart cs).rtakeWhile isBlank, ?_,
    fun c hc => List.mem_takeWhile_imp hc, fun c hc => List.mem_rtakeWhile_imp hc⟩
  have hend : trim cs ++ (trimStart cs).rtakeWhile isBlank = trimStart cs :=
    List.rdropWhile_append_rtakeWhile
  rw [hend]
  exact List.takeWhile_append_dropWhile.symm

/-- Trimming leaves something of a text that is not blank. -/
theorem trim_ne_nil {cs : List Char} {c : Char} (hc : c ∈ cs) (hblank : isBlank c = false) :
    trim cs ≠ [] := by
  intro hnil
  obtain ⟨front, back, hcs, hfront, hback⟩ := exists_eq_trim cs
  rw [hnil, List.nil_append] at hcs
  rw [hcs] at hc
  have hall : isBlank c = true := by
    obtain hc | hc := List.mem_append.mp hc
    · exact hfront c hc
    · exact hback c hc
  simp [hblank] at hall

/-- A trimmed text neither begins nor ends with a blank. -/
theorem ends_of_trim (cs : List Char) :
    (∀ c, (trim cs).head? = some c → isBlank c = false) ∧
      ∀ c, (trim cs).getLast? = some c → isBlank c = false := by
  constructor
  · intro c hc
    obtain ⟨back, hback⟩ : trim cs <+: trimStart cs := List.rdropWhile_prefix isBlank (trimStart cs)
    -- Trimming the end leaves the front as it was after trimming the start.
    have hhead : (cs.dropWhile isBlank).head? = some c := by
      rw [← trimStart, ← hback, List.head?_append, hc, Option.some_or]
    have hstop := List.head?_dropWhile_not isBlank cs
    rwa [hhead] at hstop
  · intro c hc
    have hne : trim cs ≠ [] := by
      intro hnil
      rw [hnil] at hc
      cases hc
    have hlast := List.rdropWhile_last_not isBlank (trimStart cs) hne
    rw [List.getLast?_eq_some_getLast hne, Option.some.injEq] at hc
    rw [← hc]
    exact Bool.not_eq_true _ ▸ hlast

/-- Trimming leaves a text alone exactly if it neither begins nor ends with a blank. -/
theorem trim_eq_self_iff {cs : List Char} :
    trim cs = cs ↔
      (∀ c, cs.head? = some c → isBlank c = false) ∧
        ∀ c, cs.getLast? = some c → isBlank c = false := by
  constructor
  · intro h
    have hends := ends_of_trim cs
    rwa [h] at hends
  · rintro ⟨hhead, hlast⟩
    have hstart : trimStart cs = cs := by
      refine List.dropWhile_eq_self_iff.mpr fun hpos => ?_
      have hc := hhead cs[0] (by rw [List.head?_eq_getElem?, List.getElem?_eq_getElem hpos])
      simp [hc]
    rw [trim, hstart]
    refine List.rdropWhile_eq_self_iff.mpr fun hne => ?_
    have hc := hlast (cs.getLast hne) (List.getLast?_eq_some_getLast hne)
    simp [hc]

/-- A text without blanks is trimmed already. -/
theorem trim_eq_self {cs : List Char} (h : ∀ c ∈ cs, isBlank c = false) : trim cs = cs :=
  trim_eq_self_iff.mpr ⟨fun c hc => h c (List.mem_of_mem_head? hc),
    fun c hc => h c (List.mem_of_getLast? hc)⟩

/-- Trimming twice changes nothing more. -/
theorem trim_trim (cs : List Char) : trim (trim cs) = trim cs :=
  trim_eq_self_iff.mpr (ends_of_trim cs)

/-- Trimming leaves the same quotation open. -/
theorem openQuote_trim (cs : List Char) : openQuote none (trim cs) = openQuote none cs := by
  obtain ⟨front, back, hcs, hfront, hback⟩ := exists_eq_trim cs
  have hnone : ∀ q ∈ (none : Option Char), isQuote q = true := by simp
  have hbefore : openQuote none front = none :=
    openQuote_of_not_isQuote hnone fun c hc => isQuote_of_isBlank (hfront c hc)
  have hbehind : openQuote (openQuote none (trim cs)) back = openQuote none (trim cs) :=
    openQuote_of_not_isQuote (isQuote_of_openQuote hnone _)
      fun c hc => isQuote_of_isBlank (hback c hc)
  -- Blanks in front meet no open quotation, and blanks behind close none.
  conv => rhs; rw [hcs]
  rw [openQuote_append, openQuote_append, hbefore, hbehind]

/-- Trimming brings no separator out of its quotes. -/
theorem Uncut.trim {sep : Char} {cs : List Char} (h : Uncut sep none cs) :
    Uncut sep none (trim cs) := by
  intro before after htrim
  obtain ⟨front, back, hcs, hfront, -⟩ := exists_eq_trim cs
  have hbefore : openQuote none front = none :=
    openQuote_of_not_isQuote (by simp) fun c hc => isQuote_of_isBlank (hfront c hc)
  have hopen := h (front ++ before) (after ++ back) (by
    rw [hcs, htrim]
    simp only [List.append_assoc, List.cons_append])
  rwa [openQuote_append, hbefore] at hopen

/-- Trimmed pieces of a cut are pieces of a cut. -/
theorem IsCut.map_trim {sep : Char} {pieces : List (List Char)} (h : IsCut sep pieces) :
    IsCut sep (pieces.map Text.trim) := by
  refine ⟨by simpa using h.ne_nil, ?_, ?_⟩
  · rintro _ hmem
    obtain ⟨piece, hpiece, rfl⟩ := List.mem_map.mp hmem
    exact (h.uncut piece hpiece).trim
  · rw [← List.map_dropLast]
    rintro _ hmem
    obtain ⟨piece, hpiece, rfl⟩ := List.mem_map.mp hmem
    rw [openQuote_trim, h.closed piece hpiece]

/-- Joined pieces end with a separator or as a piece does. -/
theorem isBlank_getLast?_intercalate {sep : Char} (hsep : isBlank sep = false)
    {pieces : List (List Char)} (h : ∀ piece ∈ pieces, trim piece = piece) {c : Char}
    (hc : ([sep].intercalate pieces).getLast? = some c) : isBlank c = false := by
  induction pieces with
  | nil => cases hc
  | cons piece pieces ih =>
    obtain ⟨hpiece, hpieces⟩ := List.forall_mem_cons.mp h
    cases pieces with
    | nil =>
      rw [List.intercalate_singleton] at hc
      exact (trim_eq_self_iff.mp hpiece).2 c hc
    | cons next pieces =>
      rw [List.intercalate_cons_cons, List.getLast?_append, List.getLast?_append] at hc
      -- The last piece may be empty, and then the separator before it is the last character.
      cases hlast : ([sep].intercalate (next :: pieces)).getLast? with
      | some d =>
        rw [hlast, Option.some_or] at hc
        exact ih hpieces (hlast.trans hc)
      | none =>
        rw [hlast, Option.none_or, List.getLast?_singleton, Option.some_or] at hc
        rwa [← Option.some.inj hc]

/-- Trimmed pieces, of which the first is not empty, are joined to a trimmed text. -/
theorem trim_intercalate {sep : Char} (hsep : isBlank sep = false) {first : List Char}
    {others : List (List Char)} (hfirst : first ≠ [])
    (h : ∀ piece ∈ first :: others, trim piece = piece) :
    trim ([sep].intercalate (first :: others)) = [sep].intercalate (first :: others) := by
  refine trim_eq_self_iff.mpr ⟨fun c hc => ?_, fun c => isBlank_getLast?_intercalate hsep h⟩
  have hhead : ([sep].intercalate (first :: others)).head? = first.head? := by
    obtain ⟨d, ds, rfl⟩ := List.exists_cons_of_ne_nil hfirst
    cases others with
    | nil => rw [List.intercalate_singleton]
    | cons next others => rfl
  rw [hhead] at hc
  exact (trim_eq_self_iff.mp (h first List.mem_cons_self)).1 c hc

end TagPress.Text
