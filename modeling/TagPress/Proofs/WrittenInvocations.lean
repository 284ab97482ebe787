import TagPress.Code
import TagPress.Invocation
import TagPress.Proofs.UnquotedCuts

/-!
# Written invocations

Which invocations of a modifier can be written down and read back. An invocation that was read has a
word as its name and trimmed arguments that keep their colons inside quotes, and only the last of
them may leave a quotation open. These are exactly the invocations whose written form is read as the
same invocation. The literals of emitted code are written with escaped quotes, which the reader of
invocations does not know. So a literal is one argument only as long as its colons stand inside
quotes for that reader, too.

## Key results

- `Invocation.parse_eq_ok_iff`: what is read, as a condition on the pieces of the text
- `Invocation.parse_render_iff`: the invocations that are read back
- `invocation_reads_back`: reading and writing are inverse on exactly the printable invocations
- `literal_argument_cut`: how the literal of a text is cut into arguments
-/

namespace TagPress

/-! ## Words -/

namespace Text

variable {cs : List Char}

/-- Words, character by character. -/
theorem isWord_iff :
    isWord cs = true ↔ cs ≠ [] ∧ ∀ c ∈ cs, isAlphanumeric c = true ∨ c = '_' := by
  simp [isWord, isWordChar]

/-- The characters of a word. -/
theorem isWordChar_of_mem (h : isWord cs = true) {c : Char} (hc : c ∈ cs) : isWordChar c = true :=
  List.all_eq_true.mp (Bool.and_eq_true_iff.mp h).2 c hc

/-- A word has no blanks. -/
theorem trim_of_isWord (h : isWord cs = true) : trim cs = cs := by
  refine trim_eq_self fun c hc => ?_
  rw [← Bool.not_eq_true]
  intro hblank
  obtain halpha | rfl := (isWord_iff.mp h).2 c hc
  · rw [isAlphanumeric_of_isBlank hblank] at halpha
    cases halpha
  · revert hblank
    decide

/-- A word has neither quotes nor colons. -/
theorem uncut_of_isWord (h : isWord cs = true) :
    Uncut ':' none cs ∧ openQuote none cs = none := by
  have hcolon : ':' ∉ cs := by
    intro hc
    have hword := isWordChar_of_mem h hc
    revert hword
    decide
  have hquote : ∀ c ∈ cs, isQuote c = false := fun c hc =>
    isQuote_eq_false (by decide) (by decide) (isWordChar_of_mem h hc)
  exact ⟨uncut_of_notMem hcolon none, openQuote_of_not_isQuote (by simp) hquote⟩

end Text

/-! ## Reading and writing -/

namespace Invocation

open Text (IsCut Uncut openQuote trim strip isWord)

/-- The name is a word, the arguments behind the slot are trimmed and keep their colons inside
    quotes, and only the last of them may leave a quotation open. -/
structure Printable (m : Invocation) : Prop where
  name_ne_empty : m.name ≠ ""
  name_word : ∀ c ∈ m.name.toList, Text.isAlphanumeric c = true ∨ c = '_'
  trimmed : ∀ arg ∈ m.args.tail, strip arg = arg
  uncut : ∀ arg ∈ m.args.tail, Uncut ':' none arg.toList
  closed : ∀ arg ∈ m.args.tail.dropLast, openQuote none arg.toList = none

/-- The pieces that an invocation is written with. -/
def pieces (m : Invocation) : List (List Char) :=
  m.name.toList :: m.args.tail.map String.toList

/-- An invocation is written as its pieces with colons between them. -/
theorem toList_render (m : Invocation) : m.render.toList = [':'].intercalate m.pieces := by
  -- Each argument is written with its colon in front, which is the one between the pieces.
  have hjoin : ∀ (args : List String) (first : List Char),
      [':'].intercalate (first :: args.map String.toList) =
        first ++ (args.map (":" ++ ·)).flatMap String.toList := by
    intro args
    induction args with
    | nil => simp
    | cons arg args ih =>
      intro first
      rw [List.map_cons, List.intercalate_cons_cons, ih]
      simp
  rw [render, String.toList_append, String.toList_join, List.drop_one, pieces, hjoin]

/-- A text is read as an invocation exactly if it is cut into pieces that are, once trimmed, those
    of the invocation. -/
theorem parse_eq_ok_iff {text : String} {m : Invocation} :
    parse text = .ok m ↔
      m.args.head? = some "" ∧ isWord m.name.toList = true ∧
        ∃ pieces, IsCut ':' pieces ∧ [':'].intercalate pieces = trim text.toList ∧
          pieces.map trim = m.pieces := by
  have hcolon : Text.isQuote ':' = false := by decide
  rw [parse]
  constructor
  · intro h
    obtain ⟨hcut, hjoin⟩ := Text.isCut_splitUnquoted hcolon (trim text.toList)
    -- Only a list of pieces that begins with a word gives an invocation.
    split at h
    · rename_i name args hpieces
      split at h
      · rename_i hword
        have hm := (Except.ok.inj h).symm
        subst hm
        refine ⟨rfl, by rwa [String.toList_ofList], _, hcut, hjoin, ?_⟩
        simp [hpieces, pieces, Function.comp_def]
      · cases h
    · cases h
  · rintro ⟨hslot, hword, pieces, hcut, hjoin, hpieces⟩
    rw [(Text.splitUnquoted_eq_iff hcolon).mpr ⟨hcut, hjoin⟩, hpieces, Invocation.pieces]
    -- The slot is the first argument, and the pieces are the others.
    have hargs : m.args = "" :: m.args.tail := (List.cons_head?_tail hslot).symm
    simp only [hword, if_true, List.map_map, Function.comp_def, String.ofList_toList, List.map_id']
    rw [← hargs]

/-- What was read can be written. -/
theorem printable_of_parse {text : String} {m : Invocation} (h : parse text = .ok m) :
    m.Printable := by
  obtain ⟨-, hword, cut, hcut, -, hpieces⟩ := parse_eq_ok_iff.mp h
  -- The pieces of the invocation are trimmed pieces of a cut. Of these the first is the name.
  have htrimmed : ∀ piece ∈ m.pieces, trim piece = piece := by
    rw [← hpieces]
    rintro _ hmem
    obtain ⟨piece, -, rfl⟩ := List.mem_map.mp hmem
    exact Text.trim_trim piece
  have hcut := hpieces ▸ hcut.map_trim
  have hmem : ∀ arg ∈ m.args.tail, arg.toList ∈ m.pieces := fun arg harg =>
    List.mem_cons_of_mem _ (List.mem_map_of_mem harg)
  obtain ⟨hname, hchars⟩ := Text.isWord_iff.mp hword
  refine ⟨fun hempty => hname (by rw [hempty]; rfl), hchars, fun arg harg => ?_,
    fun arg harg => hcut.uncut _ (hmem arg harg), fun arg harg => ?_⟩
  · rw [strip, htrimmed _ (hmem arg harg), String.ofList_toList]
  · -- An argument before the last is also a piece before the last, since the name comes first.
    have hne : m.args.tail.map String.toList ≠ [] := by
      rw [Ne, List.map_eq_nil_iff]
      exact List.ne_nil_of_mem (List.dropLast_subset _ harg)
    refine hcut.closed arg.toList ?_
    rw [pieces, List.dropLast_cons_of_ne_nil hne, ← List.map_dropLast]
    exact List.mem_cons_of_mem _ (List.mem_map_of_mem harg)

namespace Printable

variable {m : Invocation}

/-- The name of a printable invocation is a word. -/
theorem isWord_name (h : m.Printable) : isWord m.name.toList = true :=
  Text.isWord_iff.mpr ⟨by simpa using h.name_ne_empty, h.name_word⟩

/-- The pieces of a printable invocation are those of a cut. -/
theorem isCut_pieces (h : m.Printable) : IsCut ':' m.pieces := by
  obtain ⟨huncut, hclosed⟩ := Text.uncut_of_isWord h.isWord_name
  -- Without arguments the name is the last piece, and with arguments it has to be closed.
  by_cases hargs : m.args.tail = []
  · rw [pieces, hargs]
    exact Text.isCut_singleton.mpr huncut
  · have hne : m.args.tail.map String.toList ≠ [] := by rwa [Ne, List.map_eq_nil_iff]
    refine (Text.isCut_cons hne).mpr ⟨huncut, hclosed, hne, ?_, ?_⟩
    · exact List.forall_mem_map.mpr h.uncut
    · rw [← List.map_dropLast]
      exact List.forall_mem_map.mpr h.closed

/-- They are trimmed. -/
theorem trim_pieces (h : m.Printable) : ∀ piece ∈ m.pieces, trim piece = piece := by
  refine List.forall_mem_cons.mpr ⟨Text.trim_of_isWord h.isWord_name, ?_⟩
  refine List.forall_mem_map.mpr fun arg harg => ?_
  have hstrip := congrArg String.toList (h.trimmed arg harg)
  rwa [strip, String.toList_ofList] at hstrip

/-- What can be written is read as it was. -/
theorem parse_render (h : m.Printable) (hslot : m.args.head? = some "") :
    parse m.render = .ok m := by
  have hname : m.name.toList ≠ [] := by simpa using h.name_ne_empty
  have htext : trim m.render.toList = [':'].intercalate m.pieces := by
    rw [toList_render]
    exact Text.trim_intercalate (by decide) hname h.trim_pieces
  refine parse_eq_ok_iff.mpr ⟨hslot, h.isWord_name, m.pieces, h.isCut_pieces, htext.symm, ?_⟩
  exact (List.map_congr_left h.trim_pieces).trans (List.map_id' _)

end Printable

/-- The invocations that are read back are the printable ones. -/
theorem parse_render_iff {m : Invocation} (hslot : m.args.head? = some "") :
    parse m.render = .ok m ↔ m.Printable :=
  ⟨printable_of_parse, fun h => h.parse_render hslot⟩

end Invocation

/-- Reading and writing invocations are inverse. An invocation that was read from some text is read
    again from its written form. And an invocation with an empty slot is read from its written form
    exactly if its name is a word, its arguments are trimmed and have no colon outside quotes, and
    none but the last leaves a quotation open. -/
theorem invocation_reads_back (m : Invocation) :
    (∀ text, Invocation.parse text = .ok m → Invocation.parse m.render = .ok m) ∧
      (m.args.head? = some "" → (Invocation.parse m.render = .ok m ↔ m.Printable)) := by
  refine ⟨fun text h => ?_, Invocation.parse_render_iff⟩
  obtain ⟨hslot, -⟩ := Invocation.parse_eq_ok_iff.mp h
  exact (Invocation.printable_of_parse h).parse_render hslot

/-- An invocation with a colon in quotes, an empty argument and a quotation that stays open. -/
def clockFormat : Invocation :=
  ⟨"date_format", ["", "'%H:%M'", "", "\"it's"]⟩

/-- An invocation whose first argument leaves a quotation open. -/
def openedEarly : Invocation :=
  ⟨"cat", ["", "'", "x"]⟩

/-- The first is read back. The second is not, since its quotation takes the next colon in. -/
theorem clockFormat_reads_back :
    Invocation.parse " date_format : '%H:%M' ::\"it's" = .ok clockFormat ∧
      clockFormat.render = "date_format:'%H:%M'::\"it's" ∧
      Invocation.parse clockFormat.render = .ok clockFormat ∧ clockFormat.Printable ∧
      Invocation.parse openedEarly.render = .ok ⟨"cat", ["", "':x"]⟩ ∧ ¬ openedEarly.Printable := by
  obtain ⟨hagain, hprintable⟩ := invocation_reads_back clockFormat
  have hread : Invocation.parse " date_format : '%H:%M' ::\"it's" = .ok clockFormat := by
    decide
  have hother : Invocation.parse openedEarly.render = .ok ⟨"cat", ["", "':x"]⟩ := by
    decide
  have hback := hagain _ hread
  refine ⟨hread, by decide, hback, (hprintable rfl).mp hback, hother, fun h => ?_⟩
  have hlost := ((invocation_reads_back openedEarly).2 rfl).mpr h
  rw [hother] at hlost
  revert hlost
  decide

/-! ## Literals as arguments -/

namespace Code

open Text (Uncut openQuote trim)

/-- A literal begins and ends with its quotes. -/
theorem trim_quote (s : String) : trim (quote s).toList = (quote s).toList := by
  have hblank : Text.isBlank '\x27' = false := by decide
  rw [Text.trim_eq_self_iff, toList_quote]
  constructor
  · intro c hc
    rwa [← Option.some.inj hc]
  · intro c hc
    rw [← List.cons_append, List.getLast?_concat] at hc
    rwa [← Option.some.inj hc]

/-- Escaping adds backslashes only, and they mean nothing to the cut. -/
theorem uncut_escape {quote : Option Char} (hquote : ∀ q ∈ quote, Text.isQuote q = true)
    {cs : List Char} : Uncut ':' quote (escape cs) ↔ Uncut ':' quote cs := by
  induction cs generalizing quote with
  | nil => rfl
  | cons c cs ih =>
    have hslash : Text.quoteAfter quote '\\' = quote :=
      Text.quoteAfter_of_not_isQuote hquote (by decide)
    have hcs := ih (Text.isQuote_of_quoteAfter hquote c)
    rw [escape]
    split
    · -- The backslash is no colon and leaves the state to the character that it escapes.
      rw [Text.uncut_cons, hslash, Text.uncut_cons, hcs, ← Text.uncut_cons]
      simp
    · rw [Text.uncut_cons, hcs, ← Text.uncut_cons]

/-- A literal is not cut exactly if the colons of its text stand inside quotes, where the quote
    that begins the literal counts and escapes do not. -/
theorem uncut_quote_iff {s : String} :
    Uncut ':' none (quote s).toList ↔ Uncut ':' (some '\x27') s.toList := by
  have hopen : Text.quoteAfter none '\x27' = some '\x27' := by decide
  -- The quote at the end is no colon, whatever is open before it.
  have hlast : Uncut ':' (openQuote (some '\x27') (escape s.toList)) ['\x27'] :=
    Text.uncut_of_notMem (by decide) _
  have hquote : ∀ q ∈ some '\x27', Text.isQuote q = true := by
    intro q hq
    rw [← Option.some.inj hq]
    decide
  rw [toList_quote, Text.uncut_cons, hopen, Text.uncut_append, uncut_escape hquote]
  simp [hlast]

end Code

namespace Invocation

open Text (IsCut Uncut isWord trim)

variable {name : String}

/-- The text of a name and one argument. -/
theorem toList_single (arg : String) :
    (name ++ ":" ++ arg).toList = [':'].intercalate [name.toList, arg.toList] := by
  simp

/-- An argument behind a name is cut on its own, with nothing open before it. -/
theorem parse_single (hname : isWord name.toList = true) {arg : String}
    (harg : trim arg.toList = arg.toList) {cut : List (List Char)} (hcut : IsCut ':' cut)
    (hjoin : [':'].intercalate cut = arg.toList) :
    parse (name ++ ":" ++ arg) =
      .ok ⟨name, "" :: cut.map fun piece => String.ofList (trim piece)⟩ := by
  obtain ⟨huncut, hclosed⟩ := Text.uncut_of_isWord hname
  -- The name has no blanks and is not empty, so trimming the whole does nothing.
  have htext : trim (name ++ ":" ++ arg).toList = [':'].intercalate (name.toList :: cut) := by
    have hpieces : ∀ piece ∈ [name.toList, arg.toList], trim piece = piece := by
      simp [Text.trim_of_isWord hname, harg]
    have hne : name.toList ≠ [] := (Text.isWord_iff.mp hname).1
    rw [toList_single, Text.trim_intercalate (by decide) hne hpieces,
      List.intercalate_cons_of_ne_nil hcut.ne_nil, hjoin, List.intercalate_cons_cons,
      List.intercalate_singleton]
  refine parse_eq_ok_iff.mpr ⟨rfl, hname, name.toList :: cut, ?_, htext.symm, ?_⟩
  · exact (Text.isCut_cons hcut.ne_nil).mpr ⟨huncut, hclosed, hcut⟩
  · simp [pieces, Text.trim_of_isWord hname, Function.comp_def]

/-- A trimmed argument behind a name stays whole exactly if its colons stand inside quotes. -/
theorem parse_single_iff (hname : isWord name.toList = true) {arg : String}
    (harg : trim arg.toList = arg.toList) :
    parse (name ++ ":" ++ arg) = .ok ⟨name, ["", arg]⟩ ↔ Uncut ':' none arg.toList := by
  have hrender : render ⟨name, ["", arg]⟩ = name ++ ":" ++ arg := by
    rw [← String.toList_inj, toList_render, toList_single]
    rfl
  rw [← hrender, parse_render_iff rfl]
  refine ⟨fun h => h.uncut arg (by simp), fun huncut => ?_⟩
  obtain ⟨hne, hchars⟩ := Text.isWord_iff.mp hname
  have hstrip : Text.strip arg = arg := by rw [Text.strip, harg, String.ofList_toList]
  exact ⟨by simpa using hne, hchars, by simpa using hstrip, by simpa using huncut, by simp⟩

end Invocation

/-- The literal of a text as the argument of a modifier. It is cut at its colons outside quotes,
    where a quote closes with the next one even if a backslash stands before it, and it is one
    argument exactly if every colon of the text stands inside quotes in this sense. So the literal
    of a text without single quotes is always one argument. -/
theorem literal_argument_cut {name : String} (hname : Text.isWord name.toList = true)
    (s : String) :
    (∃ pieces, Text.IsCut ':' pieces ∧ [':'].intercalate pieces = (Code.quote s).toList ∧
      Invocation.parse (name ++ ":" ++ Code.quote s) =
        .ok ⟨name, "" :: pieces.map fun piece => String.ofList (Text.trim piece)⟩) ∧
    (Invocation.parse (name ++ ":" ++ Code.quote s) = .ok ⟨name, ["", Code.quote s]⟩ ↔
      Text.Uncut ':' (some '\x27') s.toList) ∧
    ('\x27' ∉ s.toList →
      Invocation.parse (name ++ ":" ++ Code.quote s) = .ok ⟨name, ["", Code.quote s]⟩) := by
  have hcolon : Text.isQuote ':' = false := by decide
  obtain ⟨hcut, hjoin⟩ := Text.isCut_splitUnquoted hcolon (Code.quote s).toList
  -- The literal is trimmed, so it is one argument unless it is cut; and what cuts it stands in the
  -- text.
  have hwhole := Invocation.parse_single_iff hname (Code.trim_quote s)
  rw [Code.uncut_quote_iff] at hwhole
  refine ⟨⟨_, hcut, hjoin, Invocation.parse_single hname (Code.trim_quote s) hcut hjoin⟩, hwhole,
    fun hfree => hwhole.mpr (Text.uncut_of_quote_notMem hfree ':')⟩

/-- The colon of this text stands inside double quotes that open behind the escaped quote, so its
    literal is one argument. -/
theorem quotedTime_argument :
    Text.isWord "cat".toList = true ∧
      Text.Uncut ':' (some '\x27') "it's \"5:30\"".toList ∧
      Code.quote "it's \"5:30\"" = "'it\\'s \"5:30\"'" ∧
      Invocation.parse ("cat" ++ ":" ++ Code.quote "it's \"5:30\"") =
        .ok ⟨"cat", ["", Code.quote "it's \"5:30\""]⟩ := by
  have hname : Text.isWord "cat".toList = true := by decide
  have hinside : Text.Uncut ':' (some '\x27') "it's \"5:30\"".toList := by decide
  obtain ⟨-, hwhole, -⟩ := literal_argument_cut hname "it's \"5:30\""
  exact ⟨hname, hinside, by decide, hwhole.mpr hinside⟩

/-- Behind the escaped quote of this text nothing is open, so the colon cuts its literal. -/
theorem plainTime_literal_is_cut :
    Text.isWord "cat".toList = true ∧
      Code.quote "it's 5:30" = "'it\\'s 5:30'" ∧
      Invocation.parse ("cat" ++ ":" ++ Code.quote "it's 5:30") =
        .ok ⟨"cat", ["", "'it\\'s 5", "30'"]⟩ ∧
      Invocation.parse ("cat" ++ ":" ++ Code.quote "it's 5:30") ≠
        .ok ⟨"cat", ["", Code.quote "it's 5:30"]⟩ := by
  decide

end TagPress
