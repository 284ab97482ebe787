/-!
# Splitting and searching in lists of characters

`splitOnce` cuts at the first occurrence of a separator, `splitUnquoted` at every separator that
stands outside quotes, and `occurs` looks for a text inside another.
-/

namespace TagPress.Text

/-- The part before and the part after the first occurrence of `sep`. -/
def splitOnce (sep : List Char) : List Char → Option (List Char × List Char)
  | [] => none
  | c :: cs =>
    match sep.isPrefixOf? (c :: cs) with
    | some rest => some ([], rest)
    | none => (splitOnce sep cs).map fun (before, after) => (c :: before, after)

/-- Whether `part` occurs as a contiguous part of a text. -/
def occurs (part : List Char) : List Char → Bool
  | [] => part.isEmpty
  | c :: cs => part.isPrefixOf (c :: cs) || occurs part cs

/-- Puts a character in front of the first piece. -/
def consFirst (c : Char) : List (List Char) → List (List Char)
  | [] => [[c]]
  | piece :: pieces => (c :: piece) :: pieces

/-- Whether a character opens a quotation. -/
def isQuote (c : Char) : Bool :=
  c == '\x27' || c == '\x22'

/-- Cuts a text at every `sep` outside quotes. A quotation opens with a single or a double quote and
closes only with the same character; `quote` is the one that is open. -/
def splitUnquoted (sep : Char) (quote : Option Char) : List Char → List (List Char)
  | [] => [[]]
  | c :: cs =>
    match quote with
    -- The other quote means nothing inside.
    | some q => consFirst c (splitUnquoted sep (if c == q then none else some q) cs)
    | none =>
      if isQuote c then consFirst c (splitUnquoted sep (some c) cs)
      else if c == sep then [] :: splitUnquoted sep none cs
      else consFirst c (splitUnquoted sep none cs)

/-- Writes pieces one after the other with `sep` between them. -/
def joinWith (sep : String) : List String → String
  | [] => ""
  | [piece] => piece
  | piece :: pieces => piece ++ sep ++ joinWith sep pieces

/-- The characters of joined pieces are the joined characters of the pieces. -/
theorem toList_joinWith (sep : String) (pieces : List String) :
    (joinWith sep pieces).toList = sep.toList.intercalate (pieces.map String.toList) := by
  fun_induction joinWith sep pieces with
  | case1 => simp
  | case2 piece => simp
  | case3 piece pieces hne ih =>
    have hmap : pieces.map String.toList ≠ [] := by simpa using hne
    simp [ih, List.intercalate_cons_of_ne_nil hmap]

/-- The first piece stands alone, and every other piece has a separator before it. -/
theorem joinWith_cons (sep piece : String) (pieces : List String) :
    joinWith sep (piece :: pieces) = piece ++ String.join (pieces.map (sep ++ ·)) := by
  induction pieces generalizing piece with
  | nil => simp [joinWith]
  | cons next pieces ih =>
    simp only [joinWith, ih, List.map_cons, String.join_cons, String.append_assoc]

/-- Seen from one piece, the pieces before it have their separator behind them. -/
theorem joinWith_append_cons (sep : String) (front : List String) (piece : String)
    (back : List String) :
    joinWith sep (front ++ piece :: back) =
      String.join (front.map (· ++ sep)) ++ piece ++ String.join (back.map (sep ++ ·)) := by
  induction front with
  | nil => simp [joinWith_cons]
  | cons first front ih =>
    rw [List.cons_append, joinWith, ih]
    · simp [String.append_assoc]
    · simp

/-- A character of joined pieces belongs to the separator or to a piece. -/
theorem mem_joinWith {sep : String} {pieces : List String} {c : Char}
    (h : c ∈ (joinWith sep pieces).toList) :
    c ∈ sep.toList ∨ ∃ piece ∈ pieces, c ∈ piece.toList := by
  fun_induction joinWith sep pieces with
  | case1 => simp at h
  | case2 piece => exact .inr ⟨piece, List.mem_cons_self, h⟩
  | case3 piece pieces _ ih =>
    rw [String.toList_append, String.toList_append, List.mem_append, List.mem_append] at h
    obtain (hpiece | hsep) | hrest := h
    · exact .inr ⟨piece, List.mem_cons_self, hpiece⟩
    · exact .inl hsep
    · obtain hsep | ⟨other, hother, hc⟩ := ih hrest
      · exact .inl hsep
      · exact .inr ⟨other, List.mem_cons_of_mem _ hother, hc⟩

/-- The pieces between separators, one after the other, are the text without its separators. -/
theorem flatten_splitOn (sep : Char) (cs : List Char) :
    (cs.splitOn sep).flatten = cs.filter (· != sep) := by
  induction cs with
  | nil => simp
  | cons d ds ih =>
    rw [List.splitOn_cons_eq_if_modifyHead]
    split
    · rename_i hd
      simp [ih, eq_of_beq hd]
    · -- Any other character goes to the front of the first piece.
      obtain ⟨first, rest, hsplit⟩ := List.exists_cons_of_ne_nil (List.splitOn_ne_nil sep ds)
      rw [hsplit] at ih ⊢
      simp_all

/-- The characters of a piece are characters of the text other than the separator. -/
theorem mem_of_mem_splitOn {sep c : Char} {cs piece : List Char} (h : piece ∈ cs.splitOn sep)
    (hc : c ∈ piece) : c ∈ cs ∧ c ≠ sep := by
  have hflat : c ∈ (cs.splitOn sep).flatten := List.mem_flatten_of_mem h hc
  simpa [flatten_splitOn] using hflat

/-- A text with as many leading spaces as it needs to be `width` characters wide. -/
def padLeft (width : Nat) (s : String) : String :=
  String.ofList (List.replicate (width - s.length) ' ') ++ s

end TagPress.Text
