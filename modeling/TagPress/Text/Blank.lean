import TagPress.Text.CharRange

/-!
# Blank characters

A character is blank when it has the Unicode property `White_Space`. Trimming works on lists of
characters; `strip` is trimming on both sides of a string.
-/

namespace TagPress.Text

/-- The code points with the property `White_Space`. -/
def blankRanges : List (Nat × Nat) :=
  [(0x9, 0xd), (0x20, 0x20), (0x85, 0x85), (0xa0, 0xa0), (0x1680, 0x1680), (0x2000, 0x200a),
    (0x2028, 0x2029), (0x202f, 0x202f), (0x205f, 0x205f), (0x3000, 0x3000)]

/-- Whether a character is white space. -/
def isBlank (c : Char) : Bool :=
  inRanges c.toNat blankRanges

/-- Drops the blank characters at the front. -/
def trimStart (cs : List Char) : List Char :=
  cs.dropWhile isBlank

/-- Drops the blank characters at the end. -/
def trimEnd (cs : List Char) : List Char :=
  (cs.reverse.dropWhile isBlank).reverse

/-- Drops the blank characters on both sides. -/
def trim (cs : List Char) : List Char :=
  trimEnd (trimStart cs)

/-- A string without the blank characters on its sides. -/
def strip (s : String) : String :=
  String.ofList (trim s.toList)

/-- A string without the blank characters at its end. -/
def stripEnd (s : String) : String :=
  String.ofList (trimEnd s.toList)

end TagPress.Text
