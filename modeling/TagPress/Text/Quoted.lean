import TagPress.Text.Hidden

/-!
# Texts quoted in messages

A text shown in a message stands in double quotes. The quote, the backslash and the common control
characters are escaped with a backslash, other hidden characters by their code point in hexadecimal.
-/

namespace TagPress.Text

/-- How one character is written inside a quoted text. -/
def quotedChar (c : Char) : List Char :=
  if c == '\x22' then ['\\', '\x22']
  else if c == '\\' then ['\\', '\\']
  else if c == '\n' then ['\\', 'n']
  else if c == '\r' then ['\\', 'r']
  else if c == '\t' then ['\\', 't']
  else if c == '\x00' then ['\\', '0']
  else if isHidden c then ['\\', 'u', '\x7b'] ++ Nat.toDigits 16 c.toNat ++ ['\x7d']
  else [c]

/-- A text in double quotes with its special characters escaped. -/
def quoted (s : String) : String :=
  String.ofList ('\x22' :: s.toList.flatMap quotedChar ++ ['\x22'])

end TagPress.Text
