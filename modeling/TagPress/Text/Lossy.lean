/-!
# Reading bytes as text

Bytes that are no UTF-8 can still be shown. They are read one after the other, and the longest start
of a character that is not completed gives one replacement character.
-/

namespace TagPress.Text

/-- The character that is shown for bytes that are no text. -/
def replacement : Char := '\ufffd'

/-- A character of which the first bytes have been read. -/
structure PartialChar where
  /-- The bits that they hold. -/
  value : Nat
  /-- How many bytes are missing behind the next one. -/
  missing : Nat
  /-- The least next byte. -/
  low : UInt8 := 0x80
  /-- The greatest next byte. -/
  high : UInt8 := 0xbf
  deriving DecidableEq

/-- What is read from the first byte of a character: a character that is complete, or one that is
not. The bounds of the second byte keep out longer forms than needed, halves of pairs and numbers
that are too large. -/
def beginChar (b : UInt8) : List Char × Option PartialChar :=
  if b < 0x80 then ([Char.ofNat b.toNat], none)
  else if 0xc2 ≤ b ∧ b ≤ 0xdf then ([], some { value := b.toNat % 32, missing := 0 })
  else if 0xe0 ≤ b ∧ b ≤ 0xef then
    ([], some
      { value := b.toNat % 16, missing := 1
        low := if b = 0xe0 then 0xa0 else 0x80
        high := if b = 0xed then 0x9f else 0xbf })
  else if 0xf0 ≤ b ∧ b ≤ 0xf4 then
    ([], some
      { value := b.toNat % 8, missing := 2
        low := if b = 0xf0 then 0x90 else 0x80
        high := if b = 0xf4 then 0x8f else 0xbf })
  else ([replacement], none)

/-- Reads bytes, the first of them behind those of a character that is not complete. -/
def readLossy (pending : Option PartialChar) : List UInt8 → List Char
  | [] => if pending.isSome then [replacement] else []
  | b :: bytes =>
    match pending with
    | none => (beginChar b).1 ++ readLossy (beginChar b).2 bytes
    | some p =>
      if p.low ≤ b ∧ b ≤ p.high then
        let value := p.value * 64 + b.toNat % 64
        match p.missing with
        | 0 => Char.ofNat value :: readLossy none bytes
        | missing + 1 => readLossy (some { value, missing }) bytes
      -- The byte that does not fit begins the next character.
      else replacement :: ((beginChar b).1 ++ readLossy (beginChar b).2 bytes)

end TagPress.Text
