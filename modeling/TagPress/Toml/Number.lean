import TagPress.Text.Numeral
import TagPress.Toml.Value

/-!
# Numbers of a document

Integers are decimal with an optional sign, or hexadecimal, octal or binary after `0x`, `0o` and
`0b`, and fit 64 bits with sign. A decimal integer with a fraction or an exponent is a
floating-point number. Single underscores may stand between digits, and a decimal integer has no
leading zero.
-/

namespace TagPress.Toml

/-- The further digits of a number, without the underscores between them. -/
def moreDigits (isDigit : Char → Bool) : List Char → List Char × List Char
  | [] => ([], [])
  -- An underscore belongs to the number only if a digit follows.
  | '_' :: d :: cs =>
    if isDigit d then
      let (ds, rest) := moreDigits isDigit cs
      (d :: ds, rest)
    else ([], '_' :: d :: cs)
  | d :: cs =>
    if isDigit d then
      let (ds, rest) := moreDigits isDigit cs
      (d :: ds, rest)
    else ([], d :: cs)

/-- A run of digits with single underscores between them. -/
def scanRun (isDigit : Char → Bool) : Scan (List Char)
  | [] => none
  | d :: cs =>
    if isDigit d then
      let (ds, rest) := moreDigits isDigit cs
      some (d :: ds, rest)
    else none

/-- A sign, if there is one; whether it is a minus. -/
def scanSign : List Char → Bool × List Char
  | '+' :: cs => (false, cs)
  | '-' :: cs => (true, cs)
  | cs => (false, cs)

/-- The digits of a decimal integer without leading zeros. -/
def scanDecimal : Scan (List Char)
  -- Behind a leading zero the number ends.
  | '0' :: cs => some (['0'], cs)
  | cs => scanRun Char.isDigit cs

/-- The value of digits that are known to be digits of the base. -/
def digitsValue (base : Nat) (digits : List Char) : Nat :=
  (Text.readDigits? base 0 digits).getD 0

/-- The integers of 64 bits with sign. -/
def fitsWord (n : Int) : Bool :=
  -0x8000000000000000 ≤ n && n < 0x8000000000000000

/-- An integer that fits 64 bits, and what remains. -/
def wordValue (n : Int) (rest : List Char) : Option (Value × List Char) :=
  if fitsWord n then some (.integer n, rest) else none

/-- Whether a character is a digit of the base. -/
def isDigitOf (base : Nat) (c : Char) : Bool :=
  match Text.digitValue? c with
  | some d => d < base
  | none => false

/-- An integer in another base, read after its mark. -/
def scanBased (base : Nat) : Scan Value := fun cs =>
  (scanRun (isDigitOf base) cs).bind fun (ds, rest) => wordValue (digitsValue base ds) rest

/-- An integer. -/
def scanInteger : Scan Value
  | '0' :: 'x' :: cs => scanBased 16 cs
  | '0' :: 'o' :: cs => scanBased 8 cs
  | '0' :: 'b' :: cs => scanBased 2 cs
  | cs =>
    let (negative, cs) := scanSign cs
    (scanDecimal cs).bind fun (ds, rest) =>
      let n : Int := digitsValue 10 ds
      wordValue (if negative then -n else n) rest

/-- The exponent of a floating-point number. -/
def scanExponent : Scan Int
  | c :: cs =>
    if c == 'e' || c == 'E' then
      let (negative, cs) := scanSign cs
      (scanRun Char.isDigit cs).map fun (ds, rest) =>
        let n : Int := digitsValue 10 ds
        (if negative then -n else n, rest)
    else none
  | [] => none

/-- The floating-point number with the given parts. A number too great for the format is refused,
one too small becomes the negative infinity. -/
def floatValue (negative : Bool) (whole fraction : List Char) (exponent : Int) (rest : List Char) :
    Option (Value × List Char) :=
  match Binary64.ofDecimal negative (digitsValue 10 (whole ++ fraction))
      (exponent - fraction.length) with
  | .infinite false => none
  | x => some (.float x, rest)

/-- The words for the infinity and for no number. -/
def scanSpecial : Scan Value := fun cs =>
  let (negative, cs) := scanSign cs
  match cs with
  | 'i' :: 'n' :: 'f' :: rest => some (.float (.infinite negative), rest)
  | 'n' :: 'a' :: 'n' :: rest => some (.float .nan, rest)
  | _ => none

/-- A floating-point number with a fraction, an exponent or both. -/
def scanFloat : Scan Value := fun cs =>
  let (negative, cs) := scanSign cs
  (scanDecimal cs).bind fun (whole, cs) =>
    match cs with
    | '.' :: after =>
      (scanRun Char.isDigit after).bind fun (fraction, rest) =>
        match scanExponent rest with
        | some (exponent, rest) => floatValue negative whole fraction exponent rest
        | none => floatValue negative whole fraction 0 rest
    | cs =>
      (scanExponent cs).bind fun (exponent, rest) => floatValue negative whole [] exponent rest

/-- A date, a time or a number. -/
def scanNumber : Scan Value := fun cs =>
  match Moment.scan cs with
  | some (m, rest) => some (.moment m, rest)
  | none => scanFloat cs <|> scanSpecial cs <|> scanInteger cs

end TagPress.Toml
