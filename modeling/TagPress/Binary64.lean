import TagPress.Text.Numeral

/-!
# Binary floating-point numbers in decimal

Numbers of the 64-bit binary format, as exact values `mantissa * 2 ^ exponent`. `ofDecimal` rounds
a decimal number to the nearest of them, a half to the even mantissa. `render` writes the fewest
digits that read back, without an exponent and with at least one decimal place; of two such decimals
that are as near, the one farther from zero.
-/

namespace TagPress

/-- A number of the 64-bit binary format. -/
inductive Binary64 where
  /-- The number `mantissa * 2 ^ exponent` with a sign. -/
  | finite (negative : Bool) (mantissa : Nat) (exponent : Int)
  /-- An infinity. -/
  | infinite (negative : Bool)
  /-- Not a number. -/
  | nan
  deriving DecidableEq

namespace Binary64

/-- The quotient rounded to the nearest integer, a half to the even one. -/
def roundDiv (n d : Nat) : Nat :=
  let q := n / d
  let r := n % d
  if d < 2 * r || (2 * r == d && q % 2 == 1) then q + 1 else q

/-- `base ^ e` as a quotient of natural numbers. -/
def power (base : Nat) (e : Int) : Nat × Nat :=
  if 0 ≤ e then (Nat.pow base e.toNat, 1) else (1, Nat.pow base (-e).toNat)

/-- The least mantissa of a number that has all its bits. -/
def fullMantissa : Nat := 0x10000000000000

/-- The least exponent of the format. -/
def minExponent : Int := -1074

/-- The greatest exponent of the format. -/
def maxExponent : Int := 971

/-- The number nearest to the positive quotient `n / d`. -/
def ofRatio (negative : Bool) (n d : Nat) : Binary64 :=
  -- Right, or one too great: the logarithms are rounded down.
  let guess : Int := (Nat.log2 n : Int) - Nat.log2 d - 52
  let (gn, gd) := power 2 guess
  let exponent := max (if n * gd < fullMantissa * (d * gn) then guess - 1 else guess) minExponent
  let (en, ed) := power 2 exponent
  let mantissa := roundDiv (n * ed) (d * en)
  let (mantissa, exponent) :=
    -- Rounding up can carry into one more bit.
    if mantissa == 2 * fullMantissa then (fullMantissa, exponent + 1) else (mantissa, exponent)
  if maxExponent < exponent then .infinite negative else .finite negative mantissa exponent

/-- The number nearest to `digits * 10 ^ e`. Decimal numbers far outside the format's range are
settled by their magnitude alone. -/
def ofDecimal (negative : Bool) (digits : Nat) (e : Int) : Binary64 :=
  let magnitude : Int := (Nat.toDigits 10 digits).length + e
  if digits == 0 || magnitude < -330 then .finite negative 0 0
  else if 330 < magnitude then .infinite negative
  else
    let (tn, td) := power 10 e
    ofRatio negative (digits * tn) td

/-- The decimal grid of spacing `10 ^ k` seen from the number: four times the number and the ends of
the interval that rounds to it, over a common denominator, and the spacing on the same scale. -/
structure Grid where
  /-- The number. -/
  value : Nat
  /-- The lower end of the interval. -/
  low : Nat
  /-- The upper end of the interval. -/
  high : Nat
  /-- The spacing of the grid. -/
  unit : Nat

/-- The grid of spacing `10 ^ k` for the number `mantissa * 2 ^ exponent`. -/
def gridAt (mantissa : Nat) (exponent k : Int) : Grid :=
  let (sn, sd) := power 2 (exponent - 2)
  let (tn, td) := power 10 k
  -- Below a power of two the next number is only half as far away.
  let below := if mantissa == fullMantissa && minExponent < exponent then 1 else 2
  ⟨4 * mantissa * sn * td, (4 * mantissa - below) * sn * td, (4 * mantissa + 2) * sn * td, tn * sd⟩

/-- Whether a multiple of the spacing rounds to the number. -/
def Grid.holds (g : Grid) (even : Bool) (multiple : Nat) : Bool :=
  let x := multiple * g.unit
  -- A number in the middle between two rounds to the even one, so the ends belong to it then.
  if even then g.low ≤ x && x ≤ g.high else g.low < x && x < g.high

/-- The multiple of the spacing next to the number that rounds to it, if there is one. Of two such
multiples the nearer is taken, and the greater if both are as near. -/
def Grid.nearest? (g : Grid) (even : Bool) : Option Nat :=
  let a := g.value / g.unit
  match g.holds even a, g.holds even (a + 1) with
  | true, true => if 2 * (g.value % g.unit) < g.unit then some a else some (a + 1)
  | true, false => some a
  | false, true => some (a + 1)
  | false, false => none

/-- The exponents of ten that the leading digit of a number can have, greatest first. -/
def leadingExponents : List Int :=
  (List.range 640).map fun (i : Nat) => (310 : Int) - i

/-- The fewest digits, with their exponent of ten, that read back as the positive number
`mantissa * 2 ^ exponent`. Seventeen digits always suffice. -/
def shortest (mantissa : Nat) (exponent : Int) : Nat × Int :=
  let lead := (leadingExponents.find? fun k =>
    let g := gridAt mantissa exponent k
    g.unit ≤ g.value).getD 0
  ((List.range 17).findSome? fun (i : Nat) =>
    let k := lead - i
    ((gridAt mantissa exponent k).nearest? (mantissa % 2 == 0)).map fun digits => (digits, k)).getD
    (0, 0)

/-- The number `digits * 10 ^ k` without an exponent. -/
def positional (digits : Nat) (k : Int) : String :=
  let ds := Nat.toDigits 10 digits
  if 0 ≤ k then String.ofList (ds ++ List.replicate k.toNat '0') ++ ".0"
  else
    let places := (-k).toNat
    let padded := List.replicate (places + 1 - ds.length) '0' ++ ds
    let whole := padded.take (padded.length - places)
    let fraction := ((padded.drop (padded.length - places)).reverse.dropWhile (· == '0')).reverse
    String.ofList whole ++ "." ++ (if fraction.isEmpty then "0" else String.ofList fraction)

/-- The written form of a number. -/
def render : Binary64 → String
  | finite negative mantissa exponent =>
    let (digits, k) := if mantissa == 0 then (0, 0) else shortest mantissa exponent
    (if negative then "-" else "") ++ positional digits k
  | infinite negative => if negative then "-inf" else "inf"
  | nan => "NaN"

end Binary64

end TagPress
