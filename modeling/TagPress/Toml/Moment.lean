import TagPress.Calendar

/-!
# Dates and times of a document

A moment has a date, a time or both, and with both it may have an offset. `Moment.scan` reads one
from the front of a text; days are checked against the calendar, and fractions of a second beyond
the ninth digit are dropped.
-/

namespace TagPress.Toml

/-- A time of day. -/
structure Time where
  /-- The hour. -/
  hour : Nat
  /-- The minute. -/
  minute : Nat
  /-- The second; sixty for a leap second. -/
  second : Nat
  /-- The billionths of a second. -/
  nanosecond : Nat
  deriving DecidableEq

/-- The distance from universal time. -/
inductive Offset where
  /-- None, written `Z`. -/
  | zulu
  /-- A number of minutes. -/
  | minutes (n : Int)
  deriving DecidableEq

/-- A date, a time, or both. -/
structure Moment where
  /-- The day. -/
  date : Option Date := none
  /-- The time of day. -/
  time : Option Time := none
  /-- The distance from universal time. -/
  offset : Option Offset := none
  deriving DecidableEq

namespace Moment

/-- The key under which a reader of tables sees a moment. -/
def entryKey : String := "$__toml_private_datetime"

/-- Whether a year has a leap day. -/
def isLeap (year : Nat) : Bool :=
  year % 4 == 0 && (year % 100 != 0 || year % 400 == 0)

/-- The number of days of a month. -/
def monthLength (year month : Nat) : Nat :=
  if month == 2 then (if isLeap year then 29 else 28)
  else if [4, 6, 9, 11].contains month then 30
  else 31

/-- Reads a number of exactly `count` digits. -/
def scanDigits (count : Nat) (cs : List Char) : Option (Nat × List Char) :=
  let digits := cs.take count
  if digits.length == count && digits.all Char.isDigit then
    (Text.readDigits? 10 0 digits).map fun n => (n, cs.drop count)
  else none

/-- Reads a day of the calendar. -/
def scanDate (cs : List Char) : Option (Date × List Char) := do
  let (year, cs) ← scanDigits 4 cs
  let cs ← ['-'].isPrefixOf? cs
  let (month, cs) ← scanDigits 2 cs
  let cs ← ['-'].isPrefixOf? cs
  let (day, cs) ← scanDigits 2 cs
  if 1 ≤ month && month ≤ 12 && 1 ≤ day && day ≤ monthLength year month then
    some (⟨year, month, day⟩, cs)
  else none

/-- Reads the fraction of a second, if there is one. -/
def scanFraction : List Char → Option (Nat × List Char)
  | '.' :: cs =>
    -- All digits are read, but only nine of them count.
    let digits := (cs.takeWhile Char.isDigit).take 9
    if digits.isEmpty then none
    else
      (Text.readDigits? 10 0 digits).map fun n =>
        (n * Nat.pow 10 (9 - digits.length), cs.dropWhile Char.isDigit)
  | cs => some (0, cs)

/-- Reads a time of day. -/
def scanTime (cs : List Char) : Option (Time × List Char) := do
  let (hour, cs) ← scanDigits 2 cs
  let cs ← [':'].isPrefixOf? cs
  let (minute, cs) ← scanDigits 2 cs
  let cs ← [':'].isPrefixOf? cs
  let (second, cs) ← scanDigits 2 cs
  let (nanosecond, cs) ← scanFraction cs
  if hour ≤ 23 && minute ≤ 59 && second ≤ 60 then
    some (⟨hour, minute, second, nanosecond⟩, cs)
  else none

/-- Reads an offset, if there is one. -/
def scanOffset (cs : List Char) : Option (Option Offset × List Char) :=
  match cs with
  | 'Z' :: rest => some (some .zulu, rest)
  | 'z' :: rest => some (some .zulu, rest)
  | c :: rest =>
    if c == '+' || c == '-' then do
      let (hour, rest) ← scanDigits 2 rest
      let rest ← [':'].isPrefixOf? rest
      let (minute, rest) ← scanDigits 2 rest
      if hour ≤ 23 && minute ≤ 59 then
        let n : Int := hour * 60 + minute
        some (some (.minutes (if c == '-' then -n else n)), rest)
      else none
    else some (none, cs)
  | [] => some (none, cs)

/-- Whether a character stands between a date and a time. -/
def isDelimiter (c : Char) : Bool :=
  c == 'T' || c == 't' || c == ' '

/-- Reads a moment. -/
def scan (cs : List Char) : Option (Moment × List Char) :=
  match scanDate cs with
  | some (date, rest) =>
    match rest with
    | c :: after =>
      match (if isDelimiter c then scanTime after else none) with
      | some (time, rest) =>
        (scanOffset rest).map fun (offset, rest) => ({ date, time, offset }, rest)
      -- The character behind the date may be a blank before a comment, and is left unread.
      | none => some ({ date }, rest)
    | [] => some ({ date }, rest)
  | none => (scanTime cs).map fun (time, rest) => ({ time }, rest)

/-- The written form of a fraction of a second. -/
def renderFraction (nanosecond : Nat) : String :=
  if nanosecond == 0 then ""
  else
    "." ++ String.ofList
      (((Text.padZero 9 nanosecond).toList.reverse.dropWhile (· == '0')).reverse)

/-- The written form of an offset. -/
def renderOffset : Offset → String
  | .zulu => "Z"
  | .minutes n =>
    (if n < 0 then "-" else "+") ++ Text.padZero 2 (n.natAbs / 60) ++ ":"
      ++ Text.padZero 2 (n.natAbs % 60)

/-- The written form of a moment. -/
def render (m : Moment) : String :=
  (match m.date with
    | some d =>
      Text.padZero 4 d.year.toNat ++ "-" ++ Text.padZero 2 d.month ++ "-" ++ Text.padZero 2 d.day
    | none => "")
    ++ (match m.time with
      | some t => (if m.date.isSome then "T" else "") ++ Text.padZero 2 t.hour ++ ":"
          ++ Text.padZero 2 t.minute ++ ":" ++ Text.padZero 2 t.second
          ++ renderFraction t.nanosecond
      | none => "")
    ++ (match m.offset with | some o => renderOffset o | none => "")

end Moment

end TagPress.Toml
