import TagPress.Text.Numeral

/-!
# Dates

Seconds since the start of 1970 as a date and time of the Gregorian calendar, extended to all
years. Years are counted from March, so that the leap day is the last day of a year, and in eras of
400 years, which all have the same number of days.
-/

namespace TagPress

/-- A day of the calendar. -/
structure Date where
  /-- The year; the year before 1 is 0. -/
  year : Int
  /-- The month, from 1. -/
  month : Nat
  /-- The day of the month, from 1. -/
  day : Nat
  deriving DecidableEq

namespace Date

/-- The days of an era of 400 years. -/
def eraDays : Nat := 146097

/-- The days from the first of March of the year 0 to the start of 1970. -/
def epochDay : Int := 719468

/-- The day that is `days` days after the start of 1970. -/
def ofDays (days : Int) : Date :=
  let shifted := days + epochDay
  let era := shifted.fdiv eraDays
  let dayOfEra := (shifted.fmod eraDays).toNat
  -- Without the leap days before it, every year has 365 days.
  let yearOfEra :=
    (dayOfEra - dayOfEra / 1460 + dayOfEra / 36524 - dayOfEra / 146096) / 365
  let dayOfYear := dayOfEra - (365 * yearOfEra + yearOfEra / 4 - yearOfEra / 100)
  -- From March on, five months in a row have 153 days.
  let monthFromMarch := (5 * dayOfYear + 2) / 153
  let day := dayOfYear - (153 * monthFromMarch + 2) / 5 + 1
  let month := if monthFromMarch < 10 then monthFromMarch + 3 else monthFromMarch - 9
  let year := era * 400 + yearOfEra + (if month ≤ 2 then 1 else 0)
  ⟨year, month, day⟩

/-- A year with at least four digits, and with its sign if they do not suffice. -/
def renderYear (year : Int) : String :=
  if 0 ≤ year && year ≤ 9999 then Text.padZero 4 year.toNat
  else (if year < 0 then "-" else "+") ++ Text.padZero 4 year.natAbs

/-- The first year that can be written. -/
def firstYear : Int := -262143

/-- The last year that can be written. -/
def lastYear : Int := 262142

end Date

/-- A point in time as `1970-01-01T00:00:00+00:00`, for the years that can be written. -/
def renderTimestamp? (seconds : Int) : Option String :=
  let date := Date.ofDays (seconds.fdiv 86400)
  let time := (seconds.fmod 86400).toNat
  if Date.firstYear ≤ date.year && date.year ≤ Date.lastYear then
    some (Date.renderYear date.year ++ "-" ++ Text.padZero 2 date.month ++ "-"
      ++ Text.padZero 2 date.day ++ "T" ++ Text.padZero 2 (time / 3600) ++ ":"
      ++ Text.padZero 2 (time / 60 % 60) ++ ":" ++ Text.padZero 2 (time % 60) ++ "+00:00")
  else none

end TagPress
