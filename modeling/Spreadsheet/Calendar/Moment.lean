import Spreadsheet.Calendar.Date
import Spreadsheet.Text.Digits

/-!
# Moments

A date with a time of day, in whole seconds, and the two texts a clock is written as. A clock counts
milliseconds since the beginning of 1970, in universal time.
-/

namespace Spreadsheet

open Spreadsheet.Text

/-- A date and a time of day. -/
structure Moment where
  date : Date
  hour : Nat
  minute : Nat
  second : Nat
  deriving Repr, DecidableEq

namespace Moment

/-- The moment so many minutes later. -/
def addMinutes (m : Moment) (minutes : Int) : Moment :=
  let total := m.date.number * 1440 + m.hour * 60 + m.minute + minutes
  { date := .ofNumber (total / 1440)
    hour := (total % 1440 / 60).toNat
    minute := (total % 60).toNat
    second := m.second }

/-- The moment a clock shows. -/
def ofClock (milliseconds : Int) : Moment :=
  let seconds := milliseconds / 1000
  { date := .ofNumber (seconds / 86400)
    hour := (seconds % 86400 / 3600).toNat
    minute := (seconds % 3600 / 60).toNat
    second := (seconds % 60).toNat }

end Moment

/-- A year with at least four digits, and with a sign where it has more or is negative. -/
def yearText (year : Int) : List Char :=
  if year < 0 then '-' :: paddedDigits 4 year.natAbs
  else if year ≤ 9999 then paddedDigits 4 year.natAbs
  else '+' :: paddedDigits 4 year.natAbs

/-- The text of a date, as in `2024-03-15`. -/
def Date.toText (d : Date) : List Char :=
  yearText d.year ++ '-' :: paddedDigits 2 d.month ++ '-' :: paddedDigits 2 d.day

/-- The text of a clock, as in `2024-03-15T09:05:07.000Z`. -/
def clockText (milliseconds : Int) : List Char :=
  let m := Moment.ofClock milliseconds
  m.date.toText ++ 'T' :: paddedDigits 2 m.hour ++ ':' :: paddedDigits 2 m.minute ++
    ':' :: paddedDigits 2 m.second ++
    '.' :: paddedDigits 3 (milliseconds % 1000).toNat ++ ['Z']

end Spreadsheet
