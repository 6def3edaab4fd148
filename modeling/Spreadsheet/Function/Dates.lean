import Spreadsheet.Calendar.Reading
import Spreadsheet.Function.Basic

/-!
# Functions of dates

Dates are texts. Two functions write the clock, and the others read a text as a date and tell a part
of it, or zero if it is none.
-/

namespace Spreadsheet.Function

/-- A part of the date that the first argument tells. -/
def datePart (part : Moment → Int) (args : List Value) : Value :=
  match arg args 0 with
  | .text s => .number (((Moment.ofText? s).map fun m => Number.ofInt (part m)).getD 0)
  | _ => .number 0

/-- The functions of dates. -/
def dates : List Function :=
  [ ambient .date "TODAY" fun s => .text (String.ofList (Moment.ofClock s.clock).date.toText),
    ambient .date "NOW" fun s => .text (String.ofList (clockText s.clock)),
    steady .date "YEAR" (datePart (·.date.year)),
    steady .date "MONTH" (datePart (·.date.month)),
    steady .date "DAY" (datePart (·.date.day)),
    steady .date "HOUR" (datePart (·.hour)),
    steady .date "MINUTE" (datePart (·.minute)),
    steady .date "SECOND" (datePart (·.second)) ]

end Spreadsheet.Function
