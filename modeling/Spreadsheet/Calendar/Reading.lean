import Spreadsheet.Calendar.Moment
import Spreadsheet.Text.Blank

/-!
# Reading dates

A text is read as a moment in one of ten notations, tried in turn: the internet notation with an
offset from universal time (`readInternet?`), six patterns of a date with a time, and three of a
date alone, which mean midnight. The internet notation has a fixed number of digits everywhere. A
pattern takes one or two digits for each part and up to four for a year, or any number after a
sign, and passes over blanks in front of a number. The second 60 is read as 59.
-/

namespace Spreadsheet

open Spreadsheet.Text

/-- A part of a notation. -/
inductive Piece where
  | year
  | month
  | day
  | hour
  | minute
  | second
  /-- A fraction of a second, which may be missing and does not count. -/
  | fraction
  /-- Any number of blanks. -/
  | gap
  /-- This character. -/
  | mark (c : Char)
  deriving Repr, DecidableEq

/-- What has been read of a moment; what is not written is zero. -/
structure Parsed where
  year : Int := 0
  month : Nat := 0
  day : Nat := 0
  hour : Nat := 0
  minute : Nat := 0
  second : Nat := 0
  deriving Repr, DecidableEq

/-- The years that dates can be read in. -/
def isReadableYear (year : Int) : Bool :=
  -262143 ≤ year && year ≤ 262142

/-- The moment of some parts, if there is one. -/
def Parsed.moment? (p : Parsed) : Option Moment :=
  let date : Date := ⟨p.year, p.month, p.day⟩
  if isReadableYear p.year && date.IsValid && p.hour ≤ 23 && p.minute ≤ 59 && p.second ≤ 60 then
    some ⟨date, p.hour, p.minute, min p.second 59⟩
  else none

/-- Takes a number of at most `width` digits off the front. -/
def takeNumber? (width : Nat) (cs : List Char) : Option (Nat × List Char) :=
  let ds := (cs.take width).takeWhile isDigit
  if ds.isEmpty then none else some (ofDigits ds, cs.drop ds.length)

/-- Takes a number of any length off the front. -/
def takeLongNumber? (cs : List Char) : Option (Nat × List Char) :=
  takeNumber? cs.length cs

/-- Takes a year off the front: up to four digits, or any number of them after a sign. -/
def takeYear? : List Char → Option (Int × List Char)
  | '-' :: cs => (takeLongNumber? cs).map fun (n, rest) => (-(n : Int), rest)
  | '+' :: cs => (takeLongNumber? cs).map fun (n, rest) => ((n : Int), rest)
  | cs => (takeNumber? 4 cs).map fun (n, rest) => ((n : Int), rest)

/-- Passes over a fraction of a second. Digits must follow the point. -/
def skipFraction? : List Char → Option (List Char)
  | '.' :: cs => (takeLongNumber? cs).map (·.2)
  | cs => some cs

/-- Takes a character off the front. -/
def takeMark? (c : Char) : List Char → Option (List Char)
  | d :: cs => if d = c then some cs else none
  | [] => none

/-- Reads one part of a notation. -/
def Piece.read? (piece : Piece) (p : Parsed) (cs : List Char) : Option (Parsed × List Char) :=
  let number := takeNumber? 2 (cs.dropWhile isBlank)
  match piece with
  | .year => (takeYear? (cs.dropWhile isBlank)).map fun (n, rest) => ({ p with year := n }, rest)
  | .month => number.map fun (n, rest) => ({ p with month := n }, rest)
  | .day => number.map fun (n, rest) => ({ p with day := n }, rest)
  | .hour => number.map fun (n, rest) => ({ p with hour := n }, rest)
  | .minute => number.map fun (n, rest) => ({ p with minute := n }, rest)
  | .second => number.map fun (n, rest) => ({ p with second := n }, rest)
  | .fraction => (skipFraction? cs).map fun rest => (p, rest)
  | .gap => some (p, cs.dropWhile isBlank)
  | .mark c => (takeMark? c cs).map fun rest => (p, rest)

/-- Reads a whole text in a notation. -/
def readPieces? : List Piece → Parsed → List Char → Option Parsed
  | [], p, [] => some p
  | [], _, _ :: _ => none
  | piece :: pieces, p, cs => do
    let (p, rest) ← piece.read? p cs
    readPieces? pieces p rest

/-! ## The notations -/

/-- Year, month and day with a mark between. -/
def yearFirst (mark : Char) : List Piece :=
  [.year, .mark mark, .month, .mark mark, .day]

/-- Month, day and year with strokes between. -/
def monthFirst : List Piece :=
  [.month, .mark '/', .day, .mark '/', .year]

/-- Hour and minute. -/
def toMinute : List Piece :=
  [.hour, .mark ':', .minute]

/-- Hour, minute and second. -/
def toSecond : List Piece :=
  toMinute ++ [.mark ':', .second]

/-- The patterns of a date with a time and of a date alone, in the order they are tried in. -/
def patterns : List (List Piece) :=
  [ yearFirst '-' ++ .mark 'T' :: toSecond ++ [.fraction],
    yearFirst '-' ++ .gap :: toSecond ++ [.fraction],
    yearFirst '-' ++ .mark 'T' :: toMinute,
    yearFirst '-' ++ .gap :: toMinute,
    yearFirst '/' ++ .gap :: toSecond,
    monthFirst ++ .gap :: toSecond,
    yearFirst '-',
    yearFirst '/',
    monthFirst ]

/-- Reads a whole text in one of the patterns. -/
def readPattern? (cs : List Char) : Option Moment :=
  patterns.findSome? fun pieces => (readPieces? pieces {} cs).bind Parsed.moment?

/-! ## The internet notation -/

/-- Takes a number of exactly so many digits off the front. -/
def takeExactly? (width : Nat) (cs : List Char) : Option (Nat × List Char) :=
  let ds := cs.take width
  if ds.length = width ∧ ds.all isDigit then some (ofDigits ds, cs.drop width) else none

/-- Takes what stands between date and time off the front. -/
def takeDivider? : List Char → Option (List Char)
  | c :: cs => if c = 'T' ∨ c = 't' ∨ c = ' ' then some cs else none
  | [] => none

/-- The offset from universal time that a text ends with, in minutes: less than a day. -/
def offset? : List Char → Option Int
  | ['Z'] | ['z'] => some 0
  | c :: cs =>
    if c = '+' ∨ c = '-' ∨ c = '−' then do
      let (hours, cs) ← takeExactly? 2 cs
      let cs ← takeMark? ':' cs
      let (minutes, cs) ← takeExactly? 2 cs
      if cs.isEmpty && hours ≤ 23 && minutes ≤ 59 then
        let size : Int := hours * 60 + minutes
        some (if c = '+' then size else -size)
      else none
    else none
  | [] => none

/-- Reads a text in the internet notation, as in `2024-03-15T09:05:07.25+01:00`: the moment in
universal time. -/
def readInternet? (cs : List Char) : Option Moment := do
  let (year, cs) ← takeExactly? 4 cs
  let (month, cs) ← takeExactly? 2 (← takeMark? '-' cs)
  let (day, cs) ← takeExactly? 2 (← takeMark? '-' cs)
  let (hour, cs) ← takeExactly? 2 (← takeDivider? cs)
  let (minute, cs) ← takeExactly? 2 (← takeMark? ':' cs)
  let (second, cs) ← takeExactly? 2 (← takeMark? ':' cs)
  let offset ← offset? (← skipFraction? cs)
  let moment ← Parsed.moment? { year, month, day, hour, minute, second }
  return moment.addMinutes (-offset)

/-- The moment a text tells, in universal time; blanks around it are passed over. -/
def Moment.ofText? (s : String) : Option Moment :=
  let cs := trimChars s.toList
  readInternet? cs <|> readPattern? cs

end Spreadsheet
