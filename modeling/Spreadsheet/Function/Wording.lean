import Spreadsheet.Function.Basic
import Spreadsheet.Text.Case
import Spreadsheet.Text.Search

/-!
# Functions of text

Cutting, joining and changing text, which is counted in characters, and the writing of numbers in a
format. A format with `#,##` groups the digits of a number by thousand, lakh and crore
(`12,34,567.5`), one with `%` writes percent with two places, and any other writes the plain number.
-/

namespace Spreadsheet.Function

open Spreadsheet.Text

/-- Text of some characters. -/
def textOf (cs : List Char) : Value :=
  .text (String.ofList cs)

/-- The texts of all arguments, one after the other. -/
def join (args : List Value) : Value :=
  textOf (args.flatMap (·.toText.toList))

/-- The first characters of a text. -/
def left (args : List Value) : Value :=
  textOf ((charsArg args 0).take (countArg args 1 1))

/-- The last characters of a text. -/
def right (args : List Value) : Value :=
  let cs := charsArg args 0
  textOf (cs.drop (cs.length - countArg args 1 1))

/-- Characters from the inside of a text, the first of which is counted as 1. -/
def middle (args : List Value) : Value :=
  textOf (((charsArg args 0).drop (countArg args 1 1 - 1)).take (countArg args 2 1))

/-- Whether a character begins a word to be capitalised: a letter, digit or underscore of ASCII. -/
def beginsWord (c : Char) : Bool :=
  isLetter c || isDigit c || c == '_'

/-- A word with a capital: its first character in upper case and the others in lower case. -/
def capitalised : List Char → List Char
  | [] => []
  | c :: cs => upperChar c ++ lowerChars cs

/-- Capitalises words. A word begins wherever a character may begin one and runs to the next blank;
`word` is what has been read of it, the last character first. -/
def properFrom (word : List Char) : List Char → List Char
  | [] => capitalised word.reverse
  | c :: cs =>
    if word.isEmpty then
      if beginsWord c then properFrom [c] cs else c :: properFrom [] cs
    else if isBlank c then capitalised word.reverse ++ c :: properFrom [] cs
    else properFrom (c :: word) cs

/-- No text that is repeated gets longer than this. -/
def maxRepeatedLength : Nat := 32767

/-- A text several times over; empty if that would be too long. -/
def repeatText (cs : List Char) (times : Nat) : List Char :=
  if cs.isEmpty || maxRepeatedLength < cs.length * times then []
  else (List.replicate times cs).flatten

/-! ## Numbers in a format -/

/-- Cuts groups off the end of digits until none are left in front of `stop`. The first group has
`width` digits and every other one two; what is too short for a group is one nevertheless. `groups`
are those cut off before, the first digits last. -/
def cutGroups (digits : List Char) (stop width : Nat) (_ : 0 < width)
    (groups : List (List Char)) : List (List Char) :=
  if 0 < stop then
    let start := stop - width
    cutGroups digits start 2 Nat.two_pos (groups ++ [digits.extract start stop])
  else groups
termination_by stop
decreasing_by exact Nat.sub_lt ‹0 < stop› ‹0 < width›

/-- Puts commas between the groups of digits: the last three, and two at a time before them. -/
def grouped (digits : List Char) : List Char :=
  [','].intercalate (cutGroups digits digits.length 3 (Nat.succ_pos 2) []).reverse

/-- A number with its digits grouped and at most three places; a number that is written as zero has
no sign. -/
def inLakhs (x : Float) : List Char :=
  match Number.parts? x with
  | none => Number.nonFinite x
  | some p =>
    let (whole, fraction) := p.fixedDigits 3
    let fraction := dropEndWhile (· == '0') fraction
    let isZero := whole.all (· == '0') && fraction.isEmpty
    (if p.negative && !isZero then ['-'] else []) ++ grouped whole ++
      (if fraction.isEmpty then [] else '.' :: fraction)

/-- A number in percent, with two places. -/
def inPercent (x : Float) : List Char :=
  Number.fixed 2 (x * 100) ++ ['%']

/-- A number in a format. -/
def formatted (x : Float) (format : List Char) : List Char :=
  if occursIn "#,##".toList format then inLakhs x
  else if occursIn ['%'] format then inPercent x
  else Number.displayChars x

/-- The functions of text. -/
def wordings : List Function :=
  [ steady .text "CONCAT" join,
    steady .text "CONCATENATE" join,
    steady .text "LEFT" left,
    steady .text "RIGHT" right,
    steady .text "MID" middle,
    steady .text "LEN" fun args => .ofNat (charsArg args 0).length,
    steady .text "UPPER" fun args => textOf (upperChars (charsArg args 0)),
    steady .text "LOWER" fun args => textOf (lowerChars (charsArg args 0)),
    steady .text "PROPER" fun args => textOf (properFrom [] (charsArg args 0)),
    steady .text "TRIM" fun args => textOf (trimChars (charsArg args 0)),
    steady .text "TEXT" fun args => textOf (formatted (numberArg args 0 0) (charsArg args 1)),
    steady .text "SUBSTITUTE" fun args =>
      textOf (replaceAll (charsArg args 1) (charsArg args 2) (charsArg args 0)),
    steady .text "REPT" fun args => textOf (repeatText (charsArg args 0) (countArg args 1 1)) ]

end Spreadsheet.Function
