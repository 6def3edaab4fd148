import Spreadsheet.Number.Fixed
import Spreadsheet.Number.Shortest

/-!
# Numbers as a cell shows them

An integer below `10 ^ 15` is written as an integer, and zero without a sign. Any other number is
written with the fewest digits that read back, always in positional notation: however far the point
lies from the digits, zeros fill the way, and there is no exponent and no trailing `.0`.
-/

namespace Spreadsheet.Number

open Spreadsheet.Text

/-- A positive decimal in positional notation. -/
def Decimals.positional (d : Decimals) : List Char :=
  let ds := digits d.coefficient
  match d.exponent with
  | .ofNat e => ds ++ List.replicate e '0'
  | .negSucc e =>
    let places := e + 1
    if places < ds.length then
      ds.take (ds.length - places) ++ '.' :: ds.drop (ds.length - places)
    else '0' :: '.' :: (List.replicate (places - ds.length) '0' ++ ds)

/-- A number as a cell shows it. -/
def displayChars (x : Float) : List Char :=
  match parts? x with
  | none => nonFinite x
  | some p =>
    if p.isWhole && p.whole < Nat.pow 10 15 then
      (if p.negative && p.whole != 0 then ['-'] else []) ++ digits p.whole
    else
      (if p.negative then ['-'] else []) ++ (shortest p.significand p.exponent).positional

/-- The text a cell shows for a number. -/
def display (x : Float) : String :=
  String.ofList (displayChars x)

end Spreadsheet.Number
