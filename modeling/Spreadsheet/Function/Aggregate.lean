import Spreadsheet.Function.Basic

/-!
# Aggregating functions

Functions of any number of arguments that look at their numbers only: sums, means, extremes and
measures of spread. A numeral in text is not a number here. Numbers are added from the left, so the
order of the arguments may show in the last digits.
-/

namespace Spreadsheet.Function

/-- The sum of some numbers; of none it is `-0`. -/
def total (xs : List Float) : Float :=
  xs.foldl (· + ·) (-0.0)

/-- The number of some numbers, as a number. -/
def countOf (xs : List Float) : Float :=
  Number.ofInt xs.length

/-- The mean of some numbers, zero if there are none. -/
def mean (xs : List Float) : Float :=
  if xs.isEmpty then 0 else xs.foldl (· + ·) 0 / countOf xs

/-- The first number, then combined with each of the others; zero if there are none. -/
def combine (f : Float → Float → Float) : List Float → Float
  | [] => 0
  | x :: xs => xs.foldl f x

/-- The square of a number. -/
def square (x : Float) : Float := x * x

/-- The sample variance; zero for less than two numbers. -/
def variance (xs : List Float) : Float :=
  if xs.length < 2 then 0
  else
    let center := total xs / countOf xs
    total (xs.map fun x => square (x - center)) / (countOf xs - 1)

/-- The numbers in their total order. -/
def sorted (xs : List Float) : List Float :=
  xs.mergeSort fun x y => Number.orderKey x ≤ Number.orderKey y

/-- The middle one of the sorted numbers, or the mean of the two in the middle; zero if there are
none. -/
def median (xs : List Float) : Float :=
  let ys := sorted xs
  let middle := ys.length / 2
  if ys.isEmpty then 0
  else if ys.length % 2 = 1 then ys.getD middle 0
  else (ys.getD (middle - 1) 0 + ys.getD middle 0) / 2

/-- A function of the numbers among the arguments. The result is zero if it is not finite. -/
def ofNumbers (f : List Float → Float) (args : List Value) : Value :=
  .ofFinite (f (numbers args))

/-- The number of arguments that are numbers. -/
def count (args : List Value) : Value :=
  .ofNat (numbers args).length

/-- Whether a value is more than a blank or empty text. -/
def isFilled : Value → Bool
  | .blank => false
  | .text s => s != ""
  | .number _ => true

/-- The number of arguments that are more than blanks and empty texts. -/
def countFilled (args : List Value) : Value :=
  .ofNat (args.countP isFilled)

/-- The number of arguments before the last one that are the same as it. -/
def countSame (args : List Value) : Value :=
  match args.getLast? with
  | none => .number 0
  | some wanted => .ofNat (args.dropLast.countP (·.same wanted))

/-- The aggregating functions. The conditional sum and mean have no condition: they take in every
number they are given. -/
def aggregates : List Function :=
  [ steady .math "SUM" (ofNumbers total),
    steady .math "AVERAGE" (ofNumbers mean),
    steady .math "COUNT" count,
    steady .math "COUNTA" countFilled,
    steady .math "MIN" (ofNumbers (combine Number.lesser)),
    steady .math "MAX" (ofNumbers (combine Number.greater)),
    steady .statistical "STDEV" (ofNumbers fun xs => (variance xs).sqrt),
    steady .statistical "VAR" (ofNumbers variance),
    steady .statistical "MEDIAN" (ofNumbers median),
    steady .conditional "COUNTIF" countSame,
    steady .conditional "SUMIF" (ofNumbers total),
    steady .conditional "AVERAGEIF" (ofNumbers mean) ]

end Spreadsheet.Function
