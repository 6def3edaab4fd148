import Spreadsheet.Function.Basic
import Spreadsheet.Number.Decimal

/-!
# Functions of numbers

Functions whose arguments are numbers at fixed places: rounding, powers and logarithms, remainders
and the payment of a loan.
-/

namespace Spreadsheet.Function

open Spreadsheet.Number

/-- No more digits than this are rounded to, before or after the point. -/
def maxRoundDigits : Int := 15

/-- The digits that the second argument says. -/
def roundDigits (args : List Value) : Int :=
  clampToInt (-maxRoundDigits) maxRoundDigits (numberArg args 1 0)

/-- A number rounded as a decimal to some digits after the point. A number outside the range of
decimals stays as it is: it has no such digits. -/
def roundWith (s : Decimal.Strategy) (digits : Int) (x : Float) : Value :=
  match (Decimal.ofFloat? x).bind (·.roundTo? s digits) with
  | some d => .ofFinite d.toFloat
  | none => .ofFinite x

/-- Rounds to the nearest. Halves go up: towards zero below it, and away from it above. -/
def round (args : List Value) : Value :=
  let x := numberArg args 0 0
  let strategy : Decimal.Strategy := if x < 0 then .midpointTowardZero else .midpointAwayFromZero
  roundWith strategy (roundDigits args) x

/-- Rounds in one direction, whatever the number is. -/
def roundTowards (s : Decimal.Strategy) (args : List Value) : Value :=
  roundWith s (roundDigits args) (numberArg args 0 0)

/-- The constant π. -/
def pi : Float :=
  Float.ofBits 0x400921FB54442D18

/-- The payment per period that pays off a loan with interest: the rate per period, the number of
periods (none counts as one) and the loan. Without interest the sign is the opposite. -/
def payment (args : List Value) : Value :=
  let rate := numberArg args 0 0
  let periods := numberArg args 1 1
  let periods := if periods == 0 then 1 else periods
  let loan := numberArg args 2 0
  if rate == 0 then .ofFinite (-loan / periods)
  else
    let growth := (1 + rate).pow periods
    .ofFinite (rate * loan * growth / (growth - 1))

/-- The functions of numbers. -/
def numerics : List Function :=
  [ steady .math "ABS" (ofNumber 0 Float.abs),
    steady .math "ROUND" round,
    steady .math "ROUNDUP" (roundTowards .toPositiveInfinity),
    steady .math "ROUNDDOWN" (roundTowards .toNegativeInfinity),
    steady .math "FLOOR" (ofNumber 0 floor),
    steady .math "CEILING" (ofNumber 0 ceiling),
    steady .math "SQRT" (ofNumber 0 Float.sqrt),
    steady .math "POWER" fun args => .ofFinite ((numberArg args 0 0).pow (numberArg args 1 1)),
    steady .math "MOD" fun args => .ofFinite (remainder (numberArg args 0 0) (numberArg args 1 1)),
    steady .math "LOG" (ofNumber 1 Float.log10),
    steady .math "LN" (ofNumber 1 Float.log),
    steady .math "EXP" (ofNumber 0 Float.exp),
    steady .math "PI" fun _ => .number pi,
    { ambient .math "RAND" fun s => .number s.next with draws := true },
    steady .financial "PMT" payment ]

end Spreadsheet.Function
