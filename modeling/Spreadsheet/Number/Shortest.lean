import Spreadsheet.Number.Binary64
import Spreadsheet.Text.Digits

/-!
# The fewest digits that read back

`shortest` finds, for a positive number `significand · 2 ^ exponent`, the decimal with the fewest
digits among those that lie nearer to it than to any other number, and of these the nearest; of two
equally near ones the greater. It looks at the decimal grids of 1, 2, … 17 digits in turn and takes
the first that has a point in the number's interval: if any point of a grid lies there, one of the
two neighbours of the number does.
-/

namespace Spreadsheet.Number

open Spreadsheet.Text

/-- A positive decimal `coefficient · 10 ^ exponent`. -/
structure Decimals where
  coefficient : Nat
  exponent : Int
  deriving Repr, DecidableEq

/-- `num / den` divided by `10 ^ exponent`, as numerator and denominator. -/
def scaleRatio (num den : Nat) (exponent : Int) : Nat × Nat :=
  match exponent with
  | .ofNat e => (num, den * Nat.pow 10 e)
  | .negSucc e => (num * Nat.pow 10 (e + 1), den)

/-- The `k` with `10 ^ (k - 1) ≤ num / den < 10 ^ k`. -/
def decimalSize (num den : Nat) : Int :=
  let k : Int := digitCount num - digitCount den
  let (n, d) := scaleRatio num den k
  if n < d then k else k + 1

/-- The reals that are rounded to `significand · 2 ^ exponent`, in quarters of `2 ^ exponent`: from
`low` to `high`, both included when the significand is even. Below a power of two the numbers lie
twice as close. -/
structure Interval where
  low : Nat
  high : Nat
  closed : Bool

/-- The interval of a positive number. -/
def Interval.ofParts (significand : Nat) (exponent : Int) : Interval :=
  let edge := significand = Nat.pow 2 52 ∧ -1074 < exponent
  ⟨4 * significand - (if edge then 1 else 2), 4 * significand + 2, significand % 2 == 0⟩

/-- Whether `num / den`, in quarters of the unit, lies in the interval. -/
def Interval.contains (i : Interval) (num den : Nat) : Bool :=
  if i.closed then i.low * den ≤ num && num ≤ i.high * den
  else i.low * den < num && num < i.high * den

/-- The better of the two neighbours of `significand · 2 ^ exponent` on the grid of `10 ^ grid`, if
one lies in its interval. -/
def neighbour? (significand : Nat) (exponent grid : Int) : Option Nat :=
  let interval := Interval.ofParts significand exponent
  let (n, d) := shiftRatio significand 1 (-exponent)
  let (n, d) := scaleRatio n d grid
  let below := n / d
  let inside (point : Nat) : Bool :=
    let (p, q) := scaleRatio (4 * point) 1 (-grid)
    let (p, q) := shiftRatio p q exponent
    interval.contains p q
  if inside below && (2 * n < (2 * below + 1) * d || !inside (below + 1)) then some below
  else if inside (below + 1) then some (below + 1)
  else none

/-- The shortest decimal that reads back as `significand · 2 ^ exponent`. -/
def shortest (significand : Nat) (exponent : Int) : Decimals :=
  let (n, d) := shiftRatio significand 1 (-exponent)
  let size := decimalSize n d
  let found := (List.range 17).findSome? fun i =>
    let count : Nat := i + 1
    let grid : Int := size - count
    (neighbour? significand exponent grid).map fun point =>
      if point = Nat.pow 10 count then ⟨1, size⟩ else ⟨point, grid⟩
  found.getD ⟨0, 0⟩

end Spreadsheet.Number
