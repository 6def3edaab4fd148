import Spreadsheet.Number.Binary64

/-!
# Decimals of limited size

A `Decimal` is `coefficient · 10 ^ -scale`, with a coefficient below `2 ^ 96` in size and a scale of
at most 28. Rounding to a number of digits is done on it, so that `3.145` is rounded as it is
written and not as the binary number next to it.

`Decimal.ofFloat?` finds the decimal of a binary number: it trades the powers of two for powers of
ten one at a time, keeps a coefficient with a fraction below `2 ^ 52` (fifteen or sixteen digits,
the precision of the number), and drops trailing zeros. `Decimal.round` and `Decimal.roundTens?`
round it to digits after and before the point, and `Decimal.toFloat` goes back.
-/

namespace Spreadsheet.Number

/-- `coefficient · 10 ^ -scale`. -/
structure Decimal where
  coefficient : Int
  scale : Nat
  deriving Repr, DecidableEq

namespace Decimal

/-- The coefficients are below this in size. -/
def sizeLimit : Nat := Nat.pow 2 96

/-- The greatest scale. -/
def maxScale : Nat := 28

/-- Coefficients with a fraction are reduced below this, the precision of a binary number. -/
def precisionLimit : Nat := Nat.pow 2 52

/-! ## From a binary number -/

/-- `m · 2 ^ -steps · 10 ^ -(scale - steps)` as a coefficient and a scale: a factor of one half is
taken out of an even coefficient, and else brought to one tenth by a factor of five; where that
would grow the coefficient past its limit, its last bit is lost. -/
def absorbHalves : (steps m scale : Nat) → Nat × Nat
  | 0, m, scale => (m, scale)
  | steps + 1, m, scale =>
    if m % 2 = 1 ∧ m * 5 < sizeLimit then absorbHalves steps (m * 5) scale
    else absorbHalves steps (m / 2) (scale - 1)

/-- `m · 2 ^ steps · 10 ^ (power - steps)` as a coefficient and a power of ten: the coefficient is
doubled while it has a bit left, and then divided by five. -/
def absorbDoubles : (steps m power : Nat) → Nat × Nat
  | 0, m, power => (m, power)
  | steps + 1, m, power =>
    if m < sizeLimit / 2 then absorbDoubles steps (m * 2) (power - 1)
    else absorbDoubles steps (m / 5) power

/-- Lowers the scale to its limit, a digit at a time, a half rounding up; a coefficient that runs
out of digits is zero. -/
def limitScale : (excess m : Nat) → Nat
  | 0, m => m
  | excess + 1, m =>
    if m / 10 = 0 then 0
    else limitScale excess (if m % 10 < 5 then m / 10 else m / 10 + 1)

/-- Lowers the scale until the coefficient is within the precision, a digit at a time, a half
rounding up. -/
def limitPrecision : (m scale : Nat) → Nat × Nat
  | m, 0 => (m, 0)
  | m, scale + 1 =>
    if m < precisionLimit then (m, scale + 1)
    else limitPrecision (if m % 10 < 5 then m / 10 else m / 10 + 1) scale

/-- Lowers the scale while the last digit is a zero. -/
def dropZeros : (m scale : Nat) → Nat × Nat
  | m, 0 => (m, 0)
  | m, scale + 1 => if m % 10 = 0 then dropZeros (m / 10) scale else (m, scale + 1)

/-- The coefficient and scale of `significand · 2 ^ exponent`; none if the coefficient would pass
its limit. -/
def ofScaled? (significand : Nat) (exponent : Int) : Option (Nat × Nat) :=
  match exponent with
  | .ofNat e =>
    let (m, power) := absorbDoubles e significand e
    if m * Nat.pow 10 power < sizeLimit then some (m * Nat.pow 10 power, 0) else none
  | .negSucc e =>
    let (m, scale) := absorbHalves (e + 1) significand (e + 1)
    let m := limitScale (scale - maxScale) m
    let (m, scale) := limitPrecision m (min scale maxScale)
    some (dropZeros m scale)

/-- The decimal of a finite number within the limit. -/
def ofFloat? (x : Float) : Option Decimal := do
  let p ← parts? x
  let (m, scale) ← ofScaled? p.significand p.exponent
  some ⟨if p.negative then -m else m, scale⟩

/-! ## Rounding -/

/-- What happens to the size of a decimal where digits are cut off. -/
inductive Strategy where
  /-- Any rest raises it below zero, and none above. -/
  | toNegativeInfinity
  /-- Any rest raises it above zero, and none below. -/
  | toPositiveInfinity
  /-- More than half a unit raises it. -/
  | midpointTowardZero
  /-- Half a unit or more raises it. -/
  | midpointAwayFromZero
  deriving Repr, DecidableEq

/-- Whether the rest that is cut off raises the size by one unit. -/
def Strategy.raises (s : Strategy) (negative : Bool) (rest unit : Nat) : Bool :=
  match s with
  | .toNegativeInfinity => negative && rest != 0
  | .toPositiveInfinity => !negative && rest != 0
  | .midpointTowardZero => unit < 2 * rest
  | .midpointAwayFromZero => unit ≤ 2 * rest

/-- `n / unit` rounded to an integer. -/
def Strategy.divide (s : Strategy) (n : Int) (unit : Nat) : Int :=
  let size := n.natAbs / unit
  let size := if s.raises (n < 0) (n.natAbs % unit) unit then size + 1 else size
  if n < 0 then -size else size

/-- Rounds to a number of digits after the point. -/
def round (s : Strategy) (digits : Nat) (d : Decimal) : Decimal :=
  if d.scale ≤ digits then d
  else ⟨s.divide d.coefficient (Nat.pow 10 (d.scale - digits)), digits⟩

/-- Divides by `10 ^ power`. Digits past the greatest scale are rounded off to the nearest, of two
to the even one. -/
def divideTens (power : Nat) (d : Decimal) : Decimal :=
  let scale := d.scale + power
  if scale ≤ maxScale then ⟨d.coefficient, scale⟩
  else
    let size := divEven d.coefficient.natAbs (Nat.pow 10 (scale - maxScale))
    ⟨if d.coefficient < 0 then -size else size, maxScale⟩

/-- Multiplies by `10 ^ power`, if the coefficient stays within its limit. -/
def multiplyTens? (power : Nat) (d : Decimal) : Option Decimal :=
  let c := d.coefficient * Nat.pow 10 power
  if c.natAbs < sizeLimit then some ⟨c, d.scale⟩ else none

/-- Rounds to a multiple of `10 ^ power`. -/
def roundTens? (s : Strategy) (power : Nat) (d : Decimal) : Option Decimal :=
  ((d.divideTens power).round s 0).multiplyTens? power

/-- Rounds to a number of digits after the point, or before it if the number is negative. -/
def roundTo? (s : Strategy) (digits : Int) (d : Decimal) : Option Decimal :=
  match digits with
  | .ofNat n => some (d.round s n)
  | .negSucc n => d.roundTens? s (n + 1)

/-! ## Back to a binary number -/

/-- The binary number of a decimal. The integer and the fraction are converted on their own, and the
sum is rounded to the decimal's scale once more. -/
def toFloat (d : Decimal) : Float :=
  let size := d.coefficient.natAbs
  if d.scale = 0 then ofInt d.coefficient
  else
    let unit := Nat.pow 10 d.scale
    let whole := Number.nearest (size / unit) 1
    let fraction := Number.nearest (size % unit) unit
    if fraction == 0 then signed (d.coefficient < 0) whole
    else
      let unit := Number.nearest unit 1
      let scaled := match parts? ((whole + fraction) * unit) with
        | some p => Number.nearest p.roundedHalfAway 1
        | none => infinity
      signed (d.coefficient < 0) (scaled / unit)

end Decimal

end Spreadsheet.Number
