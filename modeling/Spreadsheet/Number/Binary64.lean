/-!
# Binary64 numbers, taken apart and put together

A finite number is `±significand · 2 ^ exponent` with natural `significand` and integer `exponent`
(`parts?`). What a spreadsheet does to numbers beyond the five operations of the hardware is done
on these parts in exact arithmetic and rounded once, to nearest with ties to even (`nearest`):
integer parts, remainders, the total order.
-/

namespace Spreadsheet.Number

/-- A finite number: `±significand · 2 ^ exponent`. -/
structure Parts where
  negative : Bool
  significand : Nat
  exponent : Int
  deriving Repr, DecidableEq

/-- The parts of a number; infinities and NaN have none. The exponent is never below -1074. -/
def parts? (x : Float) : Option Parts :=
  let bits := x.toBits.toNat
  let negative := Nat.pow 2 63 ≤ bits
  let biased : Nat := bits / Nat.pow 2 52 % Nat.pow 2 11
  let fraction : Nat := bits % Nat.pow 2 52
  if biased = 2047 then none
  else if biased = 0 then some ⟨negative, fraction, -1074⟩
  else some ⟨negative, Nat.pow 2 52 + fraction, (biased : Int) - 1075⟩

/-- Whether a number is neither infinite nor NaN. -/
def isFinite (x : Float) : Bool :=
  (parts? x).isSome

/-- The number itself if it is finite, else zero. -/
def finiteOrZero (x : Float) : Float :=
  if isFinite x then x else 0

/-- The number with a minus sign in front, if there is one. -/
def signed (negative : Bool) (x : Float) : Float :=
  if negative then -x else x

/-! ## Rounding -/

/-- `num / den` as an integer: the nearest one, of two the even one. -/
def divEven (num den : Nat) : Nat :=
  let q := num / den
  let r := num % den
  if 2 * r < den then q else if den < 2 * r then q + 1 else q + q % 2

/-- `num / den` divided by `2 ^ exponent`, as numerator and denominator. -/
def shiftRatio (num den : Nat) (exponent : Int) : Nat × Nat :=
  match exponent with
  | .ofNat e => (num, den * Nat.pow 2 e)
  | .negSucc e => (num * Nat.pow 2 (e + 1), den)

/-- Positive infinity. -/
def infinity : Float :=
  Float.ofBits 0x7FF0000000000000

/-- The number nearest to `num / den`, of two the one with the even significand. The significand
has 53 bits unless the exponent would fall below -1074. -/
def nearest (num den : Nat) : Float :=
  if num = 0 then 0
  else
    let low : Int := max ((num.log2 : Int) - den.log2 - 53) (-1074)
    let (n, d) := shiftRatio num den low
    let exponent := if n / d < Nat.pow 2 53 then low else low + 1
    let (n, d) := shiftRatio num den exponent
    let bits := (exponent + 1074).toNat * Nat.pow 2 52 + divEven n d
    if bits < 0x7FF0000000000000 then Float.ofBits bits.toUInt64 else infinity

/-- The number nearest to `significand · 2 ^ exponent`. -/
def ofScaled (significand : Nat) (exponent : Int) : Float :=
  match exponent with
  | .ofNat e => nearest (significand * Nat.pow 2 e) 1
  | .negSucc e => nearest significand (Nat.pow 2 (e + 1))

/-- The number nearest to an integer. -/
def ofInt (n : Int) : Float :=
  signed (n < 0) (nearest n.natAbs 1)

/-! ## Integer parts -/

/-- The size of a number without its fraction. -/
def Parts.whole (p : Parts) : Nat :=
  match p.exponent with
  | .ofNat e => p.significand * Nat.pow 2 e
  | .negSucc e => p.significand / Nat.pow 2 (e + 1)

/-- Whether a number has no fraction. -/
def Parts.isWhole (p : Parts) : Bool :=
  match p.exponent with
  | .ofNat _ => true
  | .negSucc e => p.significand % Nat.pow 2 (e + 1) == 0

/-- The size of a number rounded to an integer, a half away from zero. -/
def Parts.roundedHalfAway (p : Parts) : Nat :=
  match p.exponent with
  | .ofNat e => p.significand * Nat.pow 2 e
  | .negSucc e => (p.significand + Nat.pow 2 e) / Nat.pow 2 (e + 1)

/-- The greatest integer not above `x`. -/
def floor (x : Float) : Float :=
  match parts? x with
  | none => x
  | some p =>
    if p.isWhole then x
    else if p.negative then -(nearest (p.whole + 1) 1)
    else nearest p.whole 1

/-- The least integer not below `x`; between -1 and 0 it is `-0`. -/
def ceiling (x : Float) : Float :=
  match parts? x with
  | none => x
  | some p =>
    if p.isWhole then x
    else if p.negative then -(nearest p.whole 1)
    else nearest (p.whole + 1) 1

/-- A number without its fraction, as an integer from `low` to `high`; NaN counts as zero. -/
def clampToInt (low high : Int) (x : Float) : Int :=
  match parts? x with
  | some p => max low (min high (if p.negative then -(p.whole : Int) else p.whole))
  | none => if 0 < x then high else if x < 0 then low else max low (min high 0)

/-! ## Remainder and order -/

/-- The remainder of `x` by `y`, with the sign of `x`: exact, for it is a multiple of the finer of
the two units and smaller than `y`. -/
def remainder (x y : Float) : Float :=
  match parts? x, parts? y with
  | some p, some q =>
    if q.significand = 0 then 0 / 0
    else
      let unit := min p.exponent q.exponent
      let m := p.significand * Nat.pow 2 (p.exponent - unit).toNat
      let n := q.significand * Nat.pow 2 (q.exponent - unit).toNat
      signed p.negative (ofScaled (m % n) unit)
  | some _, none => if y == y then x else y
  | none, _ => 0 / 0

/-- The place of a number in the total order that puts `-0` just below `0` and NaN last. -/
def orderKey (x : Float) : Int :=
  let bits := x.toBits.toNat
  if bits < Nat.pow 2 63 then bits else -(bits - Nat.pow 2 63 : Int) - 1

/-- The comparison of two numbers in the total order. -/
def compareTotal (x y : Float) : Ordering :=
  compare (orderKey x) (orderKey y)

/-- The lesser of two numbers, the first of two equal ones; NaN loses. -/
def lesser (x y : Float) : Float :=
  if x == x then if y < x then y else x else y

/-- The greater of two numbers, the first of two equal ones; NaN loses. -/
def greater (x y : Float) : Float :=
  if x == x then if x < y then y else x else y

end Spreadsheet.Number
