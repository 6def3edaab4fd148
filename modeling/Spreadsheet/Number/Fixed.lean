import Spreadsheet.Number.Binary64
import Spreadsheet.Text.Digits

/-!
# A fixed number of decimal places

The exact value of a number rounded to some decimal places, of two equally near ones to the even
digit, with all the places written.
-/

namespace Spreadsheet.Number

open Spreadsheet.Text

/-- The size of a number in units of `10 ^ -places`, to the nearest, of two to the even one. -/
def Parts.inPlaces (places : Nat) (p : Parts) : Nat :=
  match p.exponent with
  | .ofNat e => p.significand * Nat.pow 2 e * Nat.pow 10 places
  | .negSucc e => divEven (p.significand * Nat.pow 10 places) (Nat.pow 2 (e + 1))

/-- The digits of a number written with a fixed number of places: those before the point and those
after it. -/
def Parts.fixedDigits (places : Nat) (p : Parts) : List Char × List Char :=
  let n := p.inPlaces places
  (digits (n / Nat.pow 10 places), paddedDigits places (n % Nat.pow 10 places))

/-- How the numbers without parts are written. -/
def nonFinite (x : Float) : List Char :=
  if x == x then (if x < 0 then "-inf".toList else "inf".toList) else "NaN".toList

/-- A number written with a fixed number of places. The sign is written whenever there is one, also
in front of zeros only. -/
def fixed (places : Nat) (x : Float) : List Char :=
  match parts? x with
  | none => nonFinite x
  | some p =>
    let (whole, fraction) := p.fixedDigits places
    (if p.negative then ['-'] else []) ++ whole ++ '.' :: fraction

end Spreadsheet.Number
