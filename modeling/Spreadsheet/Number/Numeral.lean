import Spreadsheet.Number.Binary64
import Spreadsheet.Text.Blank
import Spreadsheet.Text.Digits

/-!
# Numerals

A numeral is an optional sign, digits with an optional point among or around them, and an optional
exponent: `12`, `-.5`, `5.`, `1e-3`. It stands for the number nearest to its exact decimal value
(`ofDecimal`), and for none if that is infinite.
-/

namespace Spreadsheet.Number

open Spreadsheet.Text

/-- A decimal `±coefficient · 10 ^ exponent`. -/
structure Numeral where
  negative : Bool
  coefficient : Nat
  exponent : Int
  deriving Repr, DecidableEq

/-- Takes a sign off the front: whether it was a minus, and what follows. -/
def takeSign : List Char → Bool × List Char
  | '-' :: cs => (true, cs)
  | '+' :: cs => (false, cs)
  | cs => (false, cs)

/-- The exponent that a numeral ends with, zero if there is none. -/
def exponent? : List Char → Option Int
  | [] => some 0
  | c :: cs =>
    if c = 'e' ∨ c = 'E' then
      let (negative, ds) := takeSign cs
      if ds.isEmpty || !ds.all isDigit then none
      else some (if negative then -(ofDigits ds : Int) else ofDigits ds)
    else none

/-- Reads a numeral; nothing may follow it. -/
def Numeral.ofChars? (cs : List Char) : Option Numeral := do
  let (negative, cs) := takeSign cs
  let whole := cs.takeWhile isDigit
  let cs := cs.dropWhile isDigit
  let (fraction, cs) := match cs with
    | '.' :: cs => (cs.takeWhile isDigit, cs.dropWhile isDigit)
    | cs => ([], cs)
  if (whole ++ fraction).isEmpty then none
  else
    let exponent ← exponent? cs
    some ⟨negative, ofDigits (whole ++ fraction), exponent - fraction.length⟩

/-- The number nearest to `coefficient · 10 ^ exponent`. A decimal of 310 digits before the point is
past the greatest number, and one with 330 zeros after it is below half the least. -/
def ofDecimal (coefficient : Nat) (exponent : Int) : Float :=
  let size : Int := digitCount coefficient + exponent
  if coefficient = 0 || size < -330 then 0
  else if 310 < size then infinity
  else
    match exponent with
    | .ofNat e => nearest (coefficient * Nat.pow 10 e) 1
    | .negSucc e => nearest coefficient (Nat.pow 10 (e + 1))

/-- The number a numeral stands for. -/
def Numeral.value (n : Numeral) : Float :=
  signed n.negative (ofDecimal n.coefficient n.exponent)

/-- The finite number that a whole text stands for as a numeral. -/
def ofNumeral? (cs : List Char) : Option Float :=
  ((Numeral.ofChars? cs).map Numeral.value).filter isFinite

/-- The number that cell input stands for: a numeral with nothing around it but blanks. -/
def ofText? (s : String) : Option Float :=
  ofNumeral? (trimChars s.toList)

end Spreadsheet.Number
