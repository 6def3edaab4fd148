import Spreadsheet.Grid.Error
import Spreadsheet.Number.Word
import Spreadsheet.Text.Digits

/-!
# Column letters

Columns are counted from 0 and named `A`, …, `Z`, `AA`, `AB`, …: the letters are the digits of the
number after the index in the bijective numeral system of base 26. `letters` names a column and
`index` reads a name, in either case of letters, as long as it names a column of the grid.
-/

namespace Spreadsheet.Column

open Spreadsheet.Text

/-- The letter for a number below 26. -/
def letter (n : Nat) : Char :=
  Char.ofNat ('A'.toNat + n)

/-- The letters of a positive number in front of others; none for zero. -/
def lettersOnto (n : Nat) (after : List Char) : List Char :=
  if h : n = 0 then after
  else lettersOnto ((n - 1) / 26) (letter ((n - 1) % 26) :: after)
termination_by n
decreasing_by omega

/-- The letters that name a column. -/
def letters (index : Nat) : List Char :=
  lettersOnto (index + 1) []

/-- The number a letter stands for in a column's name, from 1 to 26. -/
def letterValue (c : Char) : Nat :=
  c.toUpper.toNat - 'A'.toNat + 1

/-- Reads on after letters that stand for `n`. -/
def readFrom (n : Nat) : List Char → Except GridError Nat
  | [] => .ok n
  | c :: cs =>
    if !isLetter c then .error (.badColumnLetter c)
    else
      let n := n * 26 + letterValue c
      if maxCols < n then .error .columnOutOfBounds else readFrom n cs

/-- The column that letters name. -/
def index (cs : List Char) : Except GridError Nat :=
  if cs.isEmpty then .error .emptyColumn else (readFrom 0 cs).map (· - 1)

/-! ## In words -/

/-- The number a letter stands for, in words of 32 bits. -/
def letterValueInWords (c : Char) : Except Overflow Nat := do
  Word.add 32 (← Word.sub c.toUpper.toNat 'A'.toNat) 1

/-- Reads on after letters that stand for `n`, in words of 32 bits. An overflow is told apart from a
column that lies outside the grid. -/
def readFromInWords (n : Nat) : List Char → Except Overflow (Except GridError Nat)
  | [] => return .ok n
  | c :: cs => do
    if !isLetter c then return .error (.badColumnLetter c)
    else
      let n ← Word.add 32 (← Word.mul 32 n 26) (← letterValueInWords c)
      if maxCols < n then return .error .columnOutOfBounds else readFromInWords n cs

/-- The column that letters name, in words of 32 bits. -/
def indexInWords (cs : List Char) : Except Overflow (Except GridError Nat) := do
  if cs.isEmpty then return .error .emptyColumn
  else
    match ← readFromInWords 0 cs with
    | .error error => return .error error
    | .ok n => return .ok (← Word.sub n 1)

/-- The letters of a positive number in front of others: the number in words of 64 bits, and each
letter in one of 8. -/
def lettersOntoInWords (n : Nat) (after : List Char) : Except Overflow (List Char) :=
  if n = 0 then return after
  else
    match h : Word.sub n 1 with
    | .error overflow => throw overflow
    | .ok below => do
      let letter ← Word.add 8 (below % 26) 'A'.toNat
      lettersOntoInWords (below / 26) (Char.ofNat letter :: after)
termination_by n
decreasing_by exact Nat.lt_of_le_of_lt (Nat.div_le_self ..) (Word.lt_of_sub_succ h)

/-- The letters that name a column, in words. -/
def lettersInWords (index : Nat) : Except Overflow (List Char) := do
  lettersOntoInWords (← Word.add 64 index 1) []

end Spreadsheet.Column
