import Spreadsheet.Grid.Range
import Spreadsheet.Number.Word

/-!
# Walks through ranges

The cells of a range one after another, row by row. A walk knows the cell that comes next and how
many are to come; it is done when none is left. Rows and columns are words of 32 bits and numbers of
cells words of 64 bits, so a range that reaches to the greatest word cannot be walked through.
-/

namespace Spreadsheet

namespace Range

/-- The number of rows, in words of 32 bits. -/
def rowsInWords (r : Range) : Except Overflow Nat := do
  Word.add 32 (← Word.sub r.bottomRight.row r.topLeft.row) 1

/-- The number of columns, in words of 32 bits. -/
def colsInWords (r : Range) : Except Overflow Nat := do
  Word.add 32 (← Word.sub r.bottomRight.col r.topLeft.col) 1

/-- The number of cells, in a word of 64 bits. -/
def countInWords (r : Range) : Except Overflow Nat := do
  Word.mul 64 (← r.rowsInWords) (← r.colsInWords)

end Range

/-- A walk through the cells of a range. -/
structure Walk where
  range : Range
  /-- The row of the cell that comes next, if one does. -/
  row : Nat
  /-- The column of the cell that comes next, if one does. -/
  col : Nat
  /-- The number of cells that are to come. -/
  remaining : Nat
  deriving Repr, DecidableEq

namespace Walk

/-- The walk before the first cell. -/
def start (r : Range) : Except Overflow Walk := do
  return ⟨r, r.topLeft.row, r.topLeft.col, ← r.countInWords⟩

/-- The next cell, if one is left, and the walk after it: on in the row, or to the row below. -/
def next (w : Walk) : Except Overflow (Option Coord × Walk) := do
  if w.remaining = 0 then return (none, w)
  else
    let remaining ← Word.sub w.remaining 1
    let col ← Word.add 32 w.col 1
    if w.range.bottomRight.col < col then
      let row ← Word.add 32 w.row 1
      return (some ⟨w.row, w.col⟩, { w with row, col := w.range.topLeft.col, remaining })
    else return (some ⟨w.row, w.col⟩, { w with col, remaining })

/-- The answers to so many requests for the next cell, and the walk after them. -/
def nexts : Nat → Walk → Except Overflow (List (Option Coord) × Walk)
  | 0, w => return ([], w)
  | n + 1, w => do
    let (answer, w) ← w.next
    let (answers, w) ← nexts n w
    return (answer :: answers, w)

/-- The least and the greatest number of cells that may be to come, in words of 64 bits. -/
def sizeHint (w : Walk) : Nat × Option Nat :=
  let size := min w.remaining (Word.limit 64 - 1)
  (size, some size)

end Walk

end Spreadsheet
