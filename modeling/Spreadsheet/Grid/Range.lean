import Spreadsheet.Grid.Coord

/-!
# Ranges

A rectangle of cells, known by its top left and its bottom right cell. It may be made from any two
opposite corners. Its cells are listed row by row (`cells`), the `i`-th of them found without the
others (`cellAt`).
-/

namespace Spreadsheet

/-- A rectangle of cells, with both its corners inside. -/
structure Range where
  topLeft : Coord
  bottomRight : Coord
  row_le : topLeft.row ≤ bottomRight.row
  col_le : topLeft.col ≤ bottomRight.col
  deriving Repr, DecidableEq

namespace Range

/-- The rectangle between two opposite corners. -/
def ofCorners (a b : Coord) : Range where
  topLeft := ⟨min a.row b.row, min a.col b.col⟩
  bottomRight := ⟨max a.row b.row, max a.col b.col⟩
  row_le := by simp only; omega
  col_le := by simp only; omega

/-- The rectangle of one cell. -/
def single (c : Coord) : Range :=
  ⟨c, c, Nat.le_refl _, Nat.le_refl _⟩

/-- Whether a cell lies in the rectangle. -/
def contains (r : Range) (c : Coord) : Bool :=
  r.topLeft.row ≤ c.row && c.row ≤ r.bottomRight.row &&
    r.topLeft.col ≤ c.col && c.col ≤ r.bottomRight.col

/-- The number of rows. -/
def rows (r : Range) : Nat :=
  r.bottomRight.row - r.topLeft.row + 1

/-- The number of columns. -/
def cols (r : Range) : Nat :=
  r.bottomRight.col - r.topLeft.col + 1

/-- The number of cells. -/
def count (r : Range) : Nat :=
  r.rows * r.cols

/-- The `i`-th cell, row by row. -/
def cellAt (r : Range) (i : Nat) : Coord :=
  ⟨r.topLeft.row + i / r.cols, r.topLeft.col + i % r.cols⟩

/-- The first cells, row by row. -/
def firstCells (r : Range) (n : Nat) : List Coord :=
  (List.range (min n r.count)).map r.cellAt

/-- All cells, row by row. -/
def cells (r : Range) : List Coord :=
  (List.range r.count).map r.cellAt

/-- The least rectangle that holds another one and a cell. -/
def extend (r : Range) (c : Coord) : Range where
  topLeft := ⟨min r.topLeft.row c.row, min r.topLeft.col c.col⟩
  bottomRight := ⟨max r.bottomRight.row c.row, max r.bottomRight.col c.col⟩
  row_le := by have := r.row_le; simp only; omega
  col_le := by have := r.col_le; simp only; omega

/-- The least rectangle that holds some cells, if there are any. -/
def around? : List Coord → Option Range
  | [] => none
  | c :: cs => some (cs.foldl extend (single c))

/-- The text of a range: its corners with a colon between; one cell is written as its address. -/
def toText (r : Range) : String :=
  if r.topLeft = r.bottomRight then r.topLeft.toText
  else r.topLeft.toText ++ ":" ++ r.bottomRight.toText

instance : ToString Range := ⟨toText⟩

/-- Reads a range, or an address as the range of one cell; blanks around it and around its corners
are passed over. -/
def parse (s : String) : Except GridError Range :=
  let cs := Text.trimChars s.toList
  let corner (a : List Char) : Except GridError Coord :=
    (Coord.parse (String.ofList a)).mapError (.badCorner (String.ofList cs))
  match cs.span (· != ':') with
  | (a, _ :: b) => do return ofCorners (← corner a) (← corner b)
  | (_, []) => (Coord.parse (String.ofList cs)).map single

/-- The range that a word names: two addresses with a colon between and nothing around them. -/
def ofWord? (s : String) : Option Range :=
  match s.toList.span (· != ':') with
  | (a, _ :: b) =>
    do return ofCorners (← Coord.ofWord? (String.ofList a)) (← Coord.ofWord? (String.ofList b))
  | (_, []) => none

end Range

end Spreadsheet
