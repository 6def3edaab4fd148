/-!
# Errors of the grid

Why a text names no cell or range, or is no formula.
-/

namespace Spreadsheet

/-- The number of rows that an address can name. -/
def maxRows : Nat := 1048576

/-- The number of columns that an address can name. -/
def maxCols : Nat := 16384

/-- Why a text was refused. -/
inductive GridError where
  /-- The text is not letters followed by digits. -/
  | notAnAddress (text : String)
  /-- No letters where a column is wanted. -/
  | emptyColumn
  /-- A character that is no letter where a column is wanted. -/
  | badColumnLetter (c : Char)
  /-- The row number is too long to be one. -/
  | rowTooLong (text : String)
  /-- Row numbers begin at 1. -/
  | rowZero (text : String)
  /-- A corner of the range is no address. -/
  | badCorner (text : String) (cause : GridError)
  /-- The row, counted from 0, lies below the grid. -/
  | rowOutOfBounds (row : Nat)
  /-- The column lies to the right of the grid. -/
  | columnOutOfBounds
  /-- The text does not begin with `=`. -/
  | notAFormula (text : String)
  deriving Repr, DecidableEq

/-- The wording of an error. -/
def GridError.message : GridError → String
  | .notAnAddress text =>
    "Invalid cell address: '" ++ text ++ "' is not letters followed by digits"
  | .emptyColumn => "Invalid cell address: empty column letters"
  | .badColumnLetter c =>
    "Invalid cell address: invalid column letter '" ++ String.singleton c ++ "'"
  | .rowTooLong text => "Invalid cell address: invalid row number in '" ++ text ++ "'"
  | .rowZero text => "Invalid cell address: row number must be >= 1 in '" ++ text ++ "'"
  | .badCorner text cause => "Invalid cell range: " ++ text ++ ": " ++ cause.message
  | .rowOutOfBounds row =>
    "Row index " ++ toString row ++ " out of bounds (max: " ++ toString (maxRows - 1) ++ ")"
  | .columnOutOfBounds =>
    "Column index 4294967295 out of bounds (max: " ++ toString (maxCols - 1) ++ ")"
  | .notAFormula text => "Not a formula (must start with '='): " ++ text

/-! ## Computations that may fail -/

/-- Of two computations in a row that do not fail, neither fails. -/
theorem exists_of_bind_eq_ok {ε α β : Type} {x : Except ε α} {f : α → Except ε β} {b : β}
    (h : x >>= f = .ok b) : ∃ a, x = .ok a ∧ f a = .ok b := by
  cases x with
  | error error => cases h
  | ok a => exact ⟨a, rfl, h⟩

end Spreadsheet
