import Spreadsheet.Csv.Record
import Spreadsheet.Grid.Error

/-!
# Errors of tables

Why a table was not read or written.
-/

namespace Spreadsheet

/-- Why a table was not read or written. -/
inductive CsvError where
  /-- The file could not be opened. -/
  | notOpened (cause : String)
  /-- The file could not be read. -/
  | notRead (cause : String)
  /-- A field of a record is no text: so many octets come before the first that spell none. -/
  | notText (position : Csv.Position) (field octets : Nat)
  /-- A field that is not empty lies outside the grid. Row and column are counted from 0. -/
  | outsideGrid (row col : Nat)
  deriving Repr, DecidableEq

namespace CsvError

/-- The wordings of an error and of what caused it, the error first. -/
def messages : CsvError → List String
  | .notOpened cause => ["IO error: " ++ cause, cause]
  | .notRead cause => ["CSV error: " ++ cause, cause, cause]
  | .notText p field octets =>
    let fault := "invalid utf-8: invalid UTF-8 in field " ++ toString field ++
      " near byte index " ++ toString octets
    let place := "CSV parse error: record " ++ toString p.record ++ " (line " ++ toString p.line ++
      ", field: " ++ toString field ++ ", byte: " ++ toString p.octet ++ "): " ++ fault
    ["CSV error: " ++ place, place, fault]
  | .outsideGrid row col =>
    ["Field at row " ++ toString (row + 1) ++ ", column " ++ toString (col + 1) ++
      " is outside the " ++ toString maxRows ++ "x" ++ toString maxCols ++ " grid"]

/-- The wording of an error. -/
def message (e : CsvError) : String :=
  e.messages.headD ""

end CsvError

end Spreadsheet
