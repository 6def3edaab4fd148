import Spreadsheet.Csv.Error
import Spreadsheet.Csv.Writing
import Spreadsheet.Sheet.Basic
import Spreadsheet.Text.Utf8

/-!
# Sheets as tables

A sheet read from a table has the `m`-th field of the `n`-th record in column `m` of row `n`. Empty
fields stand for nothing. A sheet is written from its first cell on, so that cells keep their
places.
-/

namespace Spreadsheet

open Csv

namespace Csv

/-- How a table is read into a sheet. -/
structure Reading where
  dialect : Dialect := {}
  /-- Whether the first record is plain text. -/
  hasHeader : Bool := false
  /-- Whether numerals are numbers. -/
  numbers : Bool := true
  /-- Whether a field that begins with `=` is a formula. -/
  formulas : Bool := true
  /-- The name of the sheet. -/
  name : String := "Sheet1"
  deriving Repr

/-- How a sheet is written as a table. -/
structure Format where
  dialect : Dialect := {}
  /-- Whether cells that have formulas are written as these. -/
  formulas : Bool := false
  lineEnd : LineEnd := .lf
  deriving Repr

/-! ## Reading -/

/-- What a field of a row stands for. -/
def Reading.content (o : Reading) (row : Nat) (field : String) : Content :=
  if o.hasHeader && row == 0 then .value (.text field)
  else if o.formulas && Value.isFormulaText field then .formula field
  else .value (if o.numbers then .ofInput field else .text field)

/-- The fields of a record as text. -/
def Record.texts (r : Record) : Except CsvError (List String) :=
  r.fields.zipIdx.mapM fun (field, n) =>
    (Text.Utf8.decode field).mapError (.notText r.position n)

/-- Puts the fields of a row into a sheet, from a column on. -/
def Reading.placeFields (o : Reading) (row : Nat) :
    Nat → Sheet → List String → Except CsvError Sheet
  | _, s, [] => .ok s
  | col, s, field :: fields =>
    if field = "" then o.placeFields row (col + 1) s fields
    else if maxRows ≤ row ∨ maxCols ≤ col then .error (.outsideGrid row col)
    else o.placeFields row (col + 1) (s.setContent ⟨row, col⟩ (o.content row field)) fields

/-- Puts records into a sheet, from a row on. -/
def Reading.placeRecords (o : Reading) : Nat → Sheet → List Record → Except CsvError Sheet
  | _, s, [] => .ok s
  | row, s, r :: rs => do
    let s ← o.placeFields row 0 s (← r.texts)
    o.placeRecords (row + 1) s rs

end Csv

/-- The sheet of a table. -/
def Sheet.ofCsv (o : Csv.Reading) (octets : List UInt8) : Except CsvError Sheet :=
  o.placeRecords 0 (.empty o.name) (records o.dialect octets)

/-! ## Writing -/

/-- The text that a cell is written as. -/
def Sheet.fieldText (s : Sheet) (f : Csv.Format) (c : Coord) : String :=
  match if f.formulas then s.formula? c else none with
  | some text => text
  | none => (s.value c).toText

/-- The fields of a row up to a column. -/
def Sheet.rowFields (s : Sheet) (f : Csv.Format) (cols row : Nat) : List (List UInt8) :=
  (List.range cols).map fun col => Text.Utf8.encode (s.fieldText f ⟨row, col⟩)

/-- The records of a sheet: all rows and columns up to the last that are used. -/
def Sheet.toRecords (s : Sheet) (f : Csv.Format) : List (List (List UInt8)) :=
  match s.usedRange? with
  | some r => (List.range (r.bottomRight.row + 1)).map (s.rowFields f (r.bottomRight.col + 1))
  | none => []

/-- The table of a sheet. -/
def Sheet.toCsv (s : Sheet) (f : Csv.Format) : List UInt8 :=
  Csv.write f.dialect f.lineEnd (s.toRecords f)

end Spreadsheet
