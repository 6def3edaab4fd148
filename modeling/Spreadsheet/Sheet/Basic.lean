import Spreadsheet.Grid.Range
import Spreadsheet.Sheet.Formulas
import Spreadsheet.Value

/-!
# Sheets

A sheet keeps apart what its cells display and the formulas that some of them have. A cell that has
a formula displays what was last computed for it, which may be out of date or nothing yet. Only
values that are not blank are kept.
-/

namespace Spreadsheet

/-- A sheet. -/
structure Sheet where
  name : String := ""
  /-- The displayed values that are not blank. -/
  values : Std.ExtTreeMap Coord Value := ∅
  formulas : Formulas := .empty

namespace Sheet

/-- A sheet without values and formulas. -/
def empty (name : String) : Sheet := { name }

/-! ## What a sheet holds -/

/-- The displayed value of a cell. -/
def value (s : Sheet) (c : Coord) : Value :=
  s.values.getD c .blank

/-- The formula of a cell. -/
def formula? (s : Sheet) (c : Coord) : Option String :=
  s.formulas.get? c

/-- What each cell holds for an evaluation: its formula if it has one, else its value. -/
def contents (s : Sheet) : Cells := fun c =>
  match s.formula? c with
  | some text => .formula text
  | none => .value (s.value c)

/-- Whether a cell displays something or has a formula. -/
def isUsed (s : Sheet) (c : Coord) : Bool :=
  s.values.contains c || s.formulas.contains c

/-- The cells that display something and those that have a formula. -/
def usedCells (s : Sheet) : List Coord :=
  s.values.keys ++ s.formulas.cells

/-- The least rectangle with all cells that display something or have a formula. -/
def usedRange? (s : Sheet) : Option Range :=
  Range.around? s.usedCells

/-! ## Changes -/

/-- Changes what a cell displays, and leaves its formula alone. -/
def display (s : Sheet) (c : Coord) (v : Value) : Sheet :=
  { s with values := if v.isBlank then s.values.erase c else s.values.insert c v }

/-- Gives a cell a plain value, in place of a formula too. -/
def setValue (s : Sheet) (c : Coord) (v : Value) : Sheet :=
  { s with formulas := s.formulas.erase c }.display c v

/-- Gives a cell a formula. What it displays stays until it is computed. -/
def setFormula (s : Sheet) (c : Coord) (text : String) : Except GridError Sheet :=
  if Value.isFormulaText text then .ok { s with formulas := s.formulas.insert c text }
  else .error (.notAFormula text)

/-- Gives a cell a formula or a plain value. -/
def setContent (s : Sheet) (c : Coord) : Content → Sheet
  | .formula text => { s with formulas := s.formulas.insert c text }
  | .value v => s.setValue c v

/-- Gives a cell what plain input stands for. -/
def setInput (s : Sheet) (c : Coord) (raw : String) : Sheet :=
  s.setContent c (.ofInput raw)

/-- Takes value and formula of a cell away. -/
def clear (s : Sheet) (c : Coord) : Sheet :=
  { s with values := s.values.erase c, formulas := s.formulas.erase c }

/-! ## What is found after a change -/

/-- A new sheet is blank. -/
@[simp]
theorem value_empty (name : String) (c : Coord) : (empty name).value c = .blank := by
  simp [value, empty]

/-- A displayed value is that of its cell. -/
theorem value_display (s : Sheet) (c a : Coord) (v : Value) :
    (s.display c v).value a = if c = a then v else s.value a := by
  cases v <;>
    simp [value, display, Value.isBlank, Std.ExtTreeMap.getD_insert, Std.ExtTreeMap.getD_erase]

@[simp]
theorem formula?_display (s : Sheet) (c a : Coord) (v : Value) :
    (s.display c v).formula? a = s.formula? a := rfl

/-- A value that is set is that of its cell. -/
theorem value_setValue (s : Sheet) (c a : Coord) (v : Value) :
    (s.setValue c v).value a = if c = a then v else s.value a :=
  value_display _ c a v

/-- A value that is set takes the place of a formula. -/
theorem formula?_setValue (s : Sheet) (c a : Coord) (v : Value) :
    (s.setValue c v).formula? a = if c = a then none else s.formula? a :=
  s.formulas.get?_erase c a

/-- A cleared cell is blank. -/
theorem value_clear (s : Sheet) (c a : Coord) :
    (s.clear c).value a = if c = a then .blank else s.value a := by
  simp [value, clear, Std.ExtTreeMap.getD_erase]

/-- A cleared cell has no formula. -/
theorem formula?_clear (s : Sheet) (c a : Coord) :
    (s.clear c).formula? a = if c = a then none else s.formula? a :=
  s.formulas.get?_erase c a

/-! ## By address -/

/-- The displayed value of the cell at an address. -/
def valueAt (s : Sheet) (address : String) : Except GridError Value :=
  return s.value (← Coord.parse address)

/-- The formula of the cell at an address. -/
def formulaAt? (s : Sheet) (address : String) : Except GridError (Option String) :=
  return s.formula? (← Coord.parse address)

/-- Gives the cell at an address a plain value. -/
def setValueAt (s : Sheet) (address : String) (v : Value) : Except GridError Sheet :=
  return s.setValue (← Coord.parse address) v

/-- Gives the cell at an address a formula. -/
def setFormulaAt (s : Sheet) (address text : String) : Except GridError Sheet := do
  s.setFormula (← Coord.parse address) text

/-- Gives the cell at an address what plain input stands for. -/
def setInputAt (s : Sheet) (address raw : String) : Except GridError Sheet :=
  return s.setInput (← Coord.parse address) raw

end Sheet

end Spreadsheet
