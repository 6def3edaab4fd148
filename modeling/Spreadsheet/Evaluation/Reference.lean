import Spreadsheet.Evaluation.Expression
import Spreadsheet.Formula.Reading

/-!
# Values of cells

The value of a cell that a formula refers to. A formula cell is evaluated in the session that needs
it, once, unless it waits for the result itself. A failure stays with the cell it arose in, but a
circle of cells and an evaluation that goes too deep end the whole evaluation.
-/

namespace Spreadsheet

open Evaluation

/-- The expression of a formula that is read with so many levels left: it may not nest deeper. -/
def Expr.ofFormulaWithin (o : Options) (left : Nat) (text : String) : Except FormulaError Expr :=
  if left < o.maxNesting then
    (Expr.ofFormula { o with maxNesting := left } text).mapError fun
      | .nestedTooDeep _ => .tooDeep o.maxRecursion
      | error => error
  else Expr.ofFormula o text

/-- The result of a formula, never blank. -/
def formulaValue (e : Evaluator) (resolve : Coord → Evaluation Value) (text : String) :
    Evaluation Value := do
  let left := e.options.maxRecursion - (← get).frame.levels
  let x ← liftExcept (Expr.ofFormulaWithin e.options left text)
  return (← x.value e resolve false).displayed

/-- The value of a formula cell, which is settled with it. -/
def formulaCellValue (e : Evaluator) (resolve : Coord → Evaluation Value) (c : Coord)
    (text : String) : Evaluation Value := do
  let v ← tryCatch (cellLevel e.options c (formulaValue e resolve text)) fun error =>
    if error.isCycle then throw error else return Sentinel.error.value
  settle c v
  return v

/-- The value of a cell, given how formulas are evaluated. -/
def cellValue (cells : Cells) (formulaCell : Coord → String → Evaluation Value) (c : Coord) :
    Evaluation Value := do
  let s ← get
  if s.frame.waitsFor c then throw (.circular c)
  else match s.settled[c]? with
    | some v => return v
    | none =>
      recordLookup c
      match cells c with
      | .value v => return v
      | .formula text => formulaCell c text

/-- The value of a cell, with so many more formula cells allowed under evaluation. -/
def resolve (e : Evaluator) (cells : Cells) : Nat → Coord → Evaluation Value
  | 0 => cellValue cells fun _ _ => throw (.tooDeep e.options.maxDepth)
  | room + 1 => cellValue cells (formulaCellValue e (resolve e cells room))

end Spreadsheet
