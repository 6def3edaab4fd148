import Spreadsheet.Evaluation.Reference

/-!
# Evaluating formulas

A formula is evaluated over the contents of cells, as the formula of one of them or on its own. The
result is a value or an error (`tryEvaluate`), or what a cell shows (`evaluate`).
-/

namespace Spreadsheet

open Evaluation

/-- How an evaluation ended. -/
structure Outcome where
  result : Except FormulaError Value
  /-- The cells that were looked up, in order. -/
  lookups : List Coord

namespace Evaluator

/-- Evaluates a formula in a new session. -/
def session (e : Evaluator) (cells : Cells) (current : Option Coord) (text : String) :
    Except FormulaError Value × Session :=
  (formulaValue e (resolve e cells e.options.maxDepth) text).run { frame := { current } }

/-- Evaluates a formula, and tells the cells it looked up. -/
def outcome (e : Evaluator) (cells : Cells) (current : Option Coord) (text : String) : Outcome :=
  let (result, s) := e.session cells current text
  ⟨result, s.lookups.reverse⟩

/-- The result of a formula, or why it has none. -/
def tryEvaluate (e : Evaluator) (cells : Cells) (current : Option Coord) (text : String) :
    Except FormulaError Value :=
  (e.session cells current text).1

/-- What a cell shows for the end of an evaluation. -/
def shown : Except FormulaError Value → Value
  | .ok v => v
  | .error error => error.sentinel.value

/-- What a cell with this formula shows. -/
def evaluate (e : Evaluator) (cells : Cells) (current : Option Coord) (text : String) : Value :=
  shown (e.tryEvaluate cells current text)

end Evaluator

end Spreadsheet
