import Spreadsheet.Evaluation.Session
import Spreadsheet.Formula.Expr
import Spreadsheet.Formula.Operation
import Spreadsheet.Function.Catalogue

/-!
# Values of expressions

An expression is evaluated from left to right, given how the cells it refers to are (`resolve`). A
range has no value of its own, but as an argument it stands for the values of its cells. A call, a
negation and a chain of operands take one level each; an operand on the left of an operator
belongs to the operator's chain.
-/

namespace Spreadsheet

open Evaluation

/-- The values of the cells of a range, row by row. -/
def Range.values (o : Options) (resolve : Coord → Evaluation Value) (r : Range) :
    Evaluation (List Value) :=
  if o.maxRangeCells < r.count then throw (.rangeTooLarge r o.maxRangeCells)
  else r.cells.mapM resolve

variable (e : Evaluator) (resolve : Coord → Evaluation Value)

mutual

/-- The value of an expression, which stands on the left of an operator or not. -/
def Expr.value (onLeft : Bool) : Expr → Evaluation Value
  | .number n => return .number n
  | .text s | .bare s => return .text s
  | .cell c => return (← resolve c).asOperand
  | .range r => throw (.rangeAsValue r)
  | .negate x => level e.options do return .ofFinite (-(← x.value false).toNumber)
  | .binary op l r =>
    let operation : Evaluation Value := do return op.apply (← l.value true) (← r.value false)
    if onLeft then operation else level e.options operation
  | .call name args => level e.options do
    match Function.find? name with
    | none => return Sentinel.name.value
    | some f => do e.call f (← Expr.arguments args)

/-- The values of arguments. A blank cell stays blank. -/
def Expr.arguments : List Expr → Evaluation (List Value)
  | [] => return []
  | .range r :: args => return (← r.values e.options resolve) ++ (← Expr.arguments args)
  | .cell c :: args => return (← resolve c) :: (← Expr.arguments args)
  | x :: args => return (← x.value false) :: (← Expr.arguments args)

end

end Spreadsheet
