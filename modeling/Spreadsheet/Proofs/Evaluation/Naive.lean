import Spreadsheet.Evaluation.Evaluator

/-!
# The naive semantics

What a formula means when nothing is remembered and nothing is limited: both operands of every
operator are evaluated, a formula cell is evaluated anew each time it is referred to, every formula
may nest as deep as the options say, and all that is kept is which cells wait for the result
(`Naive.cell`). A chain of cells may be endless, so the semantics has a clock: `none` says that the
chain of formula cells got longer than `fuel`, and `Naive.Yields` that a result is there from some
`fuel` on. No number is drawn: all calls find the same surroundings, with the random number that an
evaluation draws first (`Surroundings.fixed`).

The value of an expression (`Expr.naiveValue`) does not depend on the monad it is computed in, so
that it serves for other ways to read cells too.
-/

namespace Spreadsheet

/-- Surroundings in which the next number is drawn over and over. -/
def Surroundings.fixed (s : Surroundings) : Surroundings :=
  { s with random := .always s.next }

/-! ## Values of expressions -/

section
variable {m : Type → Type} [Monad m] [MonadExceptOf FormulaError m]

/-- The values of the cells of a range, row by row, if it is not too large. -/
def Range.naiveValues (o : Options) (read : Coord → m Value) (r : Range) : m (List Value) :=
  if o.maxRangeCells < r.count then throw (.rangeTooLarge r o.maxRangeCells)
  else r.cells.mapM read

variable (e : Evaluator) (read : Coord → m Value)

mutual

/-- The value of an expression, given how cells are read. -/
def Expr.naiveValue : Expr → m Value
  | .number n => return .number n
  | .text s | .bare s => return .text s
  | .cell c => return (← read c).asOperand
  | .range r => throw (.rangeAsValue r)
  | .negate x => return .ofFinite (-(← x.naiveValue).toNumber)
  | .binary op l r => return op.apply (← l.naiveValue) (← r.naiveValue)
  | .call name args =>
    match Function.find? name with
    | none => return Sentinel.name.value
    | some f => return f.result e.surroundings.fixed (← Expr.naiveArguments args)

/-- The values of arguments. A range stands for its cells, and a blank cell stays blank. -/
def Expr.naiveArguments : List Expr → m (List Value)
  | [] => return []
  | .range r :: args => return (← r.naiveValues e.options read) ++ (← Expr.naiveArguments args)
  | .cell c :: args => return (← read c) :: (← Expr.naiveArguments args)
  | x :: args => return (← x.naiveValue) :: (← Expr.naiveArguments args)

end

end

/-! ## Values of cells and formulas -/

/-- A naive evaluation: a value or an error, or `none` if it has not come to its end. -/
abbrev Naive := ExceptT FormulaError Option

namespace Naive

variable {α : Type}

/-- The result of a formula, given how cells are read. -/
def formula (e : Evaluator) (read : Coord → Naive Value) (text : String) : Naive Value := do
  let x ← liftExcept (Expr.ofFormula e.options text)
  return (← x.naiveValue e read).displayed

/-- What the result of its formula makes of a cell for the formulas that refer to it: a failure
stays with the cell unless it is a circle. -/
def cellResult : Except FormulaError Value → Except FormulaError Value
  | .ok v => .ok v
  | .error error => if error.isCycle then .error error else .ok Sentinel.error.value

/-- The value of a cell while others wait for the result. -/
def cell (e : Evaluator) (cells : Cells) (fuel : Nat) (waiting : List Coord) (c : Coord) :
    Naive Value :=
  if c ∈ waiting then throw (.circular c)
  else match cells c, fuel with
    | .value v, _ => return v
    | .formula _, 0 => none
    | .formula text, fuel + 1 =>
      ExceptT.mk ((formula e (cell e cells fuel (c :: waiting)) text).run.map cellResult)

/-- The result of a formula, which belongs to a cell or to none. -/
def tryEvaluate (e : Evaluator) (cells : Cells) (current : Option Coord) (text : String)
    (fuel : Nat) : Option (Except FormulaError Value) :=
  (formula e (cell e cells fuel current.toList) text).run

/-- An evaluation comes to its end with a result: from some `fuel` on, it has this result. -/
def Yields (act : Nat → Option (Except FormulaError α)) (r : Except FormulaError α) : Prop :=
  ∃ n, ∀ fuel, n ≤ fuel → act fuel = some r

end Naive

end Spreadsheet
