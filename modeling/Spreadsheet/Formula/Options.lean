/-!
# Options of an evaluation

How chains of operators are grouped, and how far an evaluation may go.
-/

namespace Spreadsheet

/-- How a chain of operands and operators is grouped. -/
inductive Grouping where
  /-- From left to right up to the first comparison, which ends the chain. -/
  | leftToRight
  /-- By how tightly the operators bind. -/
  | byBinding
  deriving Repr, DecidableEq

/-- The options of an evaluation. -/
structure Options where
  grouping : Grouping := .leftToRight
  /-- The greatest number of formula cells under evaluation at once. -/
  maxDepth : Nat := 128
  /-- The greatest number of parentheses, calls and powers open at once in one formula. -/
  maxNesting : Nat := 64
  /-- The greatest number of cells in a range. -/
  maxRangeCells : Nat := 1000000
  /-- The greatest number of formula cells, calls, negations and chains under evaluation at once. -/
  maxRecursion : Nat := 512
  deriving Repr, DecidableEq

end Spreadsheet
