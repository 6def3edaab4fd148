import Spreadsheet.Formula.Operator
import Spreadsheet.Grid.Range

/-!
# Expressions

What a formula says, once it is read.
-/

namespace Spreadsheet

/-- An expression. -/
inductive Expr where
  | number (n : Float)
  /-- Quoted text. -/
  | text (s : String)
  /-- A word that is nothing else; it stands for itself as text. -/
  | bare (s : String)
  | cell (c : Coord)
  | range (r : Range)
  | binary (op : Operator) (left right : Expr)
  | negate (x : Expr)
  /-- A call of the function with this name, in upper case. -/
  | call (name : String) (args : List Expr)
  deriving Repr, Inhabited

/-- An expression with a minus sign in front: a number is negated at once. -/
def Expr.negated : Expr → Expr
  | .number n => .number (-n)
  | x => .negate x

end Spreadsheet
