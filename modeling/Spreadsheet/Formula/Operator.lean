/-!
# Binary operators

The operators that join two operands, the tokens they are written with, and how tightly they bind
where binding counts.
-/

namespace Spreadsheet

/-- A binary operator. -/
inductive Operator where
  | add
  | subtract
  | multiply
  | divide
  | modulo
  | power
  | concat
  | equal
  | notEqual
  | less
  | lessEqual
  | greater
  | greaterEqual
  | and
  | or
  deriving Repr, DecidableEq

namespace Operator

/-- The operator a token is written for: equality and its opposite have two spellings each. -/
def ofText? : String → Option Operator
  | "+" => some .add
  | "-" => some .subtract
  | "*" => some .multiply
  | "/" => some .divide
  | "%" => some .modulo
  | "^" => some .power
  | "&" => some .concat
  | "=" | "==" => some .equal
  | "<>" | "!=" => some .notEqual
  | "<" => some .less
  | "<=" => some .lessEqual
  | ">" => some .greater
  | ">=" => some .greaterEqual
  | "&&" => some .and
  | "||" => some .or
  | _ => none

/-- Whether an operator compares its operands. -/
def isComparison : Operator → Bool
  | .equal | .notEqual | .less | .lessEqual | .greater | .greaterEqual => true
  | _ => false

/-- How tightly an operator binds its operands; the greater, the tighter. -/
def binding : Operator → Nat
  | .and | .or => 1
  | .equal | .notEqual | .less | .lessEqual | .greater | .greaterEqual => 2
  | .concat => 3
  | .add | .subtract => 4
  | .multiply | .divide | .modulo => 5
  | .power => 6

end Operator

end Spreadsheet
