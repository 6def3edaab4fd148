import Spreadsheet.Formula.Operator
import Spreadsheet.Text.Case
import Spreadsheet.Value

/-!
# Operations on values

What each binary operator makes of the values of its operands. Arithmetic is done on numbers, and a
result that is not finite is zero; division by zero is zero too. Two values that have numbers are
compared as numbers, and any others as texts, without regard to case.
-/

namespace Spreadsheet

/-- The comparison of two values. -/
def Value.compareTo (a b : Value) : Ordering :=
  match a.number?, b.number? with
  | some x, some y => Number.compareTotal x y
  | _, _ => compare (Text.lower a.toText) (Text.lower b.toText)

/-- Divides two numbers, or takes the remainder; zero if the divisor is. -/
def divideBy (f : Float → Float → Float) (a b : Value) : Value :=
  if b.toNumber == 0 then .number 0 else .ofFinite (f a.toNumber b.toNumber)

/-- The value of an operation. -/
def Operator.apply (op : Operator) (a b : Value) : Value :=
  match op with
  | .add => .ofFinite (a.toNumber + b.toNumber)
  | .subtract => .ofFinite (a.toNumber - b.toNumber)
  | .multiply => .ofFinite (a.toNumber * b.toNumber)
  | .divide => divideBy (· / ·) a b
  | .modulo => divideBy Number.remainder a b
  | .power => .ofFinite (a.toNumber.pow b.toNumber)
  | .concat => .text (a.toText ++ b.toText)
  | .and => .ofBool (a.isTrue && b.isTrue)
  | .or => .ofBool (a.isTrue || b.isTrue)
  | .equal => .ofBool (a.compareTo b == .eq)
  | .notEqual => .ofBool (a.compareTo b != .eq)
  | .less => .ofBool (a.compareTo b == .lt)
  | .lessEqual => .ofBool (a.compareTo b != .gt)
  | .greater => .ofBool (a.compareTo b == .gt)
  | .greaterEqual => .ofBool (a.compareTo b != .lt)

end Spreadsheet
