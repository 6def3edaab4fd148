import Spreadsheet.Function.Basic

/-!
# Functions of truth and kind

Truth is the number one and falsehood zero. Here too are the tests for the kind of a value, and the
lookup, which hands back what it is to look for.
-/

namespace Spreadsheet.Function

/-- The second argument if the first counts as true, else the third; blank is empty text. -/
def choose (args : List Value) : Value :=
  (if (arg args 0).isTrue then arg args 1 else arg args 2).displayed

/-- Whether a value is blank or empty text. -/
def isEmpty : Value → Bool
  | .blank => true
  | .text s => s == ""
  | .number _ => false

/-- The functions of truth and kind. -/
def logics : List Function :=
  [ steady .logical "IF" choose,
    steady .logical "AND" fun args => .ofBool (args.all Value.isTrue),
    steady .logical "OR" fun args => .ofBool (args.any Value.isTrue),
    steady .logical "NOT" fun args => .ofBool (!(arg args 0).isTrue),
    steady .logical "TRUE" fun _ => .ofBool true,
    steady .logical "FALSE" fun _ => .ofBool false,
    steady .logical "ISNUMBER" fun args => .ofBool (arg args 0).isNumber,
    steady .logical "ISTEXT" fun args => .ofBool (arg args 0).isText,
    steady .logical "ISBLANK" fun args => .ofBool (isEmpty (arg args 0)),
    steady .lookup "VLOOKUP" fun args => (arg args 0).displayed ]

end Spreadsheet.Function
