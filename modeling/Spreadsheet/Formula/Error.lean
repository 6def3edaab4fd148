import Spreadsheet.Grid.Range
import Spreadsheet.Value

/-!
# Errors of formulas

Why a formula could not be read or evaluated, and the three texts that a cell shows instead of a
result (`Sentinel`).
-/

namespace Spreadsheet

/-- Why a text is no formula. -/
inductive SyntaxError where
  /-- The text ends where an operand is wanted. -/
  | unexpectedEnd
  /-- An operator where an operand is wanted. -/
  | unexpected (token : String)
  /-- A token after a whole expression. -/
  | trailing (token : String)
  /-- Another token where an opened parenthesis has to be closed. -/
  | unclosed (token : String)
  /-- The text ends before an opened parenthesis is closed. -/
  | unclosedAtEnd
  /-- Another token where an argument has to end. -/
  | badArgument (token : String)
  /-- The text ends before the arguments of a call do. -/
  | argumentsAtEnd
  /-- The text is none of the three error values. -/
  | notASentinel (text : String)
  deriving Repr, DecidableEq

/-- Why a word that looks like an address is no reference. -/
inductive ReferenceError where
  /-- The word names no cell of the grid. -/
  | badAddress (word : String) (cause : GridError)
  /-- No address follows the colon. -/
  | openRange (word : String)
  deriving Repr, DecidableEq

/-- Why a formula has no result. -/
inductive FormulaError where
  /-- It cannot be read. -/
  | badSyntax (cause : SyntaxError)
  /-- It refers to a cell outside the grid. -/
  | badReference (cause : ReferenceError)
  /-- A range stands where a single value is wanted. -/
  | rangeAsValue (range : Range)
  /-- A range has more cells than are allowed. -/
  | rangeTooLarge (range : Range) (limit : Nat)
  /-- Parentheses, calls and powers are nested more deeply than is allowed. -/
  | nestedTooDeep (limit : Nat)
  /-- A cell refers back to itself. -/
  | circular (cell : Coord)
  /-- The evaluation goes deeper than is allowed. -/
  | tooDeep (limit : Nat)
  deriving Repr, DecidableEq

/-- The wording of a syntax error. -/
def SyntaxError.message : SyntaxError → String
  | .unexpectedEnd => "Unexpected end of formula"
  | .unexpected token => "Unexpected '" ++ token ++ "'"
  | .trailing token => "Unexpected '" ++ token ++ "' after expression"
  | .unclosed token => "Expected ')', got '" ++ token ++ "'"
  | .unclosedAtEnd => "Expected ')', got end of formula"
  | .badArgument token => "Expected ',' or ')', got '" ++ token ++ "'"
  | .argumentsAtEnd => "Missing ')' after arguments"
  | .notASentinel text => "'" ++ text ++ "' is not an error value"

/-- The wording of a bad reference. -/
def ReferenceError.message : ReferenceError → String
  | .badAddress word cause => word ++ ": " ++ cause.message
  | .openRange word => "incomplete range starting at " ++ word

/-- The wording of an error. -/
def FormulaError.message : FormulaError → String
  | .badSyntax cause => "Parse error: " ++ cause.message
  | .badReference cause => "Invalid reference: " ++ cause.message
  | .rangeAsValue range => "Range " ++ range.toText ++ " cannot be used as a single value"
  | .rangeTooLarge range limit =>
    "Range " ++ range.toText ++ " has " ++ toString range.count ++ " cells (limit: " ++
      toString limit ++ ")"
  | .nestedTooDeep limit => "Formula nested deeper than " ++ toString limit ++ " levels"
  | .circular cell => "Circular reference detected involving cell " ++ cell.toText
  | .tooDeep limit => "Formula evaluation deeper than " ++ toString limit ++ " levels"

/-- Whether an error reaches the formulas that refer to the cell it arose in. The others stay with
their cell. -/
def FormulaError.isCycle : FormulaError → Bool
  | .circular _ | .tooDeep _ => true
  | _ => false

/-- What a cell shows instead of a result. -/
inductive Sentinel where
  /-- The formula failed. -/
  | error
  /-- A function of an unknown name was called. -/
  | name
  /-- Cells refer to each other in a circle. -/
  | cycle
  deriving Repr, DecidableEq

namespace Sentinel

/-- The text that is shown. -/
def text : Sentinel → String
  | .error => "#ERROR!"
  | .name => "#NAME?"
  | .cycle => "#CYCLE!"

/-- A sentinel as a value. -/
def value (s : Sentinel) : Value :=
  .text s.text

/-- The sentinel that a text shows. -/
def ofText? (s : String) : Option Sentinel :=
  [error, name, cycle].find? (·.text == s)

/-- The sentinel that a value shows. -/
def ofValue? : Value → Option Sentinel
  | .text s => ofText? s
  | _ => none

/-- The sentinel that a text shows, or the error that it is none. -/
def parse (s : String) : Except FormulaError Sentinel :=
  match ofText? s with
  | some sentinel => .ok sentinel
  | none => .error (.badSyntax (.notASentinel s))

end Sentinel

/-- What a cell shows for an error. -/
def FormulaError.sentinel (e : FormulaError) : Sentinel :=
  if e.isCycle then .cycle else .error

end Spreadsheet
