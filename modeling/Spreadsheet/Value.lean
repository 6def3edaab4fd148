import Spreadsheet.Grid.Coord
import Spreadsheet.Number.Display
import Spreadsheet.Number.Numeral

/-!
# Values

What a cell shows or a formula results in: nothing, a number or a text. A number may be asked of
any value and so may a text; a text that is a numeral counts as its number.
-/

namespace Spreadsheet

/-- What a cell shows or a formula results in. -/
inductive Value where
  | blank
  | number (n : Float)
  | text (s : String)
  deriving Repr, DecidableEq, Inhabited

namespace Value

/-- Whether a text is a formula: it begins with `=`. -/
def isFormulaText (s : String) : Bool :=
  s.toList.head? == some '='

/-- One for true and zero for false. -/
def ofBool (b : Bool) : Value :=
  .number (if b then 1 else 0)

/-- Counts are words of 64 bits. -/
def countLimit : Nat := Nat.pow 2 64 - 1

/-- A count. -/
def ofNat (n : Nat) : Value :=
  .number (Number.ofInt (min n countLimit))

/-- A number; infinities and NaN become zero. -/
def ofFinite (x : Float) : Value :=
  .number (Number.finiteOrZero x)

/-- What plain input to a cell stands for: nothing if there are only blanks, a number if it is a
numeral, else the input itself as text, with the blanks around it. -/
def ofInput (raw : String) : Value :=
  if (Text.trimChars raw.toList).isEmpty then .blank
  else match Number.ofText? raw with
    | some n => .number n
    | none => .text raw

/-- The number of a value, if it has one: a numeral in text counts. -/
def number? : Value → Option Float
  | .blank => none
  | .number n => some n
  | .text s => Number.ofText? s

/-- The number of a value, zero if it has none. -/
def toNumber (v : Value) : Float :=
  v.number?.getD 0

/-- The text of a value, as a cell shows it. -/
def toText : Value → String
  | .blank => ""
  | .number n => Number.display n
  | .text s => s

instance : ToString Value := ⟨toText⟩

/-- Whether a value counts as true: a number other than zero and NaN does, and a text that is not
empty. -/
def isTrue : Value → Bool
  | .blank => false
  | .number n => n != 0 && n == n
  | .text s => s != ""

def isBlank : Value → Bool
  | .blank => true
  | _ => false

def isNumber : Value → Bool
  | .number _ => true
  | _ => false

def isText : Value → Bool
  | .text _ => true
  | _ => false

/-- Whether a value is the text of a formula. -/
def isFormula : Value → Bool
  | .text s => isFormulaText s
  | _ => false

/-- The name of the kind of a value. -/
def kind : Value → String
  | .blank => "blank"
  | .number _ => "number"
  | .text _ => "text"

/-- Whether two values are of one kind and equal: the two zeros are, and NaN equals nothing. -/
def same : Value → Value → Bool
  | .blank, .blank => true
  | .number a, .number b => a == b
  | .text a, .text b => a == b
  | _, _ => false

/-- A value as the result of a formula, which is never blank but empty text. -/
def displayed : Value → Value
  | .blank => .text ""
  | v => v

/-- A value as an operand, where a blank cell is zero. -/
def asOperand : Value → Value
  | .blank => .number 0
  | v => v

end Value

/-- What a cell holds: a plain value, or a formula that is yet to be evaluated. -/
inductive Content where
  | value (v : Value)
  | formula (text : String)
  deriving Repr, DecidableEq, Inhabited

/-- What input to a cell holds: a formula if it begins with `=`, else a plain value. -/
def Content.ofInput (raw : String) : Content :=
  if Value.isFormulaText raw then .formula raw else .value (.ofInput raw)

/-- The contents of every cell. -/
abbrev Cells := Coord → Content

end Spreadsheet
