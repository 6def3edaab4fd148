import Spreadsheet.Value

/-!
# Functions

A function of formulas takes the values of its arguments and always has a result. A function may ask
for its surroundings: the clock, which is read once for an evaluation, and a random number, which is
drawn for the call. A missing argument counts as blank.
-/

namespace Spreadsheet

/-- A supply of random numbers from 0 to 1, not 1 itself. -/
structure Supply where
  /-- The numbers that are drawn, in order, while the formula of a cell is evaluated, or a formula
  that belongs to no cell. -/
  draw : Option Coord → Nat → Float

namespace Supply

/-- The same number at every draw. -/
def always (x : Float) : Supply :=
  ⟨fun _ _ => x⟩

instance (n : Nat) [OfNat Float n] : OfNat Supply n :=
  ⟨always (OfNat.ofNat n)⟩

instance : OfScientific Supply :=
  ⟨fun mantissa negative exponent => always (.ofScientific mantissa negative exponent)⟩

end Supply

/-- What a function may consult besides its arguments. -/
structure Surroundings where
  /-- Milliseconds since the beginning of 1970, in universal time. -/
  clock : Int
  random : Supply

namespace Surroundings

/-- The next number that is drawn. -/
def next (s : Surroundings) : Float :=
  s.random.draw none 0

/-- What is found in the evaluation of the formula of a cell when so many numbers have been
drawn. -/
def after (s : Surroundings) (current : Option Coord) (drawn : Nat) : Surroundings :=
  { s with random := ⟨fun _ i => s.random.draw current (drawn + i)⟩ }

end Surroundings

/-- What a function is for. -/
inductive Category where
  | math
  | logical
  | text
  | lookup
  | statistical
  | financial
  | date
  | conditional
  deriving Repr, DecidableEq

namespace Category

/-- The categories in the order in which they are listed. -/
def all : List Category :=
  [math, logical, text, lookup, statistical, financial, date, conditional]

/-- The name of a category in listings. -/
def label : Category → String
  | math => "Math"
  | logical => "Logical"
  | text => "Text"
  | lookup => "Lookup"
  | statistical => "Statistical"
  | financial => "Financial"
  | date => "Date"
  | conditional => "Conditional aggregation"

end Category

/-- A function: its name in upper case, and its result on the values of its arguments. -/
structure Function where
  name : String
  category : Category
  result : Surroundings → List Value → Value
  /-- Whether the result may change although the arguments do not. -/
  volatile : Bool := false
  /-- Whether a call draws a random number. -/
  draws : Bool := false

namespace Function

/-- A function that does not look at its surroundings. -/
def steady (category : Category) (name : String) (result : List Value → Value) : Function :=
  { name, category, result := fun _ => result }

/-- A function that looks at nothing but its surroundings. -/
def ambient (category : Category) (name : String) (result : Surroundings → Value) : Function :=
  { name, category, result := fun s _ => result s, volatile := true }

/-! ## Arguments -/

/-- The `i`-th argument. -/
def arg (args : List Value) (i : Nat) : Value :=
  args.getD i .blank

/-- The number of the `i`-th argument, or `default` if it has none. -/
def numberArg (args : List Value) (i : Nat) (default : Float) : Float :=
  (arg args i).number?.getD default

/-- The characters of the `i`-th argument. -/
def charsArg (args : List Value) (i : Nat) : List Char :=
  (arg args i).toText.toList

/-- The count that the `i`-th argument gives, without its fraction; less than none is none. -/
def countArg (args : List Value) (i : Nat) (default : Float) : Nat :=
  (Number.clampToInt 0 Value.countLimit (numberArg args i default)).toNat

/-- The number of a value that is one; a numeral in text does not count. -/
def plainNumber? : Value → Option Float
  | .number n => some n
  | _ => none

/-- The arguments that are numbers. -/
def numbers (args : List Value) : List Float :=
  args.filterMap plainNumber?

/-- A function of one number, which is `default` if there is none. The result is zero if it is not
finite. -/
def ofNumber (default : Float) (f : Float → Float) (args : List Value) : Value :=
  .ofFinite (f (numberArg args 0 default))

end Function

end Spreadsheet
