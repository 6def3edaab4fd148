import Spreadsheet.Function.Aggregate
import Spreadsheet.Function.Dates
import Spreadsheet.Function.Logic
import Spreadsheet.Function.Numeric
import Spreadsheet.Function.Wording

/-!
# The catalogue of functions

All functions that a formula can call, looked up by name in either case of letters.
-/

namespace Spreadsheet.Function

/-- All functions. -/
def all : List Function :=
  aggregates ++ numerics ++ logics ++ wordings ++ dates

/-- The function of a name. -/
def find? (name : String) : Option Function :=
  let upper := Text.upper name
  all.find? (·.name == upper)

/-- Names in alphabetical order. -/
def inOrder (names : List String) : List String :=
  names.mergeSort fun a b => !decide (b < a)

/-- The names of all functions in alphabetical order. -/
def names : List String :=
  inOrder (all.map (·.name))

/-- The names of the functions of a category in alphabetical order. -/
def namesIn (category : Category) : List String :=
  inOrder ((all.filter (·.category == category)).map (·.name))

end Spreadsheet.Function
