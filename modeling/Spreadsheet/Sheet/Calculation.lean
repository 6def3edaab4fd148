import Spreadsheet.Evaluation.Evaluator
import Spreadsheet.Sheet.Basic

/-!
# Calculation

Formulas of a sheet are evaluated over its own contents, each as the formula of its cell. They never
look at what formula cells display, so a calculation computes every result before it displays any.
Input that is committed is evaluated at once; cells that depend on it are not computed anew.
-/

namespace Spreadsheet

/-- What came of the formulas of a calculation. -/
structure Statistics where
  /-- The number of formulas. -/
  formulas : Nat := 0
  /-- How many failed. -/
  errors : Nat := 0
  /-- How many called an unknown function. -/
  unknown : Nat := 0
  /-- How many refer to themselves, or go too deep. -/
  cycles : Nat := 0
  deriving Repr, DecidableEq

namespace Statistics

/-- Counts one more result. -/
def record (st : Statistics) (v : Value) : Statistics :=
  let st := { st with formulas := st.formulas + 1 }
  match Sentinel.ofValue? v with
  | some .error => { st with errors := st.errors + 1 }
  | some .name => { st with unknown := st.unknown + 1 }
  | some .cycle => { st with cycles := st.cycles + 1 }
  | none => st

/-- The statistics of some results. -/
def ofValues (vs : List Value) : Statistics :=
  vs.foldl record {}

end Statistics

namespace Sheet

/-- What a formula comes to over a sheet, as the formula of a cell or on its own. -/
def evaluate (s : Sheet) (e : Evaluator) (current : Option Coord) (text : String) : Value :=
  e.evaluate s.contents current text

/-- What the formula of a cell comes to, if it has one. -/
def evaluateCell? (s : Sheet) (e : Evaluator) (c : Coord) : Option Value :=
  (s.formula? c).map (s.evaluate e (some c))

/-- Gives a cell what is typed into it: a formula is evaluated and its result displayed. Returns
what the cell displays. -/
def commit (s : Sheet) (e : Evaluator) (c : Coord) (raw : String) : Value × Sheet :=
  if Value.isFormulaText raw then
    let v := s.evaluate e (some c) raw
    (v, (s.setInput c raw).display c v)
  else
    let s := s.setInput c raw
    (s.value c, s)

/-- Gives the cell at an address what is typed into it. -/
def commitAt (s : Sheet) (e : Evaluator) (address raw : String) :
    Except GridError (Value × Sheet) :=
  return s.commit e (← Coord.parse address) raw

/-- What the formulas come to, cell by cell. -/
def results (s : Sheet) (e : Evaluator) : List (Coord × Value) :=
  s.formulas.toList.map fun (c, text) => (c, s.evaluate e (some c) text)

/-- Evaluates every formula and displays the results. -/
def calculate (s : Sheet) (e : Evaluator) : Statistics × Sheet :=
  let results := s.results e
  (.ofValues (results.map (·.2)), results.foldl (fun s (c, v) => s.display c v) s)

end Sheet

end Spreadsheet
