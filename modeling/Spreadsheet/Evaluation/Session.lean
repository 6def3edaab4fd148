import Std.Data.ExtTreeMap
import Spreadsheet.Formula.Error
import Spreadsheet.Formula.Options
import Spreadsheet.Function.Basic

/-!
# Sessions

One evaluation is a session: it knows what is under way (`Frame`), the formula cells it has settled,
the cells it has looked up and how many random numbers it has drawn. What is under way is a stack:
`within` returns to the frame before, however the computation ends, while all else stays.
-/

namespace Spreadsheet

/-- What formulas are evaluated with. -/
structure Evaluator where
  options : Options := {}
  surroundings : Surroundings

namespace Evaluation

/-- What is under way at a moment of an evaluation. -/
structure Frame where
  /-- The cell that the formula belongs to, if it belongs to one. -/
  current : Option Coord
  /-- The formula cells under evaluation, the innermost first. -/
  chain : List Coord := []
  /-- The number of levels that are open: formula cells, calls, negations and chains of operands. -/
  levels : Nat := 0
  deriving Repr, DecidableEq

/-- Whether a cell waits for what is evaluated now, so that nothing may refer to it. -/
def Frame.waitsFor (f : Frame) (c : Coord) : Bool :=
  f.current == some c || f.chain.contains c

/-- The state of an evaluation. -/
structure Session where
  frame : Frame
  /-- The values of the formula cells that have been evaluated. -/
  settled : Std.ExtTreeMap Coord Value := ∅
  /-- The cells that have been looked up, the last first. -/
  lookups : List Coord := []
  /-- How many random numbers have been drawn. -/
  drawn : Nat := 0

end Evaluation

open Evaluation

/-- A computation in a session. It may fail; the session goes on either way. -/
abbrev Evaluation := ExceptT FormulaError (StateM Session)

namespace Evaluation

variable {α : Type}

/-- Goes on in another frame, and returns to the one before. -/
def within (enter : Frame → Frame) (act : Evaluation α) : Evaluation α :=
  ExceptT.mk fun s =>
    let outer := s.frame
    let (result, s) := act.run { s with frame := enter outer }
    (result, { s with frame := outer })

/-- Goes on one level deeper, if there is a level left. -/
def level (o : Options) (act : Evaluation α) : Evaluation α := do
  if (← get).frame.levels < o.maxRecursion then
    within (fun f => { f with levels := f.levels + 1 }) act
  else throw (.tooDeep o.maxRecursion)

/-- Goes on one level deeper, with a cell waiting for the result. -/
def cellLevel (o : Options) (c : Coord) (act : Evaluation α) : Evaluation α :=
  level o (within (fun f => { f with chain := c :: f.chain }) act)

/-- Records that a cell is looked up. -/
def recordLookup (c : Coord) : Evaluation Unit :=
  modify fun s => { s with lookups := c :: s.lookups }

/-- Settles the value of a formula cell. -/
def settle (c : Coord) (v : Value) : Evaluation Unit :=
  modify fun s => { s with settled := s.settled.insert c v }

end Evaluation

/-- Calls a function, which may draw the next random number. -/
def Evaluator.call (e : Evaluator) (f : Function) (args : List Value) : Evaluation Value := do
  let s ← get
  set { s with drawn := if f.draws then s.drawn + 1 else s.drawn }
  return f.result (e.surroundings.after s.frame.current s.drawn) args

end Spreadsheet
