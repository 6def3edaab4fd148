import Spreadsheet.Proofs.Formula.References
import Spreadsheet.Proofs.Grid.Walk

/-!
# Writing ranges out

A range among the arguments of a call may be written out: its cells take its place, one argument
each, row by row. `Expr.writtenOut` writes out all ranges that have no more than so many cells.
Reading goes along with this, for it looks no further at the operands of chains and the arguments of
calls than negation does. So readers that keep the same once it is written out read expressions that
are the same once they are written out (`Reader.Compared.read_writtenOut`).
-/

namespace Spreadsheet

open Token

/-! ## Expressions -/

section
variable (m : Nat)

/-- The arguments that a range is written out to, if it has no more than so many cells. -/
def Range.arguments (r : Range) : List Expr :=
  if r.count ≤ m then r.rowByRow.map .cell else [.range r]

mutual

/-- An expression with the ranges among the arguments of its calls written out. -/
def Expr.writtenOut : Expr → Expr
  | .number n => .number n
  | .text s => .text s
  | .bare s => .bare s
  | .cell c => .cell c
  | .range r => .range r
  | .binary op l r => .binary op l.writtenOut r.writtenOut
  | .negate x => .negate x.writtenOut
  | .call name args => .call name (Expr.argumentsWrittenOut args)

/-- Arguments with the ranges among them, and inside of them, written out. -/
def Expr.argumentsWrittenOut : List Expr → List Expr
  | [] => []
  | .range r :: args => r.arguments m ++ Expr.argumentsWrittenOut args
  | x :: args => x.writtenOut :: Expr.argumentsWrittenOut args

end

end

section
variable {m : Nat} {x : Expr}

/-- Arguments in two parts are written out part by part. -/
theorem Expr.argumentsWrittenOut_append (args args' : List Expr) :
    Expr.argumentsWrittenOut m (args ++ args') =
      Expr.argumentsWrittenOut m args ++ Expr.argumentsWrittenOut m args' := by
  induction args with
  | nil => rfl
  | cons x args ih =>
    cases x with
    | range r => simp [argumentsWrittenOut, ih]
    | number | text | bare | cell | binary | negate | call => simp [argumentsWrittenOut, ih]

/-- Cells are written out already. -/
theorem Expr.argumentsWrittenOut_cells (cs : List Coord) :
    Expr.argumentsWrittenOut m (cs.map .cell) = cs.map .cell := by
  induction cs with
  | nil => rfl
  | cons c cs ih => simp [argumentsWrittenOut, writtenOut, ih]

/-- A range that is not too large is written out to its cells. -/
theorem Expr.argumentsWrittenOut_range {r : Range} (h : r.count ≤ m) :
    Expr.argumentsWrittenOut m [.range r] = r.rowByRow.map .cell := by
  rw [argumentsWrittenOut, argumentsWrittenOut, Range.arguments, if_pos h, List.append_nil]

/-- A negation is written out inside. -/
theorem Expr.writtenOut_negated : x.negated.writtenOut m = (x.writtenOut m).negated := by
  cases x <;> rfl

/-- What a range is written out to is written out already. -/
theorem Range.argumentsWrittenOut_arguments (r : Range) :
    Expr.argumentsWrittenOut m (r.arguments m) = r.arguments m := by
  by_cases h : r.count ≤ m
  · rw [arguments, if_pos h, Expr.argumentsWrittenOut_cells]
  · rw [arguments, if_neg h, Expr.argumentsWrittenOut, arguments, if_neg h]
    rfl

mutual

/-- What is written out has no range left to be written out. -/
theorem Expr.writtenOut_writtenOut :
    (x : Expr) → (x.writtenOut m).writtenOut m = x.writtenOut m
  | .number _ | .text _ | .bare _ | .cell _ | .range _ => rfl
  | .binary op l r => by
    simp only [writtenOut, l.writtenOut_writtenOut, r.writtenOut_writtenOut]
  | .negate x => by simp only [writtenOut, x.writtenOut_writtenOut]
  | .call name args => by simp only [writtenOut, Expr.argumentsWrittenOut_writtenOut args]

/-- Arguments that are written out have no range left to be written out. -/
theorem Expr.argumentsWrittenOut_writtenOut : (args : List Expr) →
    Expr.argumentsWrittenOut m (Expr.argumentsWrittenOut m args) =
      Expr.argumentsWrittenOut m args
  | [] => rfl
  | x :: args => by
    have hx := x.writtenOut_writtenOut
    have hargs := Expr.argumentsWrittenOut_writtenOut args
    cases x with
    | range r =>
      rw [argumentsWrittenOut, argumentsWrittenOut_append, hargs, r.argumentsWrittenOut_arguments]
    | number | text | bare | cell | binary | negate | call =>
      exact congrArg₂ List.cons hx hargs

end

/-- An argument alone may be written out before. -/
theorem Expr.argumentsWrittenOut_singleton (x : Expr) :
    Expr.argumentsWrittenOut m [x.writtenOut m] = Expr.argumentsWrittenOut m [x] := by
  have hx := x.writtenOut_writtenOut (m := m)
  cases x with
  | range r => rfl
  | number | text | bare | cell | binary | negate | call =>
    exact congrArg (fun y => [y]) hx

end

/-! ## Reading -/

/-- Being the same once everything is written out. -/
def Likeness.writtenOut (m : Nat) : Likeness where
  Alike x y := x.writtenOut m = y.writtenOut m
  Args args args' := Expr.argumentsWrittenOut m args.reverse =
    Expr.argumentsWrittenOut m args'.reverse
  word _ := rfl
  text _ := rfl
  range _ := rfl
  negated h := by rw [Expr.writtenOut_negated, h, Expr.writtenOut_negated]
  nil := rfl
  cons := by
    intro x y args args' hx h
    have hlast : Expr.argumentsWrittenOut m [x] = Expr.argumentsWrittenOut m [y] := by
      rw [← Expr.argumentsWrittenOut_singleton, hx, Expr.argumentsWrittenOut_singleton]
    rw [List.reverse_cons, List.reverse_cons, Expr.argumentsWrittenOut_append, h, hlast,
      Expr.argumentsWrittenOut_append]
  call name _ _ h := congrArg (Expr.call name) h

/-- **Reading goes along with writing out.** Readers that keep the same once it is written out read
expressions of which this is true as well, or fail with the same error. -/
theorem Reader.Compared.read_writtenOut {o : Options} {m : Nat} {r r' : Reader}
    (h : r.Compared (.writtenOut m) (Level.Paired (.writtenOut m)) r') (ts : List Token) :
    (r.read o ts).map (Expr.writtenOut m) = (r'.read o ts).map (Expr.writtenOut m) := by
  have hbinary (op : Operator) {x x' y y' : Expr} (hx : x.writtenOut m = x'.writtenOut m)
      (hy : y.writtenOut m = y'.writtenOut m) :
      (Expr.binary op x y).writtenOut m = (Expr.binary op x' y').writtenOut m := by
    rw [Expr.writtenOut, hx, hy, Expr.writtenOut]
  have hread := h.read_of_together ((Likeness.writtenOut m).paired_together o hbinary) ts
  generalize r.read o ts = result at hread ⊢
  generalize r'.read o ts = result' at hread ⊢
  cases hread with
  | ok hx => exact congrArg Except.ok hx
  | error error => rfl

end Spreadsheet
