import Spreadsheet.Evaluation.Evaluator
import Spreadsheet.Proofs.Formula.ListedArguments

/-!
# Ranges as arguments

An expression and the same one with its ranges written out are evaluated alike
(`Expr.value_writtenOut`): the same cells are resolved in the same order, with the same values to
the same result, and whatever the session is. So a range as an argument means the list of its cells
(`Evaluator.range_argument`), in an expression as well as in the text of a formula.
-/

namespace Spreadsheet

open Evaluation Token

section
variable {e : Evaluator} {resolve : Coord → Evaluation Value}

/-! ## Arguments -/

theorem Expr.arguments_append (args args' : List Expr) :
    Expr.arguments e resolve (args ++ args') = (do
      return (← Expr.arguments e resolve args) ++ (← Expr.arguments e resolve args')) := by
  induction args with
  | nil => simp [arguments]
  | cons x args ih =>
    cases x with
    | range r =>
      simp only [List.cons_append, arguments, ih, bind_assoc, pure_bind, List.append_assoc]
    | number | text | bare | cell | binary | negate | call => simp [arguments, ih]

/-- Cells as arguments are resolved one after the other. -/
theorem Expr.arguments_cells (cs : List Coord) :
    Expr.arguments e resolve (cs.map .cell) = cs.mapM resolve := by
  induction cs with
  | nil => rfl
  | cons c cs ih => rw [List.map_cons, arguments, ih, List.mapM_cons]

/-- A range as an argument, and what it is written out to. -/
theorem Range.arguments_arguments (r : Range) :
    Expr.arguments e resolve (r.arguments e.options.maxRangeCells) =
      r.values e.options resolve := by
  unfold arguments values
  split
  · next h => rw [Expr.arguments_cells, if_neg (Nat.not_lt.2 h), r.cells_eq_rowByRow]
  · next h => simp [Expr.arguments, values, Nat.lt_of_not_le h]

mutual

/-- **Writing ranges out changes no value**, and nothing that happens on the way to it. -/
theorem Expr.value_writtenOut : (onLeft : Bool) → (x : Expr) →
    (x.writtenOut e.options.maxRangeCells).value e resolve onLeft = x.value e resolve onLeft
  | _, .number _ | _, .text _ | _, .bare _ | _, .cell _ | _, .range _ => rfl
  | _, .binary op l r => by
    simp only [writtenOut, value, Expr.value_writtenOut true l, Expr.value_writtenOut false r]
  | _, .negate x => by simp only [writtenOut, value, Expr.value_writtenOut false x]
  | _, .call name args => by
    simp only [writtenOut, value, Expr.arguments_writtenOut args]

/-- The values of arguments that are written out are those of the arguments. -/
theorem Expr.arguments_writtenOut : (args : List Expr) →
    Expr.arguments e resolve (Expr.argumentsWrittenOut e.options.maxRangeCells args) =
      Expr.arguments e resolve args
  | [] => rfl
  | x :: args => by
    have hx := Expr.value_writtenOut false x
    have hargs := Expr.arguments_writtenOut args
    cases x with
    | range r =>
      rw [argumentsWrittenOut, arguments_append, r.arguments_arguments, hargs, arguments]
    | number | text | bare | cell =>
      simp only [argumentsWrittenOut, writtenOut, arguments, hargs]
    | binary | negate | call =>
      rw [writtenOut] at hx
      simp only [argumentsWrittenOut, writtenOut, arguments, hx, hargs]

end

/-- **A range argument means the list of its cells.** A call is evaluated to the same result, with
the same lookups in the same order, when the cells of a range take its place among the arguments. -/
theorem Expr.value_call_range (onLeft : Bool) (name : String) (before after : List Expr) {r : Range}
    (h : r.count ≤ e.options.maxRangeCells) :
    (Expr.call name (before ++ .range r :: after)).value e resolve onLeft =
      (Expr.call name (before ++ (r.rowByRow.map .cell ++ after))).value e resolve onLeft := by
  rw [← value_writtenOut, ← value_writtenOut _ (.call name (before ++ (_ ++ after)))]
  have hrange : Expr.argumentsWrittenOut e.options.maxRangeCells (.range r :: after) =
      Expr.argumentsWrittenOut e.options.maxRangeCells (r.rowByRow.map .cell ++ after) := by
    rw [argumentsWrittenOut, Range.arguments, if_pos h, argumentsWrittenOut_append,
      argumentsWrittenOut_cells]
  rw [writtenOut, writtenOut, argumentsWrittenOut_append, argumentsWrittenOut_append _ (_ ++ after),
    hrange]

/-! ## Texts -/

/-- Formulas that are read to the same, once it is written out, have the same value. -/
theorem formulaValue_writtenOut {text text' : String}
    (h : ∀ o, (Expr.ofFormula o text).map (Expr.writtenOut e.options.maxRangeCells) =
      (Expr.ofFormula o text').map (Expr.writtenOut e.options.maxRangeCells)) :
    formulaValue e resolve text = formulaValue e resolve text' := by
  have hwithin : ∀ left, (Expr.ofFormulaWithin e.options left text).map
      (Expr.writtenOut e.options.maxRangeCells) = (Expr.ofFormulaWithin e.options left text').map
        (Expr.writtenOut e.options.maxRangeCells) := by
    intro left
    unfold Expr.ofFormulaWithin
    split
    · have hcomm : ∀ (f : FormulaError → FormulaError) (g : Expr → Expr)
          (reading : Except FormulaError Expr),
          (reading.mapError f).map g = (reading.map g).mapError f := by
        rintro f g (error | x) <;> rfl
      rw [hcomm, hcomm, h]
    · exact h e.options
  have hvalue : ∀ reading : Except FormulaError Expr,
      (do let x ← liftExcept reading; return (← x.value e resolve false).displayed :
        Evaluation Value) = do
          let x ← liftExcept (reading.map (Expr.writtenOut e.options.maxRangeCells))
          return (← x.value e resolve false).displayed := by
    rintro (error | x)
    · rfl
    · change (x.value e resolve false >>= _) = (x.writtenOut _).value e resolve false >>= _
      rw [x.value_writtenOut]
  unfold formulaValue
  refine bind_congr fun s => ?_
  rw [hvalue, hwithin, ← hvalue]

end

/-- **A range as an argument means the list of its cells.** A call with a range among its arguments
and the call with the cells of the range instead, row by row, are evaluated to the same result with
the same lookups in the same order, in whatever session and however cells are resolved. So are the
formulas that have them, whichever two opposite corners the range is written from, and however its
cells are spelled. -/
theorem Evaluator.range_argument (e : Evaluator) :
    (∀ (resolve : Coord → Evaluation Value) (onLeft : Bool) (name : String)
      (before after : List Expr) (r : Range), r.count ≤ e.options.maxRangeCells →
        (Expr.call name (before ++ .range r :: after)).value e resolve onLeft =
          (Expr.call name (before ++ (r.rowByRow.map .cell ++ after))).value e resolve onLeft) ∧
    ∀ (cells : Cells) (current : Option Coord) (text text' v w : String) (a b : Coord)
      (ws : List String) (before after : List Token),
      Coord.ofWord? v = some a → Coord.ofWord? w = some b →
      ws.map Coord.ofWord? = (Range.ofCorners a b).rowByRow.map some →
      (Range.ofCorners a b).count ≤ e.options.maxRangeCells →
      BeginsArgument before → EndsArgument after →
      tokenize (formulaBody text) = before ++ ([word v, mark ":", word w] ++ after) →
      tokenize (formulaBody text') = before ++ (listed ws ++ after) →
        e.outcome cells current text = e.outcome cells current text' := by
  refine ⟨fun _ onLeft name before after _ h =>
    Expr.value_call_range onLeft name before after h, ?_⟩
  intro cells current text text' v w a b ws before after hv hw hws hcount hbefore hafter htext
    htext'
  have hread : ∀ o, (Expr.ofFormula o text).map (Expr.writtenOut e.options.maxRangeCells) =
      (Expr.ofFormula o text').map (Expr.writtenOut e.options.maxRangeCells) := by
    intro o
    rw [Expr.ofFormula, Expr.ofFormula, htext, htext']
    exact Expr.ofTokens_range hbefore hafter hv hw hws hcount
  rw [outcome, session, formulaValue_writtenOut hread]
  rfl

/-- A range written from its upper right corner, between two other arguments. One of its cells has a
formula that refers to another one. -/
theorem Evaluator.range_argument_corners :
    let e : Evaluator := { surroundings := ⟨0, 0⟩ }
    let cells : Cells := fun c => if c = ⟨0, 0⟩ then .formula "=B2" else .value .blank
    let ranged := e.outcome cells (some ⟨8, 8⟩) "=COUNTA(1, b1:A02, C3)"
    ranged = e.outcome cells (some ⟨8, 8⟩) "=COUNTA(1, A1,b1,a2,B2, C3)" ∧
      ranged.lookups = [⟨0, 0⟩, ⟨1, 1⟩, ⟨0, 1⟩, ⟨1, 0⟩, ⟨1, 1⟩, ⟨2, 2⟩] := by
  intro e cells ranged
  obtain ⟨-, htexts⟩ := e.range_argument
  refine ⟨?_, by decide +kernel⟩
  refine htexts cells _ _ _ "b1" "A02" ⟨0, 1⟩ ⟨1, 0⟩ ["A1", "b1", "a2", "B2"]
    [word "COUNTA", mark "(", word "1", mark ","] [mark ",", word "C3", mark ")"] ?_ ?_ ?_ ?_
    ⟨[word "COUNTA", mark "(", word "1"], .inl rfl⟩ ?_ ?_ ?_
  · decide +kernel
  · decide +kernel
  · decide +kernel
  · decide
  · rintro t ⟨⟩
    exact .inl rfl
  · decide +kernel
  · decide +kernel

end Spreadsheet
