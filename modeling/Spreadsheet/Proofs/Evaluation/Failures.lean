import Spreadsheet.Proofs.Evaluation.Agreement

/-!
# Failures that the text decides

A formula that meets no circle and does not go too deep ends as its text says (`formulaEnding`): it
has a result, or the one failure that its own words lead to. What the cells hold, which of them fail
and to which cell the formula belongs have no say in it (`Evaluator.failures_static`), because what
fails in a cell stays there.
-/

namespace Spreadsheet

open Evaluation

/-- What becomes of a formula when all cells have values: it cannot be read, or its expression
fails by itself, or it has a result. -/
def formulaEnding (o : Options) (text : String) : Except FormulaError Unit := do
  Step.ending ((← Expr.ofFormula o text).steps o)

namespace Naive

variable {e : Evaluator} {read : Coord → Naive Value} {text : String}
  {r : Except FormulaError Value}

/-- A formula that ends with the error of no cell ends as its text says. -/
theorem formula_ending
    (hread : ∀ c error, (read c).run = some (.error error) → error.isCycle = true)
    (h : (formula e read text).run = some r) (hr : Contained r) :
    r.map (fun _ => ()) = formulaEnding e.options text := by
  unfold formulaEnding
  cases hx : Expr.ofFormula e.options text with
  | error error =>
    rw [formula_of_error hx] at h
    cases h
    rfl
  | ok x =>
    rw [formula_of_ok hx] at h
    change _ = Step.ending (x.steps e.options)
    rcases bind_eq_some h with ⟨error, hs, rfl⟩ | ⟨_, hs, h⟩
    · rcases Step.run_eq_some hs with ⟨c, _, error', hc, ⟨⟩⟩ | ⟨_, hend⟩
      · -- the error of a cell is a circle
        have hcycle := hread c error hc
        rw [hr error rfl] at hcycle
        cases hcycle
      · exact hend
    · rcases Step.run_eq_some hs with ⟨_, _, _, _, ⟨⟩⟩ | ⟨_, hend⟩
      cases h
      exact hend

end Naive

/-- An evaluation that meets no circle and is not too deep ends as the text of its formula says. -/
theorem Evaluator.ending_tryEvaluate {e : Evaluator} {cells : Cells} {current : Option Coord}
    {text : String} (h : Contained (e.tryEvaluate cells current text)) :
    (e.tryEvaluate cells current text).map (fun _ => ()) = formulaEnding e.options text := by
  have hdeep : ¬ TooDeep (e.tryEvaluate cells current text) := by
    rintro ⟨limit, hlimit⟩
    cases h _ hlimit
  obtain ⟨r, ⟨n, hn⟩, hend⟩ := e.yields_sameEnd cells current text hdeep
  rw [hend]
  refine Naive.formula_ending (fun c error hc => ?_) (hn n (Nat.le_refl n)) (hend.contained_iff.1 h)
  obtain ⟨d, rfl⟩ := Naive.cell_error hc
  rfl

/-- **Failures are in the text.** Two evaluations of a formula with the same options, over any
contents of the cells and for any cells, both have a result or both fail with the same error, if
none of them meets a circle or is too deep. Which it is, the text and the options tell. -/
theorem Evaluator.failures_static (e e' : Evaluator) (cells cells' : Cells)
    (current current' : Option Coord) (text : String) (ho : e.options = e'.options)
    (h : Contained (e.tryEvaluate cells current text))
    (h' : Contained (e'.tryEvaluate cells' current' text)) :
    (∃ v v', e.tryEvaluate cells current text = .ok v ∧
        e'.tryEvaluate cells' current' text = .ok v' ∧ formulaEnding e.options text = .ok ()) ∨
      ∃ error, e.tryEvaluate cells current text = .error error ∧
        e'.tryEvaluate cells' current' text = .error error ∧
        formulaEnding e.options text = .error error := by
  have hend := ending_tryEvaluate h
  have hend' := ending_tryEvaluate h'
  rw [← ho] at hend'
  cases hr : e.tryEvaluate cells current text with
  | ok v =>
    rw [hr] at hend
    cases hr' : e'.tryEvaluate cells' current' text with
    | ok v' => exact .inl ⟨v, v', rfl, rfl, hend.symm⟩
    | error error' =>
      rw [hr', ← hend] at hend'
      cases hend'
  | error error =>
    rw [hr] at hend
    cases hr' : e'.tryEvaluate cells' current' text with
    | ok v' =>
      rw [hr', ← hend] at hend'
      cases hend'
    | error error' =>
      rw [hr', ← hend] at hend'
      cases hend'
      exact .inr ⟨error, rfl, rfl, hend.symm⟩

/-- A range too large, after a cell that holds a number here and fails there, at another time. -/
theorem Evaluator.failures_static_range :
    let e : Evaluator := { options := { maxRangeCells := 3 }, surroundings := ⟨0, 0⟩ }
    let e' : Evaluator := { e with surroundings := ⟨86400000, 0⟩ }
    let cells : Cells := fun _ => .value (.number 1)
    let cells' : Cells := fun c => if c = ⟨0, 1⟩ then .formula "=C1:C2" else .value .blank
    let text := "=B1+SUM(A1:B2)"
    e.options = e'.options ∧ Contained (e.tryEvaluate cells none text) ∧
      Contained (e'.tryEvaluate cells' (some ⟨5, 5⟩) text) ∧
      ∃ error, e.tryEvaluate cells none text = .error error ∧
        e'.tryEvaluate cells' (some ⟨5, 5⟩) text = .error error ∧
        formulaEnding e.options text = .error error := by
  intro e e' cells cells' text
  have h : Contained (e.tryEvaluate cells none text) :=
    contained_of_not (by decide +kernel) (by decide +kernel)
  have h' : Contained (e'.tryEvaluate cells' (some ⟨5, 5⟩) text) :=
    contained_of_not (by decide +kernel) (by decide +kernel)
  have hfails : (e.tryEvaluate cells none text).isOk = false := by decide +kernel
  refine ⟨rfl, h, h', ?_⟩
  rcases e.failures_static e' cells cells' none (some ⟨5, 5⟩) text rfl h h' with
    ⟨v, _, hv, _⟩ | hfailed
  · rw [hv] at hfails
    cases hfails
  · exact hfailed

end Spreadsheet
