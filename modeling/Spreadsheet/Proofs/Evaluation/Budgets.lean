import Spreadsheet.Proofs.Evaluation.Levels
import Spreadsheet.Proofs.Evaluation.Running
import Spreadsheet.Proofs.Formula.Failure

/-!
# Larger budgets

An evaluation that is not too deep goes in the same way with more formula cells and more levels
allowed (`Evaluator.tryEvaluate_withBudgets`). With more levels the formulas of cells may nest
deeper too, so this is a matter of how they are read as well (`Expr.ofFormulaWithin_withBudgets`).
`Outlasts` relates the two evaluations, session by session.
-/

namespace Spreadsheet

open Evaluation

/-- The same evaluator with other budgets. -/
def Evaluator.withBudgets (e : Evaluator) (maxDepth maxRecursion : Nat) : Evaluator :=
  { e with options := { e.options with maxDepth, maxRecursion } }

/-- Of the options only the grouping and the limit on nesting have a part in reading. -/
theorem Expr.ofFormula_congr {o o' : Options} (hgrouping : o'.grouping = o.grouping)
    (hnesting : o'.maxNesting = o.maxNesting) (text : String) :
    Expr.ofFormula o' text = Expr.ofFormula o text := by
  obtain ⟨_, _, _, _, _⟩ := o
  obtain ⟨_, _, _, _, _⟩ := o'
  cases hgrouping
  cases hnesting
  rw [Expr.ofFormula, Expr.ofFormula, Expr.ofTokens_eq, Expr.ofTokens_eq]
  rfl

/-- **More levels to read with.** A formula that can be read with the levels that are left is read
alike by an evaluator with other budgets, if this one has no fewer left. -/
theorem Expr.ofFormulaWithin_withBudgets {e : Evaluator} {left left' : Nat} {text : String}
    (hle : left ≤ left') (maxDepth maxRecursion : Nat)
    (h : ¬ TooDeep (Expr.ofFormulaWithin e.options left text)) :
    Expr.ofFormulaWithin (e.withBudgets maxDepth maxRecursion).options left' text =
      Expr.ofFormulaWithin e.options left text := by
  have hread : Expr.ofFormulaWithin e.options left text = Expr.ofFormula e.options text :=
    (Expr.ofFormulaWithin_eq ..).resolve_left fun hdeep => h ⟨_, hdeep⟩
  have hsame : Expr.ofFormula (e.withBudgets maxDepth maxRecursion).options text =
    Expr.ofFormula e.options text := Expr.ofFormula_congr (by rfl) (by rfl) text
  rw [hread, ← hsame]
  refine (Expr.ofFormulaWithin_eq ..).resolve_left fun hdeep => h ?_
  -- what cuts the second reading off cuts the first one off too
  obtain ⟨hlt, limit, hcut⟩ := Expr.tooDeep_ofFormulaWithin_iff.1 ⟨_, hdeep⟩
  refine Expr.tooDeep_ofFormulaWithin_iff.2 ⟨Nat.lt_of_le_of_lt hle hlt, ?_⟩
  rcases Expr.ofFormula_of_le e.options hle text with h | h
  · exact ⟨_, h⟩
  · have hsame' : Expr.ofFormula { e.options with maxNesting := left' } text =
        Expr.ofFormula { (e.withBudgets maxDepth maxRecursion).options with
          maxNesting := left' } text :=
      Expr.ofFormula_congr (by rfl) (by rfl) text
    exact ⟨limit, (h.symm.trans hsame').trans hcut⟩

/-! ## Evaluations that go as far -/

section
variable {α β : Type}

/-- A computation that goes at least as far as another one: where that one is not too deep, it does
the same. -/
def Outlasts (act' act : Evaluation α) : Prop :=
  ∀ s : Session, ¬ TooDeep (act.run s).1 → act'.run s = act.run s

/-- A computation outlasts itself. -/
theorem Outlasts.refl (act : Evaluation α) : Outlasts act act :=
  fun _ _ => rfl

/-- Computations that outlast others may follow each other. -/
theorem Outlasts.bind {act act' : Evaluation α} {f f' : α → Evaluation β} (h : Outlasts act' act)
    (hf : ∀ a, Outlasts (f' a) (f a)) : Outlasts (act' >>= f') (act >>= f) := by
  intro s hs
  rw [Evaluation.run_bind] at hs ⊢
  rw [Evaluation.run_bind]
  rcases hrun : act.run s with ⟨error | a, s₁⟩
  · rw [hrun] at hs
    have hdeep : ¬ TooDeep (act.run s).1 := by
      rw [hrun]
      rintro ⟨limit, ⟨⟩⟩
      exact hs ⟨limit, rfl⟩
    rw [h s hdeep, hrun]
  · rw [hrun] at hs
    have hdeep : ¬ TooDeep (act.run s).1 := by
      rw [hrun]
      rintro ⟨limit, ⟨⟩⟩
    rw [h s hdeep, hrun]
    exact hf a s₁ hs

/-- A level more outlasts one under a lower limit. -/
theorem Outlasts.level {act act' : Evaluation α} (h : Outlasts act' act) {o o' : Options}
    (hle : o.maxRecursion ≤ o'.maxRecursion) :
    Outlasts (level o' act') (level o act) := by
  intro s hs
  rw [Evaluation.run_level] at hs ⊢
  rw [Evaluation.run_level]
  by_cases hl : s.frame.levels < o.maxRecursion
  · rw [if_pos hl] at hs ⊢
    rw [if_pos (Nat.lt_of_lt_of_le hl hle), Evaluation.run_within, Evaluation.run_within, h _ hs]
  · rw [if_neg hl] at hs
    exact absurd ⟨_, rfl⟩ hs

end

section
variable {e : Evaluator} {cells : Cells} {maxDepth maxRecursion : Nat}
  {lookUp lookUp' : Coord → Evaluation Value}

/-- Outlasting passes through every construct of expressions, for a higher limit of levels. -/
theorem Outlasts.transported (hr : e.options.maxRecursion ≤ maxRecursion) :
    LevelTransported e.interpretation (e.withBudgets maxDepth maxRecursion).interpretation
      fun {α} (act act' : Evaluation α) => Outlasts act' act where
  maxRangeCells := rfl
  pure _ := .refl _
  throw _ := .refl _
  bind h hf := h.bind hf
  call _ _ := .refl _
  deeper h := h.level hr

/-- A formula outlasts itself under lower budgets if its cells do. -/
theorem formulaValue_outlasts (hr : e.options.maxRecursion ≤ maxRecursion)
    (hread : ∀ c, Outlasts (lookUp' c) (lookUp c)) (text : String) :
    Outlasts (formulaValue (e.withBudgets maxDepth maxRecursion) lookUp' text)
      (formulaValue e lookUp text) := by
  intro s hs
  rw [run_formulaValue] at hs ⊢
  rw [run_formulaValue]
  have hle : e.options.maxRecursion - s.frame.levels ≤ maxRecursion - s.frame.levels :=
    Nat.sub_le_sub_right hr _
  have hdeep : ¬ TooDeep (Expr.ofFormulaWithin e.options
      (e.options.maxRecursion - s.frame.levels) text) := by
    rintro ⟨limit, hlimit⟩
    rw [hlimit] at hs
    exact hs ⟨limit, rfl⟩
  have hreading : Expr.ofFormulaWithin (e.withBudgets maxDepth maxRecursion).options
      ((e.withBudgets maxDepth maxRecursion).options.maxRecursion - s.frame.levels) text = _ :=
    Expr.ofFormulaWithin_withBudgets hle maxDepth maxRecursion hdeep
  rw [hreading]
  have hvalue : ∀ x : Expr, Outlasts (x.value (e.withBudgets maxDepth maxRecursion) lookUp' false)
      (x.value e lookUp false) := by
    intro x
    rw [Expr.value_eq_leveledValue, Expr.value_eq_leveledValue]
    exact (Outlasts.transported hr).value hread false x
  exact (Outlasts.refl _).bind (fun x => (hvalue x).bind fun v => .refl _) s hs

/-- A level for a cell outlasts one under a lower limit. -/
theorem Outlasts.cellLevel {α : Type} {act act' : Evaluation α} (h : Outlasts act' act)
    {o o' : Options} (hle : o.maxRecursion ≤ o'.maxRecursion) (c : Coord) :
    Outlasts (cellLevel o' c act') (cellLevel o c act) := by
  refine Outlasts.level (fun s hs => ?_) hle
  rw [Evaluation.run_within] at hs ⊢
  rw [Evaluation.run_within, h _ hs]

/-- A formula cell keeps the failures of its formula to itself, but not that it is too deep. -/
theorem formulaCellValue_outlasts (hr : e.options.maxRecursion ≤ maxRecursion)
    (hread : ∀ c, Outlasts (lookUp' c) (lookUp c)) (c : Coord) (text : String) :
    Outlasts (formulaCellValue (e.withBudgets maxDepth maxRecursion) lookUp' c text)
      (formulaCellValue e lookUp c text) := by
  intro s hs
  have hr' : e.options.maxRecursion ≤ (e.withBudgets maxDepth maxRecursion).options.maxRecursion :=
    hr
  have hvalue : Outlasts (formulaValue (e.withBudgets maxDepth maxRecursion) lookUp' text)
      (formulaValue e lookUp text) := formulaValue_outlasts hr hread text
  have hlevel := hvalue.cellLevel hr' c s
  rw [run_formulaCellValue] at hs ⊢
  rw [run_formulaCellValue, hlevel]
  rintro ⟨limit, hlimit⟩
  rcases hrun : (Evaluation.cellLevel e.options c (formulaValue e lookUp text)).run s with ⟨r, s₁⟩
  rw [hrun] at hs hlimit
  cases hlimit
  exact hs ⟨limit, rfl⟩

/-- A cell outlasts another one if its formulas do. -/
theorem cellValue_outlasts {formulaCell formulaCell' : Coord → String → Evaluation Value}
    (hformula : ∀ c text, Outlasts (formulaCell' c text) (formulaCell c text)) (c : Coord) :
    Outlasts (cellValue cells formulaCell' c) (cellValue cells formulaCell c) := by
  intro s hs
  rw [run_cellValue] at hs ⊢
  rw [run_cellValue]
  split
  · rfl
  · next hw =>
    rw [if_neg hw] at hs
    cases hv : s.settled[c]? with
    | some v => rfl
    | none =>
      rw [hv] at hs
      cases ht : cells c with
      | value v => rfl
      | formula text =>
        rw [ht] at hs
        exact hformula c text _ hs

/-- With more levels and more room for formula cells a cell is read alike. -/
theorem resolve_outlasts (e : Evaluator) (cells : Cells) {maxRecursion : Nat} (maxDepth : Nat)
    (hr : e.options.maxRecursion ≤ maxRecursion) {room room' : Nat} (hroom : room ≤ room')
    (c : Coord) :
    Outlasts (resolve (e.withBudgets maxDepth maxRecursion) cells room' c)
      (resolve e cells room c) := by
  induction room generalizing room' c with
  | zero =>
    -- without room a formula cell is too deep
    cases room' with
    | zero | succ =>
      refine cellValue_outlasts (fun c text s hs => ?_) c
      exact absurd ⟨_, rfl⟩ hs
  | succ room ih =>
    obtain ⟨room', rfl⟩ : ∃ n, room' = n + 1 := ⟨room' - 1, by omega⟩
    exact cellValue_outlasts
      (formulaCellValue_outlasts hr fun c => ih (Nat.le_of_succ_le_succ hroom) c) c

end

/-- **Budgets are monotone.** An evaluation that is not too deep comes to the same value or the same
error with any larger budgets. -/
theorem Evaluator.tryEvaluate_withBudgets (e : Evaluator) (cells : Cells) (current : Option Coord)
    (text : String) {maxDepth maxRecursion : Nat} (hd : e.options.maxDepth ≤ maxDepth)
    (hr : e.options.maxRecursion ≤ maxRecursion)
    (h : ¬ TooDeep (e.tryEvaluate cells current text)) :
    (e.withBudgets maxDepth maxRecursion).tryEvaluate cells current text =
      e.tryEvaluate cells current text :=
  congrArg Prod.fst (formulaValue_outlasts hr
    (resolve_outlasts e cells maxDepth hr hd) text { frame := { current } } h)

/-- A formula that refers to one which nests too deep however many levels are left. -/
theorem Evaluator.tryEvaluate_withBudgets_nested :
    let e : Evaluator :=
      { options := { maxDepth := 1, maxNesting := 2, maxRecursion := 4 }, surroundings := ⟨0, 0⟩ }
    let cells : Cells := fun c => if c = ⟨0, 1⟩ then .formula "=(((1)))" else .value .blank
    let text := "=B1&\"\""
    ¬ TooDeep (e.tryEvaluate cells (some ⟨0, 0⟩) text) ∧
      e.evaluate cells (some ⟨0, 0⟩) text = .text "#ERROR!" ∧
      (e.withBudgets 3 9).tryEvaluate cells (some ⟨0, 0⟩) text =
        e.tryEvaluate cells (some ⟨0, 0⟩) text := by
  intro e cells text
  have h : ¬ TooDeep (e.tryEvaluate cells (some ⟨0, 0⟩) text) := by decide +kernel
  exact ⟨h, by decide +kernel, e.tryEvaluate_withBudgets cells _ _ (by decide) (by decide) h⟩

end Spreadsheet
