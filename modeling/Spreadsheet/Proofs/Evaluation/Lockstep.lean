import Spreadsheet.Proofs.Evaluation.Draws

/-!
# Evaluations in lockstep

How deep an evaluation goes inside one formula does not depend on the values of the cells. So where
a formula is evaluated once over formula cells and once over plain values, the second evaluation
goes no deeper than the first (`Evaluator.not_tooDeep_of_values`), unless the first has met a circle
or went too deep itself.
-/

namespace Spreadsheet

open Evaluation

section
variable {α β : Type}

/-- A computation that goes as another one does. From the same frame, it comes to the same end and
the same frame, if what the other comes to stays with its cell. -/
def Follows (act' act : Evaluation α) : Prop :=
  ∀ s s' : Session, s'.frame = s.frame → Contained (act.run s).1 →
    SameEnd (act.run s).1 (act'.run s').1 ∧ (act'.run s').2.frame = (act.run s).2.frame

/-! ## Parts of computations -/

/-- Results follow each other, whatever they are. -/
theorem Follows.pure (a a' : α) : Follows (pure a') (pure a) :=
  fun _ _ hf _ => ⟨rfl, hf⟩

/-- The same failures follow each other. -/
theorem Follows.throw (error : FormulaError) :
    Follows (throw error : Evaluation α) (throw error) :=
  fun _ _ hf _ => ⟨rfl, hf⟩

/-- Computations that follow others may go on with such. -/
theorem Follows.bind {act act' : Evaluation α} {f f' : α → Evaluation β} (h : Follows act' act)
    (hf : ∀ a a', Follows (f' a') (f a)) : Follows (act' >>= f') (act >>= f) := by
  intro s s' hframe hr
  rw [Evaluation.run_bind] at hr ⊢
  rw [Evaluation.run_bind]
  rcases h₁ : act.run s with ⟨error | a, s₁⟩
  · rw [h₁] at hr
    have hr : Contained (.error error : Except FormulaError α) := .error (hr error rfl)
    obtain ⟨hend, hframe₁⟩ := h s s' hframe (by rwa [h₁])
    rw [h₁] at hend hframe₁
    rcases h₂ : act'.run s' with ⟨error' | a', s₂⟩
    · rw [h₂] at hend hframe₁
      cases hend
      exact ⟨rfl, hframe₁⟩
    · rw [h₂] at hend
      cases hend
  · rw [h₁] at hr
    obtain ⟨hend, hframe₁⟩ := h s s' hframe (by rw [h₁]; exact .ok a)
    rw [h₁] at hend hframe₁
    rcases h₂ : act'.run s' with ⟨error' | a', s₂⟩
    · rw [h₂] at hend
      cases hend
    · rw [h₂] at hframe₁
      exact hf a a' s₁ s₂ hframe₁ hr

/-- A level more follows one. -/
theorem Follows.level {act act' : Evaluation α} (h : Follows act' act) (o : Options) :
    Follows (level o act') (level o act) := by
  intro s s' hframe hr
  rw [Evaluation.run_level] at hr ⊢
  rw [Evaluation.run_level, hframe]
  by_cases hl : s.frame.levels < o.maxRecursion
  · rw [if_pos hl] at hr ⊢
    rw [if_pos hl]
    refine ⟨(h _ _ ?_ hr).1, hframe⟩
    change ({ s'.frame with levels := s'.frame.levels + 1 } : Frame) = _
    rw [hframe]
  · rw [if_neg hl, if_neg hl]
    exact ⟨rfl, hframe⟩

/-! ## Values of expressions -/

variable {e : Evaluator} {lookUp lookUp' : Coord → Evaluation Value}

/-- A call follows the call of the same function with any arguments. -/
theorem Follows.call (f : Function) (args args' : List Value) :
    Follows (e.call f args') (e.call f args) :=
  fun _ _ hf _ => ⟨rfl, hf⟩

/-- Following passes through every construct of expressions. -/
theorem Follows.congruence : e.interpretation.Congruence e.interpretation (fun _ => True)
    (fun act act' => Follows act' act) fun act act' => Follows act' act where
  maxRangeCells := rfl
  number _ := .pure _ _
  text _ := .pure _ _
  fail error := .throw error
  operand hv := hv.bind fun _ _ => .pure _ _
  negate hv := hv.bind fun _ _ => .pure _ _
  operation _ _ _ _ _ hl hr := hl.bind fun _ _ => hr.bind fun _ _ => .pure _ _
  call _ _ hargs := hargs.bind fun _ _ => .call _ _ _
  deeper hv := hv.level _
  nil := .pure [] []
  cons hv hargs := hv.bind fun _ _ => hargs.bind fun _ _ => .pure _ _
  append hvs hargs := hvs.bind fun _ _ => hargs.bind fun _ _ => .pure _ _
  tooLarge error := .throw error

/-- The evaluations of an expression go alike if those of the cells do. -/
theorem Expr.value_follows (hread : ∀ c, Follows (lookUp' c) (lookUp c)) (onLeft : Bool)
    (x : Expr) : Follows (x.value e lookUp' onLeft) (x.value e lookUp onLeft) := by
  rw [Expr.value_eq_leveledValue, Expr.value_eq_leveledValue]
  exact Follows.congruence.value (fun c _ => hread c) onLeft x fun _ _ => trivial

/-- The evaluations of a formula go alike if those of the cells do. -/
theorem formulaValue_follows (hread : ∀ c, Follows (lookUp' c) (lookUp c)) (text : String) :
    Follows (formulaValue e lookUp' text) (formulaValue e lookUp text) := by
  intro s s' hframe
  rw [run_formulaValue, run_formulaValue, hframe]
  -- both read the formula with what is left of the same levels
  cases Expr.ofFormulaWithin e.options (e.options.maxRecursion - s.frame.levels) text with
  | error error => exact Follows.throw error s s' hframe
  | ok x =>
    exact (Expr.value_follows hread false x).bind (fun _ _ => Follows.pure _ _) s s' hframe

/-! ## Cells -/

variable {cells : Cells}

/-- A formula cell whose evaluation neither meets a circle nor goes too deep has a value. -/
theorem formulaCellValue_of_contained {c : Coord} {text : String} {s : Session}
    (hr : Contained ((formulaCellValue e lookUp c text).run s).1) :
    (∃ v, ((formulaCellValue e lookUp c text).run s).1 = .ok v) ∧
      ((formulaCellValue e lookUp c text).run s).2.frame = s.frame := by
  have hframe : ((cellLevel e.options c (formulaValue e lookUp text)).run s).2.frame = s.frame := by
    rw [Evaluation.run_cellLevel]
    split <;> rfl
  rw [run_formulaCellValue] at hr ⊢
  rcases hrun : (cellLevel e.options c (formulaValue e lookUp text)).run s with ⟨r, s₁⟩
  rw [hrun] at hr hframe
  dsimp only at hr hframe ⊢
  cases hres : Naive.cellResult r with
  | ok v => exact ⟨⟨v, rfl⟩, hframe⟩
  | error error =>
    rw [hres] at hr
    have hcycle := (Naive.cellResult_eq_error hres).2
    rw [hr error rfl] at hcycle
    cases hcycle

/-- A cell has a value if it does not wait and its formula, if it has one, comes to a value. -/
theorem cellValue_of_formula {formulaCell : Coord → String → Evaluation Value} {c : Coord}
    {s : Session} (hw : s.frame.waitsFor c = false)
    (hformula : ∀ text, cells c = .formula text → s.settled[c]? = none →
      (∃ v, ((formulaCell c text).run (s.lookedUp c)).1 = .ok v) ∧
        ((formulaCell c text).run (s.lookedUp c)).2.frame = s.frame) :
    (∃ v, ((cellValue cells formulaCell c).run s).1 = .ok v) ∧
      ((cellValue cells formulaCell c).run s).2.frame = s.frame := by
  rw [run_cellValue, hw]
  cases hs : s.settled[c]? with
  | some v => exact ⟨⟨v, rfl⟩, rfl⟩
  | none =>
    cases hc : cells c with
    | value v => exact ⟨⟨v, rfl⟩, rfl⟩
    | formula text => exact hformula text hc hs

/-- A cell whose evaluation neither meets a circle nor goes too deep has a value. -/
theorem cellValue_of_contained {formulaCell : Coord → String → Evaluation Value}
    (hformula : ∀ c text s, Contained ((formulaCell c text).run s).1 →
      (∃ v, ((formulaCell c text).run s).1 = .ok v) ∧
        ((formulaCell c text).run s).2.frame = s.frame)
    {c : Coord} {s : Session} (hr : Contained ((cellValue cells formulaCell c).run s).1) :
    s.frame.waitsFor c = false ∧ (∃ v, ((cellValue cells formulaCell c).run s).1 = .ok v) ∧
      ((cellValue cells formulaCell c).run s).2.frame = s.frame := by
  cases hw : s.frame.waitsFor c with
  | true =>
    rw [run_cellValue, if_pos hw] at hr
    cases hr _ rfl
  | false =>
    refine ⟨rfl, cellValue_of_formula hw fun text ht hs => hformula c text (s.lookedUp c) ?_⟩
    rw [run_cellValue, hw, hs, ht] at hr
    exact hr

/-- Reading a cell that holds a value goes as reading any cell does. -/
theorem resolve_follows {cells' : Cells} (hvalues : ∀ c, ∃ v, cells' c = .value v)
    (room : Nat) (c : Coord) : Follows (resolve e cells' room c) (resolve e cells room c) := by
  intro s s' hframe hr
  have h : s.frame.waitsFor c = false ∧ (∃ v, ((resolve e cells room c).run s).1 = .ok v) ∧
      ((resolve e cells room c).run s).2.frame = s.frame := by
    cases room with
    | zero =>
      refine cellValue_of_contained (fun c text s hr => ?_) hr
      cases hr _ rfl
    | succ room => exact cellValue_of_contained (fun _ _ _ => formulaCellValue_of_contained) hr
  have h' : (∃ v, ((resolve e cells' room c).run s').1 = .ok v) ∧
      ((resolve e cells' room c).run s').2.frame = s'.frame := by
    have hw : s'.frame.waitsFor c = false := by
      rw [hframe]
      exact h.1
    obtain ⟨v, hv⟩ := hvalues c
    cases room <;>
      exact cellValue_of_formula hw fun text ht => by
        rw [hv] at ht
        cases ht
  obtain ⟨-, ⟨v, hv⟩, hf⟩ := h
  obtain ⟨⟨v', hv'⟩, hf'⟩ := h'
  rw [hv, hv', hf, hf']
  exact ⟨rfl, hframe⟩

/-- **No deeper over values.** An evaluation over plain values is not too deep, if over some other
contents of the cells it comes to a result that is no circle and not too deep. -/
theorem Evaluator.not_tooDeep_of_values {e : Evaluator} {cells cells' : Cells}
    (hvalues : ∀ c, ∃ v, cells' c = .value v) {current : Option Coord} {text : String}
    (hr : Contained (e.tryEvaluate cells current text)) :
    ¬ TooDeep (e.tryEvaluate cells' current text) := by
  have h := (formulaValue_follows (resolve_follows hvalues e.options.maxDepth) text
    { frame := { current } } { frame := { current } } rfl hr).1
  rintro ⟨limit, hlimit⟩
  change SameEnd (e.tryEvaluate cells current text) (e.tryEvaluate cells' current text) at h
  rw [hlimit] at h
  cases hfirst : e.tryEvaluate cells current text with
  | ok v =>
    rw [hfirst] at h
    cases h
  | error error =>
    rw [hfirst] at h hr
    cases h
    cases hr _ rfl

end

end Spreadsheet
