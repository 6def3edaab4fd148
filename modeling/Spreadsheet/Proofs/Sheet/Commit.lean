import Spreadsheet.Proofs.Evaluation.Rounds
import Spreadsheet.Sheet.Calculation

/-!
# Committing a formula

A formula that is committed is evaluated before its cell gets it, over what the cell holds until
then. This makes no difference (`Sheet.commit_formula`), because the evaluation of a formula never
looks at the cell it belongs to: a reference back to this cell is a circle, on whatever way it is
met. So contents that differ in that cell alone lead to the same result
(`Evaluator.tryEvaluate_of_agreeOff`).
-/

namespace Spreadsheet

open Evaluation

/-! ## What an evaluation does not look at -/

/-- Contents that differ in one cell at most. -/
def Cells.AgreeOff (c : Coord) (cells cells' : Cells) : Prop :=
  ∀ a, a ≠ c → cells a = cells' a

section
variable {e : Evaluator} {cells cells' : Cells} {c : Coord}

/-- One round of a call does not look at the current cell. -/
theorem Call.run_round_of_agreeOff (h : Cells.AgreeOff c cells cells')
    (self : Call → Evaluation Value) (call : Call) {s : Session}
    (hs : s.frame.current = some c) :
    (call.round e cells self).run s = (call.round e cells' self).run s := by
  cases call with
  | formula text => rfl
  | value onLeft x => cases x <;> rfl
  | cell d =>
    change (cellValue cells _ d).run s = (cellValue cells' _ d).run s
    rw [run_cellValue, run_cellValue]
    by_cases hd : d = c
    · -- the current cell waits, whatever it holds
      have hw : s.frame.waitsFor d = true := by
        rw [Frame.waitsFor_iff, Frame.waiting, hs, hd]
        simp
      rw [if_pos hw, if_pos hw]
    · rw [h d hd]

/-- The formula stays the one of its cell in all calls below. -/
theorem Descends.current_eq {a b : Call} {f g : Frame} (h : Descends e cells (a, f) (b, g)) :
    g.current = f.current := by
  cases h <;> rfl

/-- A call comes to the same over contents that differ in the current cell alone. -/
theorem Call.evaluate_of_agreeOff (h : Cells.AgreeOff c cells cells') (call : Call) {f : Frame}
    (hf : f.current = some c) : SameIn f (call.evaluate e cells') (call.evaluate e cells) := by
  have hall : ∀ a : Call × Frame, a.2.current = some c →
      SameIn a.2 (a.1.evaluate e cells') (a.1.evaluate e cells) := by
    intro a
    induction a using (Descends.wellFounded e cells).induction with
    | h a ih =>
      intro ha
      have hcells : SameIn a.2 (a.1.evaluate e cells')
          (a.1.round e cells (Call.evaluate e cells')) := by
        intro s hs
        have hround := Call.run_round_of_agreeOff (e := e) h (Call.evaluate e cells') a.1
          (hs ▸ ha : s.frame.current = some c)
        rw [hround, Call.round_evaluate]
        exact ⟨rfl, (Call.evaluate_keeps e cells' a.1 s).frame.trans hs⟩
      exact hcells.trans (Call.round_sameIn a.1 fun b g hb =>
        ih (b, g) hb (hb.current_eq.trans ha))
  exact hall (call, f) hf

/-- **An evaluation never looks at its own cell.** Contents that differ in the current cell alone
lead to the same result. -/
theorem Evaluator.tryEvaluate_of_agreeOff (e : Evaluator) (h : Cells.AgreeOff c cells cells')
    (text : String) :
    e.tryEvaluate cells (some c) text = e.tryEvaluate cells' (some c) text := by
  have hsame := Call.evaluate_of_agreeOff (e := e) h (.formula text)
    (f := { current := some c }) rfl
  have hrun := (hsame { frame := { current := some c } } rfl).1
  exact congrArg Prod.fst hrun.symm

end

/-! ## What a commitment leaves -/

namespace Sheet

variable (s : Sheet) (e : Evaluator) {c : Coord} {raw : String}

theorem commit_of_isFormulaText (h : Value.isFormulaText raw = true) :
    s.commit e c raw =
      (s.evaluate e (some c) raw,
        (s.setContent c (.formula raw)).display c (s.evaluate e (some c) raw)) := by
  rw [commit, if_pos h, setInput, Content.ofInput, if_pos h]

variable {s e}

theorem formula?_commit (h : Value.isFormulaText raw = true) (a : Coord) :
    (s.commit e c raw).2.formula? a = if c = a then some raw else s.formula? a := by
  rw [commit_of_isFormulaText s e h, formula?_display]
  exact s.formulas.get?_insert c a raw

theorem value_commit (h : Value.isFormulaText raw = true) (a : Coord) :
    (s.commit e c raw).2.value a = if c = a then s.evaluate e (some c) raw else s.value a := by
  rw [commit_of_isFormulaText s e h, value_display]
  rfl

/-- What formulas are evaluated over changes in the cell alone. -/
theorem agreeOff_commit (h : Value.isFormulaText raw = true) :
    Cells.AgreeOff c (s.commit e c raw).2.contents s.contents := by
  intro a ha
  rw [contents, contents, formula?_commit h, value_commit h, if_neg (Ne.symm ha),
    if_neg (Ne.symm ha)]

/-- **To commit a formula is to store it and to evaluate its cell.** The value that comes of it,
which is computed over the sheet as it was, is what the cell comes to afterwards and what it
displays; its formula is the text that was committed, and all other cells are left as they are. For
evaluations never look at the cell that they belong to. If no number is drawn, other draws make no
difference to the cell either. -/
theorem commit_formula (s : Sheet) (e : Evaluator) (c : Coord) (raw : String)
    (h : Value.isFormulaText raw = true) :
    (s.commit e c raw).1 = s.evaluate e (some c) raw ∧
    (s.commit e c raw).2.evaluateCell? e c = some (s.commit e c raw).1 ∧
    (¬ ReachesRandom e.options (s.commit e c raw).2.contents raw →
      ∀ e' : Evaluator, e'.options = e.options → e'.surroundings.clock = e.surroundings.clock →
        (s.commit e c raw).2.evaluateCell? e' c = some (s.commit e c raw).1) ∧
    (s.commit e c raw).2.value c = (s.commit e c raw).1 ∧
    (s.commit e c raw).2.formula? c = some raw ∧
    (∀ a, a ≠ c → (s.commit e c raw).2.value a = s.value a ∧
      (s.commit e c raw).2.formula? a = s.formula? a) ∧
    ∀ (cells cells' : Cells) (text : String), Cells.AgreeOff c cells cells' →
      e.tryEvaluate cells (some c) text = e.tryEvaluate cells' (some c) text := by
  have hfirst : (s.commit e c raw).1 = s.evaluate e (some c) raw := by
    rw [commit_of_isFormulaText s e h]
  have hformula : (s.commit e c raw).2.formula? c = some raw := by
    rw [formula?_commit h, if_pos rfl]
  have hagain : (s.commit e c raw).2.evaluateCell? e c = some (s.commit e c raw).1 := by
    rw [evaluateCell?, hformula, hfirst, Option.map_some, evaluate, evaluate, Evaluator.evaluate,
      Evaluator.evaluate, e.tryEvaluate_of_agreeOff (agreeOff_commit h)]
  refine ⟨hfirst, hagain, fun hrandom e' ho hclock => ?_, ?_, hformula, fun a ha => ⟨?_, ?_⟩,
    fun cells cells' text hcells => e.tryEvaluate_of_agreeOff hcells text⟩
  · rw [← hagain, evaluateCell?, evaluateCell?, hformula, Option.map_some, Option.map_some,
      evaluate, evaluate, Evaluator.evaluate, Evaluator.evaluate,
      Evaluator.tryEvaluate_alike hrandom ho hclock]
  · rw [value_commit h, if_pos rfl, hfirst]
  · rw [value_commit h, if_neg (Ne.symm ha)]
  · rw [formula?_commit h, if_neg (Ne.symm ha)]

/-- A formula committed in place of a number that another formula reads, which it leads back to. -/
theorem commit_formula_circle :
    let e : Evaluator := { surroundings := ⟨0, 0⟩ }
    let s := ((empty "").setValue ⟨0, 0⟩ (.number 7)).setContent ⟨0, 1⟩ (.formula "=SUM(A1:A3)*2")
    let raw := "=C1+B1"
    Value.isFormulaText raw = true ∧ (s.commit e ⟨0, 0⟩ raw).1 = .text "#CYCLE!" ∧
      (s.commit e ⟨0, 0⟩ raw).2.evaluateCell? e ⟨0, 0⟩ = some (s.commit e ⟨0, 0⟩ raw).1 ∧
      (s.commit e ⟨0, 0⟩ raw).2.value ⟨0, 1⟩ = s.value ⟨0, 1⟩ := by
  intro e s raw
  have hraw : Value.isFormulaText raw = true := by decide +kernel
  have hvalue : (s.commit e ⟨0, 0⟩ raw).1 = .text "#CYCLE!" := by decide +kernel
  obtain ⟨-, hcell, -, -, -, hothers, -⟩ := s.commit_formula e ⟨0, 0⟩ raw hraw
  exact ⟨hraw, hvalue, hcell, (hothers ⟨0, 1⟩ (by decide)).1⟩

end Sheet

end Spreadsheet
