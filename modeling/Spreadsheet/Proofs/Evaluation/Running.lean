import Spreadsheet.Proofs.Evaluation.Waiting

/-!
# How evaluations run

What a computation makes of a session, for each way to build one: `Evaluation.run_bind`,
`Evaluation.run_level`, `Evaluator.run_call` and, for formulas and cells, `run_formulaValue`,
`run_formulaCellValue` and `run_cellValue`. A formula cell keeps the failures of its formula to
itself, as in the naive semantics. A naive evaluation may take notes as well (`Noting`).
-/

namespace Spreadsheet

open Evaluation

/-- The cells that wait for what is evaluated now. -/
def Evaluation.Frame.waiting (f : Frame) : List Coord :=
  f.chain ++ f.current.toList

/-- A cell waits in a frame if it is among those that wait. -/
theorem Evaluation.Frame.waitsFor_iff {f : Frame} {c : Coord} :
    f.waitsFor c = true ↔ c ∈ f.waiting := by
  simp [waitsFor, waiting, or_comm]

section
variable {α β : Type}

/-! ## Parts of computations -/

/-- How a computation of two parts runs. -/
theorem Evaluation.run_bind (act : Evaluation α) (f : α → Evaluation β) (s : Session) :
    (act >>= f).run s =
      match act.run s with
      | (.ok a, s') => (f a).run s'
      | (.error error, s') => (.error error, s') := by
  change ExceptT.bindCont f (act.run s).1 (act.run s).2 = _
  rcases act.run s with ⟨_ | _, _⟩ <;> rfl

/-- How a computation whose failures are handled runs. -/
theorem Evaluation.run_tryCatch (act : Evaluation α) (handle : FormulaError → Evaluation α)
    (s : Session) :
    (tryCatch act handle).run s =
      match act.run s with
      | (.ok a, s') => (.ok a, s')
      | (.error error, s') => (handle error).run s' := by
  change StateT.run (tryCatch act handle).run s = _
  rw [ExceptT.run_tryCatch, StateT.run_bind]
  rcases h : act.run s with ⟨_ | _, s'⟩
  all_goals
    change StateT.run act.run s = _ at h
    rw [h]
    rfl

/-- In another frame: the computation runs in it, and the frame is as before afterwards. -/
theorem Evaluation.run_within (enter : Frame → Frame) (act : Evaluation α) (s : Session) :
    (within enter act).run s =
      ((act.run { s with frame := enter s.frame }).1,
        { (act.run { s with frame := enter s.frame }).2 with frame := s.frame }) := rfl

/-- One level more: it runs if there is one left, and is too deep else. -/
theorem Evaluation.run_level (o : Options) (act : Evaluation α) (s : Session) :
    (level o act).run s =
      if s.frame.levels < o.maxRecursion then
        (within (fun f => { f with levels := f.levels + 1 }) act).run s
      else (.error (.tooDeep o.maxRecursion), s) := by
  unfold level
  rw [Evaluation.run_bind]
  change (ite _ _ _ : Evaluation α).run s = _
  split <;> rfl

end

/-! ## Calls -/

/-- The session after a call of a function. -/
def Evaluation.Session.called (s : Session) (f : Function) : Session :=
  { s with drawn := if f.draws then s.drawn + 1 else s.drawn }

/-- A call: its result depends on the numbers drawn before, and one more may be drawn. -/
theorem Evaluator.run_call (e : Evaluator) (f : Function) (args : List Value) (s : Session) :
    (e.call f args).run s =
      (.ok (f.result (e.surroundings.after s.frame.current s.drawn) args), s.called f) := rfl

/-- Whether an evaluator draws the same number over and over. -/
def Evaluator.Fixed (e : Evaluator) : Prop :=
  ∀ current drawn, e.surroundings.after current drawn = e.surroundings.fixed

/-- If the same number is drawn over and over, then a call comes to what it comes to in the naive
semantics. -/
theorem Evaluator.run_call_of_fixed {e : Evaluator} (he : e.Fixed) (f : Function)
    (args : List Value) (s : Session) :
    (e.call f args).run s = (.ok (f.result e.surroundings.fixed args), s.called f) := by
  rw [run_call, he]

/-! ## Formulas and cells -/

section
variable {e : Evaluator} {cells : Cells} {lookUp : Coord → Evaluation Value}

/-- The frame in which the formula of a cell is evaluated. -/
def Evaluation.Frame.enterCell (f : Frame) (c : Coord) : Frame :=
  { f with chain := c :: f.chain, levels := f.levels + 1 }

/-- A level for a cell: its formula runs in the frame of the cell, if there is a level left. -/
theorem Evaluation.run_cellLevel {α : Type} (o : Options) (c : Coord) (act : Evaluation α)
    (s : Session) :
    (cellLevel o c act).run s =
      if s.frame.levels < o.maxRecursion then
        ((act.run { s with frame := s.frame.enterCell c }).1,
          { (act.run { s with frame := s.frame.enterCell c }).2 with frame := s.frame })
      else (.error (.tooDeep o.maxRecursion), s) :=
  Evaluation.run_level o _ s

/-- How a formula is evaluated: it is read with the levels that are left. -/
theorem run_formulaValue (text : String) (s : Session) :
    (formulaValue e lookUp text).run s =
      (liftExcept (Expr.ofFormulaWithin e.options (e.options.maxRecursion - s.frame.levels) text)
        >>= fun x => x.value e lookUp false >>= fun v => pure v.displayed :
          Evaluation Value).run s := rfl

/-- The session after a formula cell has come to a value. -/
def Evaluation.Session.settle (s : Session) (c : Coord) (v : Value) : Session :=
  { s with settled := s.settled.insert c v }

/-- A formula cell: its result is settled, unless it is a failure that goes on. -/
theorem run_formulaCellValue (c : Coord) (text : String) (s : Session) :
    (formulaCellValue e lookUp c text).run s =
      match (cellLevel e.options c (formulaValue e lookUp text)).run s with
      | (r, s₁) =>
        match Naive.cellResult r with
        | .ok v => (.ok v, s₁.settle c v)
        | .error error => (.error error, s₁) := by
  unfold formulaCellValue
  rw [Evaluation.run_bind, Evaluation.run_tryCatch]
  rcases (cellLevel e.options c (formulaValue e lookUp text)).run s with ⟨error | v, s₁⟩
  · cases h : error.isCycle with
    | true =>
      simp only [Naive.cellResult_of_isCycle h, h]
      rfl
    | false =>
      simp only [Naive.cellResult_of_contained h, h]
      rfl
  · rfl

/-- The session after a cell has been looked up. -/
def Evaluation.Session.lookedUp (s : Session) (c : Coord) : Session :=
  { s with lookups := c :: s.lookups }

/-- A cell: it is a circle, it is settled already, or it is looked up. -/
theorem run_cellValue (formulaCell : Coord → String → Evaluation Value) (c : Coord) (s : Session) :
    (cellValue cells formulaCell c).run s =
      if s.frame.waitsFor c then (.error (.circular c), s)
      else match s.settled[c]? with
        | some v => (.ok v, s)
        | none =>
          match cells c with
          | .value v => (.ok v, s.lookedUp c)
          | .formula text => (formulaCell c text).run (s.lookedUp c) := by
  unfold cellValue
  rw [Evaluation.run_bind]
  change (ite _ _ _ : Evaluation Value).run s = _
  split
  · rfl
  · cases s.settled[c]? with
    | some v => rfl
    | none =>
      dsimp only
      rw [Evaluation.run_bind]
      change (match cells c with
        | .value v => pure v
        | .formula text => formulaCell c text : Evaluation Value).run (s.lookedUp c) = _
      cases cells c <;> rfl

end

/-! ## Naive evaluations that take notes -/

/-- A naive evaluation that takes notes. It has not come to its end if there is no outcome. -/
abbrev Noting (σ : Type) := ExceptT FormulaError (StateT σ Option)

namespace Noting

variable {σ α β : Type}

/-- Computations that take notes run one after the other, with the notes of the first. -/
theorem run_bind (act : Noting σ α) (f : α → Noting σ β) (before : σ) :
    (act >>= f).run before =
      match act.run before with
      | none => none
      | some (.ok a, after) => (f a).run after
      | some (.error error, after) => some (.error error, after) := by
  change (act.run before).bind (fun out => (ExceptT.bindCont f out.1) out.2) = _
  rcases act.run before with _ | ⟨_ | _, _⟩ <;> rfl

/-- Leaving its notes aside, an evaluation comes to what a naive one comes to. -/
def Erases (walk : Noting σ α) (plain : Naive α) : Prop :=
  ∀ before, (walk.run before).map Prod.fst = plain.run

/-- Computations may follow each other, as the plain ones do. -/
theorem Erases.bind {walk : Noting σ α} {plain : Naive α} {f : α → Noting σ β}
    {g : α → Naive β} (h : Erases walk plain) (hf : ∀ a, Erases (f a) (g a)) :
    Erases (walk >>= f) (plain >>= g) := by
  intro before
  have hbefore := h before
  rw [run_bind]
  rcases hwalk : walk.run before with _ | ⟨error | a, after⟩
  · rw [hwalk] at hbefore
    have hplain : plain = none := hbefore.symm
    rw [hplain]
    rfl
  · rw [hwalk] at hbefore
    rw [Naive.bind_of_error hbefore.symm]
    rfl
  · rw [hwalk] at hbefore
    rw [Naive.bind_of_ok hbefore.symm]
    exact hf a after

end Noting

end Spreadsheet
