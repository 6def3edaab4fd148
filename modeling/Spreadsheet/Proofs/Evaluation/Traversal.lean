import Spreadsheet.Proofs.Evaluation.Draws

/-!
# The traversal of the naive semantics

The naive evaluation that notes each cell it looks up, with all that is looked up below it
(`Traversal`). It comes to what the naive semantics comes to (`Traversal.erases_cell`), and a longer
clock changes nothing (`Traversal.extends_cell`). What it has noted stays when an error ends it.
`Visit.allFresh` leaves out what was looked up below a formula cell that was there before, and the
cell itself.
-/

namespace Spreadsheet

/-! ## Visits -/

/-- A cell that is looked up. -/
inductive Visit where
  /-- A cell that holds a value. -/
  | plain (c : Coord)
  /-- A formula cell, and what is looked up while its formula is evaluated. -/
  | formula (c : Coord) (below : List Visit)

namespace Visit

mutual

/-- The cells of a visit, each before those below it, without the formula cells that were seen
before and all below them; and the formula cells that are seen then. -/
def fresh (seen : List Coord) : Visit → List Coord × List Coord
  | .plain c => ([c], seen)
  | .formula c below =>
    if c ∈ seen then ([], seen)
    else
      let (lookups, seen) := allFresh seen below
      (c :: lookups, c :: seen)

/-- The cells of visits, one visit after the other. -/
def allFresh (seen : List Coord) : List Visit → List Coord × List Coord
  | [] => ([], seen)
  | visit :: visits =>
    let (lookups, seen) := visit.fresh seen
    let (lookups', seen) := allFresh seen visits
    (lookups ++ lookups', seen)

end

/-- Visits in two parts: what is seen in the first part is left out in the second. -/
theorem allFresh_append (seen : List Coord) (visits visits' : List Visit) :
    allFresh seen (visits ++ visits') =
      ((allFresh seen visits).1 ++ (allFresh (allFresh seen visits).2 visits').1,
        (allFresh (allFresh seen visits).2 visits').2) := by
  induction visits generalizing seen with
  | nil => rfl
  | cons visit visits ih => simp only [List.cons_append, allFresh, ih, List.append_assoc]

example : (allFresh [] [.formula ⟨0, 0⟩ [.plain ⟨0, 1⟩], .plain ⟨0, 1⟩,
    .formula ⟨0, 0⟩ [.plain ⟨0, 1⟩]]).1 = [⟨0, 0⟩, ⟨0, 1⟩, ⟨0, 1⟩] := by decide

/-- A single visit. -/
theorem allFresh_singleton (seen : List Coord) (visit : Visit) :
    allFresh seen [visit] = visit.fresh seen := by
  simp [allFresh]

end Visit

/-! ## Visiting -/

/-- A naive evaluation that notes what it looks up, in order. It has not come to its end if there
is no outcome. -/
abbrev Traversal := ExceptT FormulaError (StateT (List Visit) Option)

namespace Traversal

variable {α β : Type}

/-- Notes one more visit. -/
def visit (v : Visit) : Traversal Unit :=
  modify (· ++ [v])

/-- What a traversal comes to from the beginning, and what it notes. -/
def visits (act : Traversal α) : Option (Except FormulaError α × List Visit) :=
  act.run []

/-- The value of a cell while others wait for the result. -/
def cell (e : Evaluator) (cells : Cells) (fuel : Nat) (waiting : List Coord) (c : Coord) :
    Traversal Value :=
  if c ∈ waiting then throw (.circular c)
  else match cells c, fuel with
    | .value v, _ => do
      visit (.plain c)
      return v
    | .formula _, 0 => ExceptT.mk fun _ => none
    | .formula text, fuel + 1 => ExceptT.mk fun before =>
      (naiveFormula e (cell e cells fuel (c :: waiting)) text).visits.map fun (result, below) =>
        (Naive.cellResult result, before ++ [.formula c below])

/-- The result of a formula, which belongs to a cell or to none, and what is looked up. -/
def tryEvaluate (e : Evaluator) (cells : Cells) (current : Option Coord) (text : String)
    (fuel : Nat) : Option (Except FormulaError Value × List Visit) :=
  (naiveFormula e (cell e cells fuel current.toList) text).visits

/-! ## How traversals run -/

/-- Leaving aside what a traversal notes, it comes to what a naive evaluation comes to. -/
def Erases (walk : Traversal α) (plain : Naive α) : Prop :=
  ∀ before, (walk.run before).map Prod.fst = plain.run

/-- A result notes nothing. -/
theorem Erases.pure (a : α) : Erases (Pure.pure a) (Pure.pure a) :=
  fun _ => rfl

/-- A failure notes nothing. -/
theorem Erases.throw (error : FormulaError) :
    Erases (throw error : Traversal α) (MonadExcept.throw error) :=
  fun _ => rfl

/-- Traversals may follow each other, as the plain evaluations do. -/
theorem Erases.bind {walk : Traversal α} {plain : Naive α} {f : α → Traversal β}
    {g : α → Naive β} (h : Erases walk plain) (hf : ∀ a, Erases (f a) (g a)) :
    Erases (walk >>= f) (plain >>= g) :=
  Noting.Erases.bind h hf

/-- Leaving aside the notes passes through every construct of expressions. -/
theorem Erases.transported : PlainlyTransported Traversal Naive Erases :=
  ⟨.pure, .throw, .bind⟩

/-! ## How a cell is traversed -/

section
variable {e : Evaluator} {cells : Cells} {fuel : Nat} {waiting : List Coord} {c : Coord}
  {before : List Visit}

/-- A cell that waits is a circle. -/
theorem run_cell_of_mem (h : c ∈ waiting) :
    (cell e cells fuel waiting c).run before = some (.error (.circular c), before) := by
  rw [cell.eq_def, if_pos h]
  rfl

/-- A plain value is visited and is the result. -/
theorem run_cell_of_value {v : Value} (h : c ∉ waiting) (hv : cells c = .value v) :
    (cell e cells fuel waiting c).run before = some (.ok v, before ++ [.plain c]) := by
  rw [cell.eq_def, if_neg h, hv]
  rfl

/-- Without fuel no formula cell comes to an end. -/
theorem run_cell_zero {text : String} (h : c ∉ waiting) (ht : cells c = .formula text) :
    (cell e cells 0 waiting c).run before = none := by
  rw [cell.eq_def, if_neg h, ht]
  rfl

/-- A formula cell is visited with all that its formula visits, which is a traversal of its own. -/
theorem run_cell_of_formula {text : String} (h : c ∉ waiting) (ht : cells c = .formula text) :
    (cell e cells (fuel + 1) waiting c).run before =
      (naiveFormula e (cell e cells fuel (c :: waiting)) text).visits.map fun (result, below) =>
        (Naive.cellResult result, before ++ [.formula c below]) := by
  rw [cell.eq_def, if_neg h, ht]
  rfl

/-- How a formula cell that does not wait has been traversed. -/
theorem run_cell_eq_some {text : String} {r : Except FormulaError Value} {after : List Visit}
    (h : c ∉ waiting) (ht : cells c = .formula text)
    (hrun : (cell e cells fuel waiting c).run before = some (r, after)) :
    ∃ fuel' r₀ below, fuel = fuel' + 1 ∧
      (naiveFormula e (cell e cells fuel' (c :: waiting)) text).visits = some (r₀, below) ∧
      r = Naive.cellResult r₀ ∧ after = before ++ [.formula c below] := by
  cases fuel with
  | zero =>
    rw [run_cell_zero h ht] at hrun
    cases hrun
  | succ fuel =>
    rw [run_cell_of_formula h ht] at hrun
    obtain ⟨⟨r₀, below⟩, hvisits, heq⟩ := Option.map_eq_some_iff.1 hrun
    cases heq
    exact ⟨fuel, r₀, below, rfl, hvisits, rfl, rfl⟩

/-- **The traversal is the naive evaluation.** -/
theorem erases_cell (e : Evaluator) (cells : Cells) (fuel : Nat) (waiting : List Coord)
    (c : Coord) : Erases (cell e cells fuel waiting c) (Naive.cell e cells fuel waiting c) := by
  intro before
  by_cases hc : c ∈ waiting
  · rw [run_cell_of_mem hc, Naive.cell_of_mem hc]
    rfl
  · cases ht : cells c with
    | value v =>
      rw [run_cell_of_value hc ht, Naive.cell_of_value hc ht]
      rfl
    | formula text =>
      cases fuel with
      | zero =>
        rw [run_cell_zero hc ht, Naive.cell.eq_def, if_neg hc, ht]
        rfl
      | succ fuel =>
        have hformula := Erases.transported.formula (e := e)
          (erases_cell e cells fuel (c :: waiting)) text []
        rw [run_cell_of_formula hc ht, Naive.cell.eq_def, if_neg hc, ht]
        change _ = (Naive.formula e _ text).run.map Naive.cellResult
        rw [Naive.formula_eq, ← hformula, Option.map_map, Option.map_map]
        rfl

/-! ## A longer clock -/

/-- A traversal that comes to whatever another one has come to. -/
def Extends (walk walk' : Traversal α) : Prop :=
  ∀ before out, walk.run before = some out → walk'.run before = some out

/-- Traversals that come to more may follow each other. -/
theorem Extends.bind {walk walk' : Traversal α} {f g : α → Traversal β} (h : Extends walk walk')
    (hf : ∀ a, Extends (f a) (g a)) : Extends (walk >>= f) (walk' >>= g) := by
  intro before out hrun
  rw [Noting.run_bind] at hrun ⊢
  rcases hwalk : walk.run before with _ | ⟨error | a, after⟩
  · rw [hwalk] at hrun
    cases hrun
  · rw [hwalk] at hrun
    rw [h before _ hwalk]
    exact hrun
  · rw [hwalk] at hrun
    rw [h before _ hwalk]
    exact hf a after out hrun

/-- Coming to more passes through every construct of expressions. -/
theorem Extends.transported : PlainlyTransported Traversal Traversal Extends :=
  ⟨fun _ _ _ h => h, fun _ _ _ h => h, .bind⟩

/-- A cell that has been traversed is traversed in the same way with more time. -/
theorem extends_cell (e : Evaluator) (cells : Cells) {fuel fuel' : Nat} (hf : fuel ≤ fuel')
    (waiting : List Coord) (c : Coord) :
    Extends (cell e cells fuel waiting c) (cell e cells fuel' waiting c) := by
  intro before out hrun
  by_cases hc : c ∈ waiting
  · rw [run_cell_of_mem hc] at hrun ⊢
    exact hrun
  · cases ht : cells c with
    | value v =>
      rw [run_cell_of_value hc ht] at hrun ⊢
      exact hrun
    | formula text =>
      cases fuel with
      | zero =>
        rw [run_cell_zero hc ht] at hrun
        cases hrun
      | succ fuel =>
        obtain ⟨fuel', rfl⟩ : ∃ k, fuel' = k + 1 := ⟨fuel' - 1, by omega⟩
        have hcell := extends_cell e cells (Nat.le_of_succ_le_succ hf) (c :: waiting)
        rw [run_cell_of_formula hc ht] at hrun ⊢
        obtain ⟨below, hvisits, heq⟩ := Option.map_eq_some_iff.1 hrun
        have hvisits' := Extends.transported.formula (e := e) hcell text [] below hvisits
        exact Option.map_eq_some_iff.2 ⟨below, hvisits', heq⟩

end

/-! ## No number is drawn -/

/-- A traversal draws its first number alone, so it is that of the fixed evaluator. -/
theorem cell_fixed (e : Evaluator) (cells : Cells) (fuel : Nat) (waiting : List Coord)
    (c : Coord) : cell e.fixed cells fuel waiting c = cell e cells fuel waiting c := by
  induction fuel generalizing waiting c with
  | zero =>
    rw [cell.eq_def, cell.eq_def]
    cases cells c <;> rfl
  | succ fuel ih =>
    rw [cell.eq_def, cell.eq_def]
    cases cells c with
    | value v => rfl
    | formula text =>
      dsimp only
      rw [naiveFormula_fixed, funext (ih (c :: waiting))]

/-- The traversal draws no number either. -/
theorem tryEvaluate_fixed (e : Evaluator) (cells : Cells) (current : Option Coord) (text : String)
    (fuel : Nat) : tryEvaluate e.fixed cells current text fuel =
      tryEvaluate e cells current text fuel := by
  unfold tryEvaluate
  rw [naiveFormula_fixed, funext (cell_fixed e cells fuel current.toList)]

end Traversal

end Spreadsheet
