import Spreadsheet.Proofs.Evaluation.Draws
import Spreadsheet.Proofs.Formula.Reach

/-!
# The demands of the naive semantics

The naive evaluation that keeps count of what is under way and notes what it would take to allow
for it (`Metered`): each formula cell, call, negation and chain of operands that is opened, and each
formula that is read, with the frame in which this happens. It limits nothing and remembers nothing,
and it comes to what the naive semantics comes to (`Metered.erases_tryEvaluate`).
-/

namespace Spreadsheet

open Evaluation

/-- What an evaluation demands at a moment. -/
inductive Demand where
  /-- A formula cell, a call, a negation or a chain of operands has been opened in this frame. -/
  | opens (f : Frame)
  /-- A formula is read in this frame. -/
  | reads (f : Frame) (text : String)

/-- A demand that the options allow for: no more formula cells and no more levels are under way than
they may be, and the levels that are left cover the nesting of the formula that is read. -/
def Demand.Within (o : Options) : Demand → Prop
  | opens f => f.chain.length ≤ o.maxDepth ∧ f.levels ≤ o.maxRecursion
  | reads f text => formulaNesting o text ≤ o.maxRecursion - f.levels

instance (o : Options) (d : Demand) : Decidable (d.Within o) :=
  match d with
  | .opens f => inferInstanceAs (Decidable (f.chain.length ≤ o.maxDepth ∧ _))
  | .reads _ text => inferInstanceAs (Decidable (formulaNesting o text ≤ _))

/-- A naive evaluation in a frame that notes its demands, in order. It has not come to its end if
there is no outcome. -/
abbrev Metered := ReaderT Frame (Noting (List Demand))

namespace Metered

variable {α β : Type}

/-- What a computation comes to in a frame, and the demands until then. -/
def runIn (act : Metered α) (f : Frame) (before : List Demand) :
    Option (Except FormulaError α × List Demand) :=
  (act.run f).run before

/-- Notes a demand in the frame. -/
def demand (d : Frame → Demand) : Metered Unit := do
  let f ← read
  modify (· ++ [d f])

/-- Goes on in a frame with more under way. -/
def opened (enter : Frame → Frame) (act : Metered α) : Metered α :=
  withReader enter do
    demand .opens
    act

/-- Goes on one level deeper. -/
def deeper (act : Metered α) : Metered α :=
  opened (fun f => { f with levels := f.levels + 1 }) act

/-- Each level is noted, and no number is drawn. -/
def interpretation (e : Evaluator) : Interpretation Metered where
  options := e.options
  call := e.plainCall
  deeper := deeper

/-- The result of a formula, given how cells are read. -/
def formula (e : Evaluator) (read : Coord → Metered Value) (text : String) : Metered Value := do
  demand (.reads · text)
  match Expr.ofFormula e.options text with
  | .error error => throw error
  | .ok x => return (← x.leveledValue (interpretation e) read false).displayed

/-- The value of a cell. -/
def cell (e : Evaluator) (cells : Cells) (fuel : Nat) (c : Coord) : Metered Value := fun f =>
  if f.waitsFor c then throw (.circular c)
  else match cells c, fuel with
    | .value v, _ => return v
    | .formula _, 0 => ExceptT.mk fun _ => none
    | .formula text, fuel + 1 => ExceptT.mk fun before =>
      ((opened (·.enterCell c) (formula e (cell e cells fuel) text)).runIn f before).map
        fun (result, after) => (Naive.cellResult result, after)

/-- The result of a formula, which belongs to a cell or to none, and the demands on the way. -/
def tryEvaluate (e : Evaluator) (cells : Cells) (current : Option Coord) (text : String)
    (fuel : Nat) : Option (Except FormulaError Value × List Demand) :=
  (formula e (cell e cells fuel) text).runIn { current } []

/-! ## How metered evaluations run -/

/-- Demands are noted one computation after the other. -/
theorem runIn_bind (act : Metered α) (g : α → Metered β) (f : Frame) (before : List Demand) :
    (act >>= g).runIn f before =
      match act.runIn f before with
      | none => none
      | some (.ok a, after) => (g a).runIn f after
      | some (.error error, after) => some (.error error, after) := by
  change (act.runIn f before).bind
    (fun out => (ExceptT.bindCont (fun a => (g a).run f) out.1) out.2) = _
  rcases act.runIn f before with _ | ⟨_ | _, _⟩ <;> rfl

/-- What is opened is demanded in the frame with more under way. -/
theorem runIn_opened (enter : Frame → Frame) (act : Metered α) (f : Frame)
    (before : List Demand) :
    (opened enter act).runIn f before = act.runIn (enter f) (before ++ [.opens (enter f)]) := rfl

section
variable {e : Evaluator} {cells : Cells} {fuel : Nat} {c : Coord} {f : Frame}
  {before : List Demand} {read : Coord → Metered Value} {text : String}

/-- A formula is demanded, and its expression goes on from there. -/
theorem runIn_formula :
    (formula e read text).runIn f before =
      ((liftExcept (Expr.ofFormula e.options text) >>= fun x =>
        x.leveledValue (interpretation e) read false >>= fun v =>
          pure v.displayed : Metered Value).runIn f (before ++ [.reads f text])) := by
  cases h : Expr.ofFormula e.options text <;> simp only [formula, h] <;> rfl

/-- A cell that waits is a circle. -/
theorem runIn_cell_of_mem (h : c ∈ f.waiting) :
    (cell e cells fuel c).runIn f before = some (.error (.circular c), before) := by
  rw [runIn, ReaderT.run, cell.eq_def, if_pos (Frame.waitsFor_iff.2 h)]
  rfl

/-- A plain value demands nothing. -/
theorem runIn_cell_of_value {v : Value} (h : c ∉ f.waiting) (hv : cells c = .value v) :
    (cell e cells fuel c).runIn f before = some (.ok v, before) := by
  rw [runIn, ReaderT.run, cell.eq_def, if_neg (mt Frame.waitsFor_iff.1 h), hv]
  rfl

/-- Without fuel no formula cell comes to an end. -/
theorem runIn_cell_zero (h : c ∉ f.waiting) (ht : cells c = .formula text) :
    (cell e cells 0 c).runIn f before = none := by
  rw [runIn, ReaderT.run, cell.eq_def, if_neg (mt Frame.waitsFor_iff.1 h), ht]
  rfl

/-- A formula cell demands its frame, and its formula goes on from there. -/
theorem runIn_cell_of_formula (h : c ∉ f.waiting) (ht : cells c = .formula text) :
    (cell e cells (fuel + 1) c).runIn f before =
      ((formula e (cell e cells fuel) text).runIn (f.enterCell c)
        (before ++ [.opens (f.enterCell c)])).map
          fun (result, after) => (Naive.cellResult result, after) := by
  rw [runIn, ReaderT.run, cell.eq_def, if_neg (mt Frame.waitsFor_iff.1 h), ht]
  rfl

/-- How a cell has been read: it waits itself, it holds a value, or it holds a formula. -/
theorem runIn_cell_eq_some {r : Except FormulaError Value} {after : List Demand}
    (h : (cell e cells fuel c).runIn f before = some (r, after)) :
    (c ∈ f.waiting ∧ r = .error (.circular c) ∧ after = before) ∨
      (c ∉ f.waiting ∧ ∃ v, cells c = .value v ∧ r = .ok v ∧ after = before) ∨
      (c ∉ f.waiting ∧ ∃ text fuel' r₀, cells c = .formula text ∧ fuel = fuel' + 1 ∧
        (formula e (cell e cells fuel') text).runIn (f.enterCell c)
          (before ++ [.opens (f.enterCell c)]) = some (r₀, after) ∧ r = Naive.cellResult r₀) := by
  by_cases hc : c ∈ f.waiting
  · rw [runIn_cell_of_mem hc] at h
    cases h
    exact .inl ⟨hc, rfl, rfl⟩
  · refine .inr ?_
    cases ht : cells c with
    | value v =>
      rw [runIn_cell_of_value hc ht] at h
      cases h
      exact .inl ⟨hc, v, rfl, rfl, rfl⟩
    | formula text =>
      refine .inr ⟨hc, text, ?_⟩
      cases fuel with
      | zero =>
        rw [runIn_cell_zero hc ht] at h
        cases h
      | succ fuel =>
        rw [runIn_cell_of_formula hc ht] at h
        obtain ⟨⟨r₀, after'⟩, hformula, heq⟩ := Option.map_eq_some_iff.1 h
        cases heq
        exact ⟨fuel, r₀, rfl, rfl, hformula, rfl⟩

end

/-! ## The same results -/

/-- Leaving aside what a metered evaluation notes, it comes to what a naive one comes to while the
cells wait that wait in the frame. -/
def Erases (waiting : List Coord) (walk : Metered α) (plain : Naive α) : Prop :=
  ∀ f before, f.waiting = waiting → (walk.runIn f before).map Prod.fst = plain.run

/-- Metered evaluations may follow each other, as the naive ones do. -/
theorem Erases.bind {waiting : List Coord} {walk : Metered α} {plain : Naive α}
    {g : α → Metered β} {h : α → Naive β} (hwalk : Erases waiting walk plain)
    (hg : ∀ a, Erases waiting (g a) (h a)) : Erases waiting (walk >>= g) (plain >>= h) :=
  fun f before hf => Noting.Erases.bind (fun before => hwalk f before hf)
    (fun a before => hg a f before hf) before

/-- Leaving aside the demands passes through every construct of expressions. -/
theorem Erases.transported (e : Evaluator) (waiting : List Coord) :
    LevelTransported (interpretation e) (e.plain Naive) fun {α} (walk : Metered α) plain =>
      Erases waiting walk plain where
  maxRangeCells := rfl
  pure _ _ _ _ := rfl
  throw _ _ _ _ := rfl
  bind := .bind
  call _ _ _ _ _ := rfl
  deeper h f _ hf := h { f with levels := f.levels + 1 } _ hf

section
variable {e : Evaluator} {cells : Cells} {waiting : List Coord}

/-- A formula comes to the same without its demands, if the cells do. -/
theorem erases_formula {read : Coord → Metered Value} {plain : Coord → Naive Value}
    (hread : ∀ c, Erases waiting (read c) (plain c)) (text : String) :
    Erases waiting (formula e read text) (Naive.formula e plain text) := by
  intro f before hf
  rw [runIn_formula]
  have h := Erases.transported e waiting
  unfold Naive.formula
  cases Expr.ofFormula e.options text with
  | error error => rfl
  | ok x =>
    refine h.bind ?_ (fun v : Value => h.pure v.displayed) f _ hf
    rw [Expr.naiveValue_eq_leveledValue false]
    exact h.value hread false x

/-- **To count is to evaluate.** A cell comes to what it comes to in the naive semantics. -/
theorem erases_cell (e : Evaluator) (cells : Cells) (fuel : Nat) (waiting : List Coord)
    (c : Coord) : Erases waiting (cell e cells fuel c) (Naive.cell e cells fuel waiting c) := by
  rintro f before rfl
  by_cases hc : c ∈ f.waiting
  · rw [runIn_cell_of_mem hc, Naive.cell_of_mem hc]
    rfl
  · cases ht : cells c with
    | value v =>
      rw [runIn_cell_of_value hc ht, Naive.cell_of_value hc ht]
      rfl
    | formula text =>
      cases fuel with
      | zero =>
        rw [runIn_cell_zero hc ht, Naive.cell.eq_def, if_neg hc, ht]
        rfl
      | succ fuel =>
        have hformula := erases_formula (e := e) (erases_cell e cells fuel (c :: f.waiting)) text
          (f.enterCell c) (before ++ [.opens (f.enterCell c)]) rfl
        rw [runIn_cell_of_formula hc ht, Naive.cell.eq_def, if_neg hc, ht]
        change _ = (Naive.formula e _ text).run.map Naive.cellResult
        rw [← hformula, Option.map_map, Option.map_map]
        rfl

/-- A metered evaluation comes to what the naive one comes to. -/
theorem erases_tryEvaluate (e : Evaluator) (cells : Cells) (current : Option Coord)
    (text : String) (fuel : Nat) :
    (tryEvaluate e cells current text fuel).map Prod.fst =
      Naive.tryEvaluate e cells current text fuel :=
  erases_formula (erases_cell e cells fuel current.toList) text { current } [] rfl

end

/-! ## No number is drawn -/

/-- A formula is metered without its random numbers. -/
theorem formula_fixed (e : Evaluator) (read : Coord → Metered Value) (text : String) :
    formula e.fixed read text = formula e read text := rfl

/-- A cell is metered without its random numbers. -/
theorem cell_fixed (e : Evaluator) (cells : Cells) (fuel : Nat) (c : Coord) :
    cell e.fixed cells fuel c = cell e cells fuel c := by
  induction fuel generalizing c with
  | zero =>
    funext f
    rw [cell.eq_def, cell.eq_def]
    cases cells c <;> rfl
  | succ fuel ih =>
    funext f
    rw [cell.eq_def, cell.eq_def]
    cases cells c with
    | value v => rfl
    | formula text =>
      dsimp only
      rw [formula_fixed, funext ih]

/-- Nor does a metered evaluation draw a number. -/
theorem tryEvaluate_fixed (e : Evaluator) (cells : Cells) (current : Option Coord) (text : String)
    (fuel : Nat) :
    tryEvaluate e.fixed cells current text fuel = tryEvaluate e cells current text fuel := by
  unfold tryEvaluate
  rw [formula_fixed, funext (cell_fixed e cells fuel)]

end Metered

end Spreadsheet
