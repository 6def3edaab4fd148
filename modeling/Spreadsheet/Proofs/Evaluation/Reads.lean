import Spreadsheet.Proofs.Evaluation.Naive
import Spreadsheet.Proofs.Formula.Failure

/-!
# What a formula reads

An expression reads cells in an order that is settled by its text alone: `Expr.steps` lists the
cells, along with the numbers and the calls of functions, and the places where the expression fails
for good. The first failure ends the reading (`Step.reads`). The value is then a function of the
values that were read (`Expr.over`). The naive evaluation is these two one after the other
(`Expr.naiveValue_eq`), so whether a formula has a result, and which error it has else, is decided
by the cells it reads (`Naive.formula_eq_some`).
-/

namespace Spreadsheet

/-- What happens next when an expression is evaluated. -/
inductive Step where
  /-- A number is taken as it stands. -/
  | number (n : Float)
  /-- A cell is read. -/
  | read (c : Coord)
  /-- A function is called. -/
  | call (f : Function)
  /-- The evaluation fails, whatever the cells hold. -/
  | fail (error : FormulaError) (contained : error.isCycle = false)

/-- The steps through the cells of a range. -/
def Range.steps (o : Options) (r : Range) : List Step :=
  if o.maxRangeCells < r.count then [.fail (.rangeTooLarge r o.maxRangeCells) rfl]
  else r.cells.map .read

section
variable (o : Options)

mutual

/-- The steps of an expression from left to right. A call of a function that is not known takes
none. -/
def Expr.steps : Expr → List Step
  | .number n => [.number n]
  | .text _ | .bare _ => []
  | .cell c => [.read c]
  | .range r => [.fail (.rangeAsValue r) rfl]
  | .negate x => x.steps
  | .binary _ l r => l.steps ++ r.steps
  | .call name args =>
    match Function.find? name with
    | none => []
    | some f => Expr.argumentSteps args ++ [.call f]

/-- The steps of arguments, where a range stands for its cells. -/
def Expr.argumentSteps : List Expr → List Step
  | [] => []
  | .range r :: args => r.steps o ++ Expr.argumentSteps args
  | x :: args => x.steps ++ Expr.argumentSteps args

end

end

namespace Step

/-- The cells that are read before the first failure. -/
def reads : List Step → List Coord
  | [] => []
  | .number _ :: steps | .call _ :: steps => reads steps
  | .read c :: steps => c :: reads steps
  | .fail _ _ :: _ => []

/-- The end that the steps come to when every cell has a value. -/
def ending : List Step → Except FormulaError Unit
  | [] => .ok ()
  | .number _ :: steps | .call _ :: steps | .read _ :: steps => ending steps
  | .fail error _ :: _ => .error error

/-- Takes the steps one after the other. -/
def run (read : Coord → Naive Value) : List Step → Naive Unit
  | [] => return ()
  | .number _ :: steps | .call _ :: steps => run read steps
  | .read c :: steps => do
    let _ ← read c
    run read steps
  | .fail error _ :: _ => throw error

end Step

/-- The cells that a formula reads, in order. A text that is no formula reads none. -/
def formulaReads (o : Options) (text : String) : List Coord :=
  match Expr.ofFormula o text with
  | .ok x => Step.reads (x.steps o)
  | .error _ => []

section
variable (e : Evaluator) (values : Coord → Value)

mutual

/-- The value of an expression over the values of cells, if it does not fail. -/
def Expr.over : Expr → Value
  | .number n => .number n
  | .text s | .bare s => .text s
  | .cell c => (values c).asOperand
  | .range _ => .blank
  | .negate x => .ofFinite (-x.over.toNumber)
  | .binary op l r => op.apply l.over r.over
  | .call name args =>
    match Function.find? name with
    | none => Sentinel.name.value
    | some f => f.result e.surroundings.fixed (Expr.argumentsOver args)

/-- The values of arguments over the values of cells. -/
def Expr.argumentsOver : List Expr → List Value
  | [] => []
  | .range r :: args => r.cells.map values ++ Expr.argumentsOver args
  | .cell c :: args => values c :: Expr.argumentsOver args
  | x :: args => x.over :: Expr.argumentsOver args

end

end

/-! ## Taking the steps -/

namespace Naive

variable {α β : Type}

/-- A naive computation goes on from its result. -/
theorem bind_of_ok {x : Naive α} {a : α} (h : x.run = some (.ok a)) (f : α → Naive β) :
    x >>= f = f a := by
  have h : x = some (.ok a) := h
  rw [h]
  rfl

/-- A naive computation ends with its failure. -/
theorem bind_of_error {x : Naive α} {error : FormulaError} (h : x.run = some (.error error))
    (f : α → Naive β) : x >>= f = throw error := by
  have h : x = some (.error error) := h
  rw [h]
  rfl

/-- How a computation of two parts came to its end. -/
theorem bind_eq_some {x : Naive α} {f : α → Naive β} {r : Except FormulaError β}
    (h : (x >>= f).run = some r) :
    (∃ error, x.run = some (.error error) ∧ r = .error error) ∨
      ∃ a, x.run = some (.ok a) ∧ (f a).run = some r := by
  match hx : x.run with
  | none =>
    have hx : x = none := hx
    rw [hx] at h
    cases h
  | some (.error error) =>
    rw [bind_of_error hx] at h
    exact .inl ⟨error, rfl, (Option.some.inj h).symm⟩
  | some (.ok a) =>
    rw [bind_of_ok hx] at h
    exact .inr ⟨a, rfl, h⟩

/-- The value that reading a cell comes to. -/
def valueRead (read : Coord → Naive Value) (c : Coord) : Value :=
  match (read c).run with
  | some (.ok v) => v
  | _ => .blank

/-- A value that is used after it was read is the value that reading comes to. -/
theorem read_bind (read : Coord → Naive Value) (c : Coord) (f : Value → Naive α) :
    read c >>= f = read c >>= fun _ => f (valueRead read c) := by
  unfold valueRead
  generalize read c = x
  match x with
  | none | some (.error _) | some (.ok _) => rfl

end Naive

namespace Step

variable (read : Coord → Naive Value)

/-- Steps are taken one part after the other. -/
theorem run_append (steps steps' : List Step) :
    run read (steps ++ steps') = run read steps >>= fun _ => run read steps' := by
  induction steps with
  | nil => simp [run]
  | cons step steps ih =>
    cases step with
    | number | call => exact ih
    | read c => simp [run, ih]
    | fail => simp [run]

/-- The cells of a range are read one after the other. -/
theorem mapM_read (cs : List Coord) :
    cs.mapM read = run read (cs.map .read) >>= fun _ => pure (cs.map (Naive.valueRead read)) := by
  induction cs with
  | nil => simp [run]
  | cons c cs ih =>
    rw [List.mapM_cons, ih, List.map_cons, List.map_cons, run, Naive.read_bind]
    simp

end Step

/-- The values of a range: its steps are taken, and then its cells are valued. -/
theorem Range.naiveValues_eq (o : Options) (read : Coord → Naive Value) (r : Range) :
    r.naiveValues o read =
      Step.run read (r.steps o) >>= fun _ => pure (r.cells.map (Naive.valueRead read)) := by
  unfold Range.naiveValues Range.steps
  split
  · simp [Step.run]
  · exact Step.mapM_read read r.cells

section
variable (e : Evaluator) (read : Coord → Naive Value)

/-! ## The value after the steps -/

mutual

/-- **The steps come first.** The value of an expression is what comes of the values of its cells
once all its steps have been taken. -/
theorem Expr.naiveValue_eq : (x : Expr) → x.naiveValue e read =
    Step.run read (x.steps e.options) >>= fun _ => pure (x.over e (Naive.valueRead read))
  | .number _ | .text _ | .bare _ => rfl
  | .cell c => by
    rw [Expr.naiveValue, Expr.steps, Step.run, Naive.read_bind]
    simp [Step.run, Expr.over]
  | .range _ => rfl
  | .negate x => by
    rw [Expr.naiveValue, Expr.naiveValue_eq x]
    simp [Expr.steps, Expr.over]
  | .binary op l r => by
    rw [Expr.naiveValue, Expr.naiveValue_eq l, Expr.naiveValue_eq r, Expr.steps, Step.run_append]
    simp [Expr.over]
  | .call name args => by
    rw [Expr.naiveValue, Expr.steps, Expr.over]
    cases Function.find? name with
    | none => rfl
    | some f =>
      simp only [Expr.naiveArguments_eq args, Step.run_append, Step.run]
      simp

/-- The values of arguments are what comes of the values of their cells. -/
theorem Expr.naiveArguments_eq : (args : List Expr) → Expr.naiveArguments e read args =
    Step.run read (Expr.argumentSteps e.options args) >>= fun _ =>
      pure (Expr.argumentsOver e (Naive.valueRead read) args)
  | [] => rfl
  | .range r :: args => by
    rw [Expr.naiveArguments, Expr.argumentSteps, Step.run_append, r.naiveValues_eq,
      Expr.naiveArguments_eq args]
    simp [Expr.argumentsOver]
  | .cell c :: args => by
    rw [Expr.naiveArguments, Expr.argumentSteps, Step.run_append, Expr.steps, Step.run,
      Naive.read_bind, Expr.naiveArguments_eq args]
    · simp [Step.run, Expr.argumentsOver]
    · nofun
  | x@(.number _) :: args | x@(.text _) :: args | x@(.bare _) :: args
  | x@(.binary ..) :: args | x@(.negate _) :: args | x@(.call ..) :: args => by
    rw [Expr.naiveArguments, Expr.argumentSteps, Step.run_append, Expr.naiveValue_eq,
      Expr.naiveArguments_eq args]
    · simp [Expr.argumentsOver]
    all_goals nofun

end

end

/-! ## What the steps come to -/

namespace Step

variable {read read' : Coord → Naive Value} {steps steps' : List Step}

/-- Steps that read cells read these cells. -/
theorem reads_map_read (cs : List Coord) : reads (cs.map .read) = cs := by
  induction cs with
  | nil => rfl
  | cons c cs ih => rw [List.map_cons, reads, ih]

/-- Steps that can all be taken are followed by the steps after them. -/
theorem reads_append (h : ending steps = .ok ()) :
    reads (steps ++ steps') = reads steps ++ reads steps' := by
  induction steps with
  | nil => rfl
  | cons step steps ih =>
    cases step with
    | number | call => exact ih h
    | read c => simp [reads, ih h]
    | fail => cases h

/-- Steps in two parts come to a good end if both parts do. -/
theorem ending_append :
    ending (steps ++ steps') = .ok () ↔ ending steps = .ok () ∧ ending steps' = .ok () := by
  induction steps with
  | nil => simp [ending]
  | cons step steps ih =>
    cases step with
    | number | call | read => exact ih
    | fail => simp [ending]

/-- No step has a failure but those that a formula cell keeps to itself. -/
theorem contained_ending (steps : List Step) : Contained (ending steps) := by
  induction steps with
  | nil => exact .ok ()
  | cons step steps ih =>
    cases step with
    | number | call | read => exact ih
    | fail error contained => exact .error contained

/-- Steps end with the error of the first cell that has one, or else as they would over any
values. -/
theorem run_eq_some {r : Except FormulaError Unit} (h : (run read steps).run = some r) :
    (∃ c ∈ reads steps, ∃ error, (read c).run = some (.error error) ∧ r = .error error) ∨
      (∀ c ∈ reads steps, ∃ v, (read c).run = some (.ok v)) ∧ r = ending steps := by
  induction steps with
  | nil => exact .inr ⟨nofun, (Option.some.inj h).symm⟩
  | cons step steps ih =>
    cases step with
    | number | call => exact ih h
    | fail error contained => exact .inr ⟨nofun, (Option.some.inj h).symm⟩
    | read c =>
      rcases Naive.bind_eq_some h with ⟨error, hc, rfl⟩ | ⟨v, hc, h⟩
      · exact .inl ⟨c, .head _, error, hc, rfl⟩
      · rcases ih h with ⟨d, hd, error, hr, rfl⟩ | ⟨hall, rfl⟩
        · exact .inl ⟨d, .tail _ hd, error, hr, rfl⟩
        · exact .inr ⟨List.forall_mem_cons.2 ⟨⟨v, hc⟩, hall⟩, rfl⟩

/-- Cells that are read no less well end the steps no other way. -/
theorem run_mono
    (hread : ∀ c ∈ reads steps, ∀ r, (read c).run = some r → (read' c).run = some r)
    {r : Except FormulaError Unit} (h : (run read steps).run = some r) :
    (run read' steps).run = some r := by
  induction steps with
  | nil => exact h
  | cons step steps ih =>
    cases step with
    | number | call => exact ih hread h
    | fail error contained => exact h
    | read c =>
      obtain ⟨hc', hread⟩ := List.forall_mem_cons.1 hread
      rcases Naive.bind_eq_some h with ⟨error, hc, rfl⟩ | ⟨v, hc, h⟩
      · rw [run, Naive.bind_of_error (hc' _ hc)]
        rfl
      · rw [run, Naive.bind_of_ok (hc' _ hc)]
        exact ih hread h

end Step

/-! ## The value depends on the cells that are read -/

/-- The values of a range depend on the values of the cells that it reads. -/
theorem Range.map_values_congr {o : Options} {values values' : Coord → Value} (r : Range)
    (h : Step.ending (r.steps o) = .ok ())
    (hc : ∀ c ∈ Step.reads (r.steps o), values c = values' c) :
    r.cells.map values = r.cells.map values' := by
  unfold Range.steps at h hc
  split at h
  · cases h
  · next hlt =>
    rw [if_neg hlt, Step.reads_map_read] at hc
    exact List.map_congr_left hc

section
variable {e : Evaluator} {values values' : Coord → Value}

mutual

/-- An expression that does not fail has the same value over the same values of what it reads. -/
theorem Expr.over_congr : (x : Expr) → Step.ending (x.steps e.options) = .ok () →
    (∀ c ∈ Step.reads (x.steps e.options), values c = values' c) →
    x.over e values = x.over e values'
  | .number _, _, _ | .text _, _, _ | .bare _, _, _ => rfl
  | .cell c, _, hc => by
    rw [Expr.over, Expr.over, hc c (.head _)]
  | .range _, h, _ => by cases h
  | .negate x, h, hc => by
    rw [Expr.over, Expr.over, Expr.over_congr x h hc]
  | .binary op l r, h, hc => by
    rw [Expr.steps, Step.ending_append] at h
    rw [Expr.steps, Step.reads_append h.1] at hc
    obtain ⟨hl, hr⟩ := List.forall_mem_append.1 hc
    rw [Expr.over, Expr.over, Expr.over_congr l h.1 hl, Expr.over_congr r h.2 hr]
  | .call name args, h, hc => by
    rw [Expr.over, Expr.over]
    rw [Expr.steps] at h hc
    cases hf : Function.find? name with
    | none => rfl
    | some f =>
      rw [hf] at h hc
      rw [Step.ending_append] at h
      rw [Step.reads_append h.1] at hc
      exact congrArg _ (Expr.argumentsOver_congr args h.1 (List.forall_mem_append.1 hc).1)

/-- Arguments that do not fail have the same values over the same values of what they read. -/
theorem Expr.argumentsOver_congr : (args : List Expr) →
    Step.ending (Expr.argumentSteps e.options args) = .ok () →
    (∀ c ∈ Step.reads (Expr.argumentSteps e.options args), values c = values' c) →
    Expr.argumentsOver e values args = Expr.argumentsOver e values' args
  | [], _, _ => rfl
  | .range r :: args, h, hc => by
    rw [Expr.argumentSteps, Step.ending_append] at h
    rw [Expr.argumentSteps, Step.reads_append h.1] at hc
    obtain ⟨hr, hargs⟩ := List.forall_mem_append.1 hc
    rw [Expr.argumentsOver, Expr.argumentsOver, r.map_values_congr h.1 hr,
      Expr.argumentsOver_congr args h.2 hargs]
  | .cell c :: args, h, hc => by
    rw [Expr.argumentSteps, Step.ending_append] at h
    rw [Expr.argumentSteps, Step.reads_append h.1] at hc
    obtain ⟨hr, hargs⟩ := List.forall_mem_append.1 hc
    rw [Expr.argumentsOver, Expr.argumentsOver, hr c (.head _),
      Expr.argumentsOver_congr args h.2 hargs]
    all_goals nofun
  | x@(.number _) :: args, h, hc | x@(.text _) :: args, h, hc | x@(.bare _) :: args, h, hc
  | x@(.binary ..) :: args, h, hc | x@(.negate _) :: args, h, hc | x@(.call ..) :: args, h, hc => by
    rw [Expr.argumentSteps, Step.ending_append] at h
    rw [Expr.argumentSteps, Step.reads_append h.1] at hc
    obtain ⟨hx, hargs⟩ := List.forall_mem_append.1 hc
    rw [Expr.argumentsOver, Expr.argumentsOver, Expr.over_congr _ h.1 hx,
      Expr.argumentsOver_congr args h.2 hargs]
    all_goals nofun

end

end

/-! ## The result of a formula -/

namespace Naive

variable {e : Evaluator} {read read' : Coord → Naive Value} {text : String}
  {r : Except FormulaError Value}

/-- A text that is no formula fails as it is read. -/
theorem formula_of_error {error : FormulaError} (h : Expr.ofFormula e.options text = .error error) :
    (formula e read text).run = some (.error error) := by
  rw [formula, h]
  rfl

/-- A formula takes the steps of its expression, and then has the value of it. -/
theorem formula_of_ok {x : Expr} (h : Expr.ofFormula e.options text = .ok x) :
    formula e read text = Step.run read (x.steps e.options) >>= fun _ =>
      pure (x.over e (valueRead read)).displayed := by
  rw [formula, h]
  change (x.naiveValue e read >>= fun v => pure v.displayed) = _
  rw [Expr.naiveValue_eq, bind_assoc]
  rfl

/-- **What decides on a result.** A formula whose evaluation ends has the error of a cell it reads,
or all cells it reads have values and what it fails with, if it does, stays with its cell. -/
theorem formula_eq_some (h : (formula e read text).run = some r) :
    (∃ c ∈ formulaReads e.options text, ∃ error, (read c).run = some (.error error) ∧
      r = .error error) ∨
      (∀ c ∈ formulaReads e.options text, ∃ v, (read c).run = some (.ok v)) ∧ Contained r := by
  unfold formulaReads
  cases hx : Expr.ofFormula e.options text with
  | error error =>
    rw [formula_of_error hx] at h
    cases h
    exact .inr ⟨nofun, .error (Expr.contained_ofFormula _ _ _ hx)⟩
  | ok x =>
    rw [formula_of_ok hx] at h
    rcases bind_eq_some h with ⟨error, hs, rfl⟩ | ⟨_, hs, h⟩
    · rcases Step.run_eq_some hs with ⟨c, hc, error', hr, he⟩ | ⟨hall, he⟩
      · cases he
        exact .inl ⟨c, hc, error, hr, rfl⟩
      · exact .inr ⟨hall, .error (Step.contained_ending _ _ he.symm)⟩
    · cases h
      rcases Step.run_eq_some hs with ⟨c, hc, error', hr, he⟩ | ⟨hall, he⟩
      · cases he
      · exact .inr ⟨hall, .ok _⟩

/-- A formula has the same result when every cell it reads is read to the same end. -/
theorem formula_mono
    (hread : ∀ c ∈ formulaReads e.options text, ∀ r, (read c).run = some r →
      (read' c).run = some r)
    (h : (formula e read text).run = some r) : (formula e read' text).run = some r := by
  cases hx : Expr.ofFormula e.options text with
  | error error =>
    rw [formula_of_error hx] at h ⊢
    exact h
  | ok x =>
    have hread : ∀ c ∈ Step.reads (x.steps e.options), ∀ r, (read c).run = some r →
        (read' c).run = some r := by
      simpa only [formulaReads, hx] using hread
    rw [formula_of_ok hx] at h ⊢
    rcases bind_eq_some h with ⟨error, hs, rfl⟩ | ⟨_, hs, h⟩
    · rw [bind_of_error (Step.run_mono hread hs)]
      rfl
    · rw [bind_of_ok (Step.run_mono hread hs)]
      rcases Step.run_eq_some hs with ⟨c, hc, error', hr, he⟩ | ⟨hall, he⟩
      · cases he
      · have hvalues : ∀ c ∈ Step.reads (x.steps e.options),
            valueRead read c = valueRead read' c := by
          intro c hc
          obtain ⟨v, hv⟩ := hall c hc
          simp only [valueRead, hv, hread c hc _ hv]
        rw [← Expr.over_congr x he.symm hvalues]
        exact h

end Naive

end Spreadsheet
