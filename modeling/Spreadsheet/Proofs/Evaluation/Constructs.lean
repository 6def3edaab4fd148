import Spreadsheet.Proofs.Evaluation.Levels
import Spreadsheet.Proofs.Evaluation.Running
import Spreadsheet.Proofs.Formula.Failure

/-!
# What passes through every construct

A relation between computations in a session and plain ones is `Transported` if it holds of the
parts that evaluations are built from and survives putting them together. It then passes through
the value of every expression, as soon as it holds of the cells that the expression may read
(`Transported.value`), and through the result of every formula (`Transported.formulaValue`). A
predicate of computations alone is the case where the plain ones do not matter (`PassedOn`). The
same holds of relations between plain computations in two monads (`PlainlyTransported`).
-/

namespace Spreadsheet

open Evaluation

/-- The result of a formula, given how cells are read, in any monad. -/
def naiveFormula {m : Type → Type} [Monad m] [MonadExceptOf FormulaError m] (e : Evaluator)
    (read : Coord → m Value) (text : String) : m Value :=
  match Expr.ofFormula e.options text with
  | .error error => throw error
  | .ok x => do return (← x.naiveValue e read).displayed

/-- A formula is evaluated naively as by anything that reads cells. -/
theorem Naive.formula_eq (e : Evaluator) (read : Coord → Naive Value) (text : String) :
    formula e read text = naiveFormula e read text := by
  unfold formula naiveFormula
  cases Expr.ofFormula e.options text <;> rfl

/-- A cell that a formula may read: it is the cell of a step, before or after a step that fails. -/
def Mentions (o : Options) (text : String) (c : Coord) : Prop :=
  ∃ x, Expr.ofFormula o text = .ok x ∧ .read c ∈ x.steps o

section
variable {m : Type → Type} [Monad m] [MonadExceptOf FormulaError m]

/-- A relation between computations in a session and plain ones that every construct of the
evaluation keeps. A level more and an evaluation that is too deep mean nothing to plain
computations. -/
structure Transported (e : Evaluator) (R : ∀ {α : Type}, Evaluation α → m α → Prop) : Prop where
  pure : ∀ {α : Type} (a : α), R (pure a) (pure a)
  throw : ∀ {α : Type} (error : FormulaError), R (throw error : Evaluation α) (throw error)
  tooDeep : ∀ {α : Type} (limit : Nat) (plain : m α), R (MonadExcept.throw (.tooDeep limit)) plain
  bind : ∀ {α β : Type} {act : Evaluation α} {f : α → Evaluation β} {plain : m α} {g : α → m β},
    R act plain → (∀ a, R (f a) (g a)) → R (act >>= f) (plain >>= g)
  call : ∀ (f : Function) (args : List Value), R (e.call f args) (e.plainCall f args)
  level : ∀ {α : Type} {act : Evaluation α} {plain : m α},
    R act plain → R (level e.options act) plain
  /-- It is enough to tell in each session what a computation does there. -/
  session : ∀ {α : Type} {act : Evaluation α} {plain : m α},
    (∀ s, ∃ act' : Evaluation α, R act' plain ∧ act.run s = act'.run s) → R act plain

end

section
variable {m : Type → Type} [Monad m] [MonadExceptOf FormulaError m] {e : Evaluator}
  {R : ∀ {α : Type}, Evaluation α → m α → Prop} {lookUp : Coord → Evaluation Value}
  {read : Coord → m Value}

namespace Transported

/-- To plain computations a level means nothing. -/
theorem leveled (h : Transported e @R) :
    LevelTransported e.interpretation (e.plain m) fun {α} (act : Evaluation α) plain =>
      R act plain where
  maxRangeCells := rfl
  pure := h.pure
  throw := h.throw
  bind := h.bind
  call := h.call
  deeper := h.level

/-- The values of an expression are related if those of the cells are that it may read. -/
theorem value [LawfulMonad m] (h : Transported e @R) (onLeft : Bool) (x : Expr)
    (hread : ∀ c, .read c ∈ x.steps e.options → R (lookUp c) (read c)) :
    R (x.value e lookUp onLeft) (x.naiveValue e read) := by
  rw [Expr.value_eq_leveledValue, Expr.naiveValue_eq_leveledValue onLeft]
  exact h.leveled.value_of_steps onLeft x hread

/-- The results of a formula are related if the values of the cells are that it may read. What is
left of the levels decides only whether the formula can be read at all. -/
theorem formulaValue [LawfulMonad m] (h : Transported e @R) (text : String)
    (hread : ∀ c, Mentions e.options text c → R (lookUp c) (read c)) :
    R (formulaValue e lookUp text) (naiveFormula e read text) := by
  refine h.session fun s => ?_
  rw [run_formulaValue]
  rcases Expr.ofFormulaWithin_eq e.options (e.options.maxRecursion - s.frame.levels) text with
    hw | hw
  · rw [hw]
    exact ⟨_, h.tooDeep e.options.maxRecursion _, rfl⟩
  · rw [hw]
    unfold naiveFormula
    cases hx : Expr.ofFormula e.options text with
    | error error => exact ⟨_, h.throw error, rfl⟩
    | ok x =>
      have hvalue := h.value false x fun c hc => hread c ⟨x, hx, hc⟩
      exact ⟨_, h.bind hvalue fun v => h.pure v.displayed, rfl⟩

end Transported

end

/-! ## Plain computations -/

/-- A relation between plain computations of two kinds that every construct keeps. -/
structure PlainlyTransported (m m' : Type → Type) [Monad m] [MonadExceptOf FormulaError m]
    [Monad m'] [MonadExceptOf FormulaError m'] (R : ∀ {α : Type}, m α → m' α → Prop) : Prop where
  pure : ∀ {α : Type} (a : α), R (pure a) (pure a)
  throw : ∀ {α : Type} (error : FormulaError), R (throw error : m α) (throw error)
  bind : ∀ {α β : Type} {plain : m α} {f : α → m β} {plain' : m' α} {g : α → m' β},
    R plain plain' → (∀ a, R (f a) (g a)) → R (plain >>= f) (plain' >>= g)

section
variable {m m' : Type → Type} [Monad m] [MonadExceptOf FormulaError m] [Monad m']
  [MonadExceptOf FormulaError m'] {e : Evaluator} {R : ∀ {α : Type}, m α → m' α → Prop}
  {read : Coord → m Value} {read' : Coord → m' Value}

namespace PlainlyTransported

/-- To plain computations a level means nothing. -/
theorem leveled (h : PlainlyTransported m m' @R) (e : Evaluator) :
    LevelTransported (e.plain m) (e.plain m') fun {α} (plain : m α) plain' => R plain plain' where
  maxRangeCells := rfl
  pure := h.pure
  throw := h.throw
  bind := h.bind
  call _ _ := h.pure _
  deeper h := h

/-- An expression is evaluated in related ways if its cells are. -/
theorem value [LawfulMonad m] [LawfulMonad m'] (h : PlainlyTransported m m' @R)
    (hread : ∀ c, R (read c) (read' c)) (x : Expr) :
    R (x.naiveValue e read) (x.naiveValue e read') := by
  rw [Expr.naiveValue_eq_leveledValue false, Expr.naiveValue_eq_leveledValue false]
  exact (h.leveled e).value hread false x

/-- The results of a formula are related if the values of cells are. -/
theorem formula [LawfulMonad m] [LawfulMonad m'] (h : PlainlyTransported m m' @R)
    (hread : ∀ c, R (read c) (read' c)) (text : String) :
    R (naiveFormula e read text) (naiveFormula e read' text) := by
  unfold naiveFormula
  cases Expr.ofFormula e.options text with
  | error error => exact h.throw error
  | ok x => exact h.bind (h.value hread x) fun v => h.pure v.displayed

end PlainlyTransported

end

/-! ## Predicates of computations -/

/-- A predicate of computations that every construct of the evaluation keeps. -/
abbrev PassedOn (e : Evaluator) (P : ∀ {α : Type}, Evaluation α → Prop) : Prop :=
  Transported (m := Except FormulaError) e fun act _ => P act

section
variable {e : Evaluator} {P : ∀ {α : Type}, Evaluation α → Prop}
  {lookUp : Coord → Evaluation Value}

/-- Plain computations that are related to all others. -/
private def unread (_ : Coord) : Except FormulaError Value :=
  .ok .blank

/-- What is passed on from the cells of an expression holds of its evaluation. -/
theorem PassedOn.value (h : PassedOn e @P) (onLeft : Bool) (x : Expr)
    (hread : ∀ c, .read c ∈ x.steps e.options → P (lookUp c)) : P (x.value e lookUp onLeft) :=
  @Transported.value _ _ _ _ _ _ unread _ h onLeft x hread

/-- What is passed on from the cells that a formula mentions holds of its evaluation. -/
theorem PassedOn.formulaValue (h : PassedOn e @P) (text : String)
    (hread : ∀ c, Mentions e.options text c → P (lookUp c)) : P (formulaValue e lookUp text) :=
  @Transported.formulaValue _ _ _ _ _ _ unread _ h text hread

end

end Spreadsheet
