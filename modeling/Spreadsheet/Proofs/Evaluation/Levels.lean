import Spreadsheet.Proofs.Evaluation.Reads

/-!
# Expressions level by level

The value of an expression in any monad, given how cells are read, and how functions are called and
a level deeper is entered (`Expr.leveledValue`). One interpretation of calls and levels is the
evaluation (`Expr.value_eq_leveledValue`), and one in which no number is drawn and levels mean
nothing is the naive value (`Expr.naiveValue_eq_leveledValue`).

Whatever passes from the parts of an expression to the expression does so by one induction. Two
relations between the computations of two interpretations, one of values and one of arguments, are
a congruence if every construct keeps them (`Interpretation.Congruence`), and then they hold of
every expression as soon as they do of the steps that it takes (`Congruence.value`). A relation
between computations with the same results is one if it survives putting them together
(`LevelTransported`).
-/

namespace Spreadsheet

open Evaluation

/-! ## Values by an interpretation -/

/-- A way to compute the values of expressions. -/
structure Interpretation (m : Type → Type) where
  options : Options
  /-- How a function is called. -/
  call : Function → List Value → m Value
  /-- How a level deeper is entered. -/
  deeper : m Value → m Value

/-- The evaluation: a function that draws has the next number, and a level is entered if there is
one left. -/
def Evaluator.interpretation (e : Evaluator) : Interpretation Evaluation where
  options := e.options
  call := e.call
  deeper := level e.options

/-- Functions are called in the same surroundings all the time. -/
def Evaluator.plainCall {m : Type → Type} [Monad m] (e : Evaluator) (f : Function)
    (args : List Value) : m Value :=
  return f.result e.surroundings.fixed args

/-- The naive semantics: no number is drawn, and a level means nothing. -/
def Evaluator.plain (e : Evaluator) (m : Type → Type) [Monad m] : Interpretation m where
  options := e.options
  call := e.plainCall
  deeper := id

section
variable {m : Type → Type} [Monad m] [MonadExceptOf FormulaError m] (i : Interpretation m)
  (read : Coord → m Value)

mutual

/-- The value of an expression, which stands on the left of an operator or not. A call, a negation
and a chain of operands are a level deeper. -/
def Expr.leveledValue (onLeft : Bool) : Expr → m Value
  | .number n => return .number n
  | .text s | .bare s => return .text s
  | .cell c => return (← read c).asOperand
  | .range r => throw (.rangeAsValue r)
  | .negate x => i.deeper do return .ofFinite (-(← x.leveledValue false).toNumber)
  | .binary op l r =>
    let operation : m Value := do
      return op.apply (← l.leveledValue true) (← r.leveledValue false)
    if onLeft then operation else i.deeper operation
  | .call name args => i.deeper do
    match Function.find? name with
    | none => return Sentinel.name.value
    | some f => do i.call f (← Expr.leveledArguments args)

/-- The values of arguments. A blank cell stays blank. -/
def Expr.leveledArguments : List Expr → m (List Value)
  | [] => return []
  | .range r :: args => return (← r.naiveValues i.options read) ++ (← Expr.leveledArguments args)
  | .cell c :: args => return (← read c) :: (← Expr.leveledArguments args)
  | x :: args => return (← x.leveledValue false) :: (← Expr.leveledArguments args)

end

end

section
variable {e : Evaluator} {lookUp : Coord → Evaluation Value}

mutual

/-- The evaluation is an interpretation. -/
theorem Expr.value_eq_leveledValue : (onLeft : Bool) → (x : Expr) →
    x.value e lookUp onLeft = x.leveledValue e.interpretation lookUp onLeft
  | _, .number _ | _, .text _ | _, .bare _ | _, .cell _ | _, .range _ => rfl
  | _, .negate x => by
    rw [Expr.value, Expr.leveledValue, Expr.value_eq_leveledValue false x]
    rfl
  | _, .binary _ l r => by
    rw [Expr.value, Expr.leveledValue, Expr.value_eq_leveledValue true l,
      Expr.value_eq_leveledValue false r]
    rfl
  | _, .call name args => by
    rw [Expr.value, Expr.leveledValue, Expr.arguments_eq_leveledArguments args]
    rfl

/-- Arguments are evaluated by the interpretation of the evaluator. -/
theorem Expr.arguments_eq_leveledArguments : (args : List Expr) →
    Expr.arguments e lookUp args = Expr.leveledArguments e.interpretation lookUp args
  | [] => rfl
  | .range r :: args => by
    rw [Expr.arguments, Expr.leveledArguments, Expr.arguments_eq_leveledArguments args]
    rfl
  | .cell _ :: args => by
    rw [Expr.arguments, Expr.leveledArguments, Expr.arguments_eq_leveledArguments args]
  | x@(.number _) :: args | x@(.text _) :: args | x@(.bare _) :: args
  | x@(.binary ..) :: args | x@(.negate _) :: args | x@(.call ..) :: args => by
    rw [Expr.arguments, Expr.leveledArguments, Expr.value_eq_leveledValue,
      Expr.arguments_eq_leveledArguments args]
    all_goals nofun

end

variable {m : Type → Type} [Monad m] [MonadExceptOf FormulaError m] {read : Coord → m Value}

mutual

/-- The naive semantics is an interpretation. -/
theorem Expr.naiveValue_eq_leveledValue : (onLeft : Bool) → (x : Expr) →
    x.naiveValue e read = x.leveledValue (e.plain m) read onLeft
  | _, .number _ | _, .text _ | _, .bare _ | _, .cell _ | _, .range _ => rfl
  | _, .negate x => by
    rw [Expr.naiveValue, Expr.leveledValue, Expr.naiveValue_eq_leveledValue false x]
    rfl
  | onLeft, .binary _ l r => by
    rw [Expr.naiveValue, Expr.leveledValue, Expr.naiveValue_eq_leveledValue true l,
      Expr.naiveValue_eq_leveledValue false r]
    cases onLeft <;> rfl
  | _, .call name args => by
    rw [Expr.naiveValue, Expr.leveledValue, Expr.naiveArguments_eq_leveledArguments args]
    rfl

/-- Arguments are evaluated naively by the plain interpretation. -/
theorem Expr.naiveArguments_eq_leveledArguments : (args : List Expr) →
    Expr.naiveArguments e read args = Expr.leveledArguments (e.plain m) read args
  | [] => rfl
  | .range _ :: args => by
    rw [Expr.naiveArguments, Expr.leveledArguments, Expr.naiveArguments_eq_leveledArguments args]
    rfl
  | .cell _ :: args => by
    rw [Expr.naiveArguments, Expr.leveledArguments, Expr.naiveArguments_eq_leveledArguments args]
  | x@(.number _) :: args | x@(.text _) :: args | x@(.bare _) :: args
  | x@(.binary ..) :: args | x@(.negate _) :: args | x@(.call ..) :: args => by
    rw [Expr.naiveArguments, Expr.leveledArguments, Expr.naiveValue_eq_leveledValue false,
      Expr.naiveArguments_eq_leveledArguments args]
    all_goals nofun

end

end

/-! ## What passes through expressions -/

/-- Relations between the computations of two interpretations, of values (`V`) and of the values of
arguments (`A`), that every construct keeps whose step has a property (`P`). -/
structure Interpretation.Congruence {m m' : Type → Type} [Monad m] [MonadExceptOf FormulaError m]
    [Monad m'] [MonadExceptOf FormulaError m'] (i : Interpretation m) (i' : Interpretation m')
    (P : Step → Prop) (V : m Value → m' Value → Prop)
    (A : m (List Value) → m' (List Value) → Prop) : Prop where
  maxRangeCells : i.options.maxRangeCells = i'.options.maxRangeCells
  number : ∀ {n : Float}, P (.number n) → V (pure (.number n)) (pure (.number n))
  text : ∀ s : String, V (pure (.text s)) (pure (.text s))
  fail : ∀ error : FormulaError, V (throw error) (throw error)
  operand : ∀ {v v'}, V v v' → V (do return (← v).asOperand) (do return (← v').asOperand)
  negate : ∀ {v v'}, V v v' →
    V (do return .ofFinite (-(← v).toNumber)) (do return .ofFinite (-(← v').toNumber))
  operation : ∀ (op : Operator) {l l' r r'}, V l l' → V r r' →
    V (do return op.apply (← l) (← r)) (do return op.apply (← l') (← r'))
  call : ∀ {name : String} {f : Function} {args args'}, Function.find? name = some f →
    P (.call f) → A args args' →
      V (do i.call f (← args)) (do i'.call f (← args'))
  deeper : ∀ {v v'}, V v v' → V (i.deeper v) (i'.deeper v')
  nil : A (pure []) (pure [])
  cons : ∀ {v v' args args'}, V v v' → A args args' →
    A (do return (← v) :: (← args)) (do return (← v') :: (← args'))
  append : ∀ {vs vs' args args'}, A vs vs' → A args args' →
    A (do return (← vs) ++ (← args)) (do return (← vs') ++ (← args'))
  tooLarge : ∀ error : FormulaError, A (throw error) (throw error)

section
variable {m m' : Type → Type} [Monad m] [MonadExceptOf FormulaError m] [Monad m']
  [MonadExceptOf FormulaError m'] {i : Interpretation m} {i' : Interpretation m'}
  {read : Coord → m Value} {read' : Coord → m' Value}

namespace Interpretation.Congruence

variable {P : Step → Prop} {V : m Value → m' Value → Prop}
  {A : m (List Value) → m' (List Value) → Prop}

/-- The values of cells one after the other. -/
theorem mapM [LawfulMonad m] [LawfulMonad m'] (h : i.Congruence i' P V A)
    {cs : List Coord} (hread : ∀ c ∈ cs, V (read c) (read' c)) :
    A (cs.mapM read) (cs.mapM read') := by
  induction cs with
  | nil => exact h.nil
  | cons c cs ih =>
    obtain ⟨hc, hcs⟩ := List.forall_mem_cons.1 hread
    rw [List.mapM_cons, List.mapM_cons]
    exact h.cons hc (ih hcs)

/-- The values of a range, whose cells are read in related ways. -/
theorem rangeValues [LawfulMonad m] [LawfulMonad m'] (h : i.Congruence i' P V A)
    (hread : ∀ c, P (.read c) → V (read c) (read' c)) (r : Range)
    (hsteps : ∀ step ∈ r.steps i.options, P step) :
    A (r.naiveValues i.options read) (r.naiveValues i'.options read') := by
  unfold Range.naiveValues
  unfold Range.steps at hsteps
  rw [← h.maxRangeCells]
  split
  · exact h.tooLarge _
  · next hlt =>
    rw [if_neg hlt] at hsteps
    exact h.mapM fun c hc => hread c (hsteps _ (List.mem_map_of_mem hc))

mutual

/-- **What passes through expressions.** The values of an expression are related if its steps have
the property and the values of cells are related. -/
theorem value [LawfulMonad m] [LawfulMonad m'] (h : i.Congruence i' P V A)
    (hread : ∀ c, P (.read c) → V (read c) (read' c)) :
    (onLeft : Bool) → (x : Expr) → (∀ step ∈ x.steps i.options, P step) →
    V (x.leveledValue i read onLeft) (x.leveledValue i' read' onLeft)
  | _, .number _, hsteps => h.number (hsteps _ (.head _))
  | _, .text _, _ | _, .bare _, _ => h.text _
  | _, .cell c, hsteps => h.operand (hread c (hsteps _ (.head _)))
  | _, .range _, _ => h.fail _
  | _, .negate x, hsteps => h.deeper (h.negate (value h hread false x hsteps))
  | onLeft, .binary op l r, hsteps => by
    obtain ⟨hl, hr⟩ := List.forall_mem_append.1 hsteps
    have hlr := h.operation op (value h hread true l hl) (value h hread false r hr)
    cases onLeft with
    | true => exact hlr
    | false => exact h.deeper hlr
  | _, .call name args, hsteps => by
    rw [Expr.leveledValue, Expr.leveledValue]
    refine h.deeper ?_
    rw [Expr.steps] at hsteps
    cases hf : Function.find? name with
    | none => exact h.text _
    | some f =>
      rw [hf] at hsteps
      obtain ⟨hargs, hcall⟩ := List.forall_mem_append.1 hsteps
      exact h.call hf (hcall _ (.head _)) (arguments h hread args hargs)

/-- The values of arguments are related if their steps have the property. -/
theorem arguments [LawfulMonad m] [LawfulMonad m'] (h : i.Congruence i' P V A)
    (hread : ∀ c, P (.read c) → V (read c) (read' c)) :
    (args : List Expr) → (∀ step ∈ Expr.argumentSteps i.options args, P step) →
    A (Expr.leveledArguments i read args) (Expr.leveledArguments i' read' args)
  | [], _ => h.nil
  | .range r :: args, hsteps => by
    obtain ⟨hr, hargs⟩ := List.forall_mem_append.1 hsteps
    exact h.append (h.rangeValues hread r hr) (arguments h hread args hargs)
  | .cell c :: args, hsteps => by
    obtain ⟨hc, hargs⟩ := List.forall_mem_append.1 hsteps
    exact h.cons (hread c (hc _ (.head _))) (arguments h hread args hargs)
  | .number _ :: args, hsteps | .text _ :: args, hsteps | .bare _ :: args, hsteps
  | .binary .. :: args, hsteps | .negate _ :: args, hsteps | .call .. :: args, hsteps => by
    obtain ⟨hx, hargs⟩ := List.forall_mem_append.1 hsteps
    exact h.cons (value h hread false _ hx) (arguments h hread args hargs)

end

end Interpretation.Congruence

/-- A relation between computations with the same results that survives putting them together,
calling a function and entering a level. -/
structure LevelTransported {m m' : Type → Type} [Monad m] [MonadExceptOf FormulaError m]
    [Monad m'] [MonadExceptOf FormulaError m'] (i : Interpretation m) (i' : Interpretation m')
    (R : ∀ {α : Type}, m α → m' α → Prop) : Prop where
  maxRangeCells : i.options.maxRangeCells = i'.options.maxRangeCells
  pure : ∀ {α : Type} (a : α), R (pure a) (pure a)
  throw : ∀ {α : Type} (error : FormulaError), R (throw error : m α) (throw error)
  bind : ∀ {α β : Type} {act : m α} {f : α → m β} {act' : m' α} {g : α → m' β},
    R act act' → (∀ a, R (f a) (g a)) → R (act >>= f) (act' >>= g)
  call : ∀ (f : Function) (args : List Value), R (i.call f args) (i'.call f args)
  deeper : ∀ {act : m Value} {act' : m' Value}, R act act' → R (i.deeper act) (i'.deeper act')

namespace LevelTransported

variable {R : ∀ {α : Type}, m α → m' α → Prop}

/-- A relation that passes through every construct is a congruence, whatever the steps are. -/
theorem congruence (h : LevelTransported i i' @R) (P : Step → Prop) : i.Congruence i' P R R where
  maxRangeCells := h.maxRangeCells
  number _ := h.pure _
  text _ := h.pure _
  fail error := h.throw error
  operand hv := h.bind hv fun _ => h.pure _
  negate hv := h.bind hv fun _ => h.pure _
  operation _ _ _ _ _ hl hr := h.bind hl fun _ => h.bind hr fun _ => h.pure _
  call _ _ hargs := h.bind hargs fun _ => h.call _ _
  deeper hv := h.deeper hv
  nil := h.pure []
  cons hv hargs := h.bind hv fun _ => h.bind hargs fun _ => h.pure _
  append hvs hargs := h.bind hvs fun _ => h.bind hargs fun _ => h.pure _
  tooLarge error := h.throw error

/-- The values of an expression are related if those of the cells are that it may read. -/
theorem value_of_steps [LawfulMonad m] [LawfulMonad m'] (h : LevelTransported i i' @R)
    (onLeft : Bool) (x : Expr)
    (hread : ∀ c, .read c ∈ x.steps i.options → R (read c) (read' c)) :
    R (x.leveledValue i read onLeft) (x.leveledValue i' read' onLeft) :=
  (h.congruence (· ∈ x.steps i.options)).value hread onLeft x fun _ hstep => hstep

/-- The values of an expression are related if those of cells are. -/
theorem value [LawfulMonad m] [LawfulMonad m'] (h : LevelTransported i i' @R)
    (hread : ∀ c, R (read c) (read' c)) (onLeft : Bool) (x : Expr) :
    R (x.leveledValue i read onLeft) (x.leveledValue i' read' onLeft) :=
  h.value_of_steps onLeft x fun c _ => hread c

end LevelTransported

end

end Spreadsheet
