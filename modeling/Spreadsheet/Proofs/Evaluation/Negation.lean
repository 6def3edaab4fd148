import Spreadsheet.Proofs.Evaluation.Displayable
import Spreadsheet.Proofs.Evaluation.Agreement
import Spreadsheet.Proofs.Formula.Signs

/-!
# Signs and negations

The signs in front of an operand are folded when a formula is read, and a negation between
parentheses negates a value when it is evaluated. An odd number of minus signs comes to what as many
nested negations come to, wherever the operand stands (`Place`). An even number leaves the operand
as it is, while the negations make a number of it: `--"abc"` is text and `-(-("abc"))` is zero. So
these are the same for an operand that is a number (`Evaluator.tryEvaluate_signs`).
-/

namespace Spreadsheet

open Token

/-! ## Negated values -/

/-- The negation of a value. -/
def Value.negated (v : Value) : Value :=
  .ofFinite (-v.toNumber)

namespace Value

variable {v : Value} {a : Float}

/-- A finite number is a value as it is. -/
theorem ofFinite_of_isFinite (h : Number.isFinite a = true) : ofFinite a = .number a := by
  rw [ofFinite, Number.finiteOrZero, if_pos h]

/-- A finite value counts as a finite number. -/
theorem isFinite_toNumber (h : v.IsFinite) : Number.isFinite v.toNumber = true := by
  cases v with
  | blank => exact Number.isFinite_zero
  | number n => exact h
  | text s =>
    change Number.isFinite ((Number.ofText? s).getD 0) = true
    cases hs : Number.ofText? s with
    | none => exact Number.isFinite_zero
    | some n => exact Number.isFinite_of_ofText? hs

/-- A finite number is negated to its negative. -/
theorem negated_number (h : Number.isFinite a = true) : (number a).negated = .number (-a) :=
  ofFinite_of_isFinite (Number.isFinite_neg h)

/-- Two negations make a number of a value. -/
theorem negated_negated (h : v.IsFinite) : v.negated.negated = .number v.toNumber := by
  have hfinite := isFinite_toNumber h
  have hv : v.negated = .number (-v.toNumber) := ofFinite_of_isFinite (Number.isFinite_neg hfinite)
  rw [hv, negated_number (Number.isFinite_neg hfinite), Number.neg_neg_of_isFinite hfinite]

@[simp] theorem negated_displayed (v : Value) : v.displayed.negated = v.negated := by
  cases v with
  | blank => rfl
  | number | text => rfl

@[simp] theorem displayed_negated (v : Value) : v.negated.displayed = v.negated := rfl

/-- What is negated is finite. -/
theorem isFinite_negated (v : Value) : v.negated.IsFinite :=
  Number.isFinite_finiteOrZero _

/-- Two negations of a negation cancel each other. -/
theorem negated_negated_negated (v : Value) : v.negated.negated.negated = v.negated :=
  negated_negated v.isFinite_negated

/-- Of nested negations it only matters whether their number is odd. -/
theorem iterate_negated (v : Value) (n : Nat) :
    negated^[n + 1] v = if Odd (n + 1) then v.negated else v.negated.negated := by
  induction n with
  | zero => rfl
  | succ n ih =>
    rw [Function.iterate_succ_apply', ih]
    by_cases hodd : Odd (n + 1)
    · rw [if_pos hodd, if_neg (mt Nat.odd_add_one.1 (not_not.2 hodd))]
    · rw [if_neg hodd, if_pos (Nat.odd_add_one.2 hodd), negated_negated_negated]

end Value

/-! ## Negated expressions -/

section
variable {m : Type → Type} [Monad m] [LawfulMonad m] [MonadExceptOf FormulaError m]
  {e : Evaluator} {read : Coord → m Value} {x : Expr}

/-- A sign in front of an expression negates its value. -/
theorem Expr.naiveValue_negated (h : x.FiniteNumbers e.options) :
    x.negated.naiveValue e read = Value.negated <$> x.naiveValue e read := by
  cases x with
  | number n =>
    have hn : Value.negated (.number n) = .number (-n) := Value.negated_number (h n (.head _))
    rw [Expr.negated, Expr.naiveValue, Expr.naiveValue, map_pure, hn]
  | text | bare | cell | range | binary | negate | call =>
    change (Expr.negate _).naiveValue e read = _
    rw [Expr.naiveValue, map_eq_pure_bind]
    rfl

/-- Several signs negate it as often. -/
theorem Expr.naiveValue_iterate_negated (h : x.FiniteNumbers e.options) (n : Nat) :
    (Expr.negated^[n] x).FiniteNumbers e.options ∧
      (Expr.negated^[n] x).naiveValue e read = Value.negated^[n] <$> x.naiveValue e read := by
  induction n with
  | zero => exact ⟨h, (id_map _).symm⟩
  | succ n ih =>
    rw [Function.iterate_succ_apply', Expr.naiveValue_negated ih.1, ih.2, ← comp_map,
      Function.iterate_succ']
    exact ⟨(Expr.inherited_finiteNumbers e.options).negated ih.1, rfl⟩

/-- It only matters whether the number of signs is odd. -/
theorem Expr.naiveValue_negations (h : x.FiniteNumbers e.options) (n : Nat) :
    (Expr.negated^[n + 1] x).naiveValue e read =
      (fun v => if Odd (n + 1) then v.negated else v.negated.negated) <$> x.naiveValue e read := by
  rw [(Expr.naiveValue_iterate_negated h (n + 1)).2]
  exact congrArg (· <$> x.naiveValue e read) (funext fun v => v.iterate_negated n)

end

/-! ## Arguments -/

section
variable {m : Type → Type} [Monad m] [MonadExceptOf FormulaError m] {e : Evaluator}
  {read : Coord → m Value} {x : Expr}

/-- An expression with a sign in front stands for its value as an argument, too. -/
theorem Expr.naiveArguments_negated (x : Expr) (args : List Expr) :
    Expr.naiveArguments e read (x.negated :: args) = (do
      return (← x.negated.naiveValue e read) :: (← Expr.naiveArguments e read args)) := by
  cases x with
  | number | text | bare | cell | range | binary | negate | call =>
    rw [Expr.negated, Expr.naiveArguments] <;> nofun

/-- Arguments that stand for the same do so after others. -/
theorem Expr.naiveArguments_append {args args' : List Expr}
    (h : Expr.naiveArguments e read args = Expr.naiveArguments e read args')
    (before : List Expr) :
    Expr.naiveArguments e read (before ++ args) = Expr.naiveArguments e read (before ++ args') := by
  induction before with
  | nil => exact h
  | cons y before ih =>
    rw [List.cons_append, List.cons_append]
    cases y with
    | range | cell => rw [Expr.naiveArguments, Expr.naiveArguments, ih]
    | number | text | bare | binary | negate | call =>
      rw [Expr.naiveArguments, Expr.naiveArguments, ih] <;> nofun

end

/-! ## Places of an operand -/

/-- Tokens that are read as an argument. -/
structure SpelledArgument (o : Options) where
  tokens : List Token
  operand : Expr
  reads : ReadsAs o (o.maxNesting - 1) tokens operand

/-- Where an operand stands in a formula. -/
inductive Place (o : Options) where
  /-- The operand is the formula. -/
  | alone
  /-- The formula is a call, and the operand stands among its arguments. -/
  | argument (name : String) (before after : List (SpelledArgument o))

section
variable {o o' : Options} {ts : List Token} {x y : Expr}

/-- The tokens of a formula with an operand at a place. -/
def Place.tokens : Place o → List Token → List Token
  | alone, ts => ts
  | argument name before after, ts =>
    word name ::
      grouped ([mark ","].intercalate (before.map (·.tokens) ++ ts :: after.map (·.tokens)))

/-- The expression of a formula with an operand at a place. -/
def Place.expr : Place o → Expr → Expr
  | alone, x => x
  | argument name before after, x =>
    .call (Text.upper name) (before.map (·.operand) ++ x :: after.map (·.operand))

/-- Arguments are read with commas between them. -/
theorem SpelledArgument.readsArguments : (args : List (SpelledArgument o)) →
    ReadsArguments o (o.maxNesting - 1) ([mark ","].intercalate (args.map (·.tokens)))
      (args.map (·.operand))
  | [] => readsArguments_nil
  | [arg] => by
    have htokens : [mark ","].intercalate ([arg].map (·.tokens)) = arg.tokens := by
      simp [List.intercalate]
    rw [htokens]
    exact readsArguments_singleton arg.reads
  | arg :: arg' :: args => by
    have htokens : [mark ","].intercalate ((arg :: arg' :: args).map (·.tokens)) =
        arg.tokens ++ mark "," :: [mark ","].intercalate ((arg' :: args).map (·.tokens)) := by
      simp [List.intercalate]
    rw [htokens]
    exact readsArguments_cons arg.reads (SpelledArgument.readsArguments (arg' :: args))

/-- What spells an operand is read as it at every place. -/
theorem Place.ofTokens (p : Place o') (h : SpellsOperand o ts x) (ho : o'.grouping = o.grouping)
    (hroom : o.maxNesting + 1 ≤ o'.maxNesting) :
    Expr.ofTokens o' (p.tokens ts) = .ok (p.expr x) := by
  cases p with
  | alone => exact (h.readsAs ho (by omega)).ofTokens
  | argument name before after =>
    let arg : SpelledArgument o' := ⟨ts, x, h.readsAs ho (by omega)⟩
    have hargs := (SpelledArgument.readsArguments (before ++ arg :: after)).call name
    rw [Nat.sub_add_cancel (by omega), List.map_append, List.map_append] at hargs
    exact hargs.ofTokens

/-- Operands with the same value that stand for the same among arguments may be exchanged. -/
theorem Place.naiveValue_congr {e : Evaluator} {read : Coord → Naive Value} (p : Place o)
    (hvalue : x.naiveValue e read = y.naiveValue e read)
    (harguments : p ≠ .alone → ∀ args, Expr.naiveArguments e read (x :: args) =
      Expr.naiveArguments e read (y :: args)) :
    (p.expr x).naiveValue e read = (p.expr y).naiveValue e read := by
  cases p with
  | alone => exact hvalue
  | argument name before after =>
    rw [Place.expr, Place.expr, Expr.naiveValue, Expr.naiveValue]
    cases Function.find? (Text.upper name) with
    | none => rfl
    | some f =>
      dsimp only
      rw [Expr.naiveArguments_append (harguments nofun _)]

end

/-! ## Evaluations -/

section
variable {e : Evaluator} {cells : Cells} {current : Option Coord} {fuel : Nat}
  {waiting : List Coord} {x : Expr} {a : Float}

/-- A formula that is read comes to the value of its expression in the naive semantics. -/
theorem Naive.tryEvaluate_of_ofTokens {text : String}
    (h : Expr.ofTokens e.options (tokenize (formulaBody text)) = .ok x) :
    Naive.tryEvaluate e cells current text fuel =
      (x.naiveValue e (Naive.cell e cells fuel current.toList) >>=
        fun v => pure v.displayed).run := by
  rw [Naive.tryEvaluate, Naive.formula, Expr.ofFormula, h]
  rfl

/-- Evaluations that are told by each other from some clock on have results that are. -/
theorem Naive.Yields.eq_of_map {α : Type} {act act' : Nat → Option (Except FormulaError α)}
    {r r' : Except FormulaError α} (h : Yields act r) (h' : Yields act' r')
    {f : Except FormulaError α → Except FormulaError α} {n : Nat}
    (hmap : ∀ fuel, n ≤ fuel → act' fuel = (act fuel).map f) : r' = f r := by
  obtain ⟨k, hk⟩ := h
  refine h'.unique ⟨max n k, fun fuel hle => ?_⟩
  rw [hmap fuel (le_trans (le_max_left ..) hle), hk fuel (le_trans (le_max_right ..) hle)]
  rfl

/-- A cell that is not blank has a value that is not blank. -/
theorem Naive.cell_ne_blank {c : Coord} {v : Value} (hc : cells c ≠ .value .blank)
    (h : (Naive.cell e cells fuel waiting c).run = some (.ok v)) : v ≠ .blank := by
  rintro rfl
  rcases cell_eq_some h with ⟨-, ⟨⟩⟩ | ⟨-, w, hw, ⟨⟩⟩ | ⟨-, text, fuel', r', -, -, hr', hresult⟩
  · exact hc hw
  · cases r' with
    | error error =>
      unfold cellResult at hresult
      dsimp only at hresult
      split at hresult <;> cases hresult
    | ok w =>
      cases hresult
      rcases bind_eq_some hr' with ⟨error, -, ⟨⟩⟩ | ⟨y, -, hy⟩
      rcases bind_eq_some hy with ⟨error, -, ⟨⟩⟩ | ⟨w, -, hw⟩
      cases w <;> cases hw

/-- An operand that is a number and no blank cell stands for the number as an argument. -/
theorem Naive.arguments_of_number
    (hvalue : (x.naiveValue e (Naive.cell e cells fuel waiting)).run = some (.ok (.number a)))
    (hcell : ∀ c, x = .cell c → cells c ≠ .value .blank) (args : List Expr) :
    Expr.naiveArguments e (Naive.cell e cells fuel waiting) (x :: args) = (do
      return .number a :: (← Expr.naiveArguments e (Naive.cell e cells fuel waiting) args)) := by
  cases x with
  | range r => cases hvalue
  | cell c =>
    rcases bind_eq_some hvalue with ⟨error, -, ⟨⟩⟩ | ⟨v, hv, hoperand⟩
    have hnumber : v = .number a := by
      cases v with
      | blank => exact absurd rfl (cell_ne_blank (hcell c rfl) hv)
      | number n =>
        cases hoperand
        rfl
      | text s => cases hoperand
    rw [Expr.naiveArguments, bind_of_ok hv, hnumber]
  | number | text | bare | binary | negate | call =>
    rw [Expr.naiveArguments, bind_of_ok hvalue]
    all_goals nofun

/-- Where an operand is negated twice, its number is displayed instead of it. -/
theorem Naive.run_negated_negated (value : Naive Value) :
    ((fun v => Value.negated (Value.negated v)) <$> value >>= fun v => pure v.displayed).run =
      (value >>= fun v => pure v.displayed).run.map
        (Except.map fun v => v.negated.negated) := by
  match value with
  | none | some (.error error) => rfl
  | some (.ok v) =>
    refine congrArg (fun w => some (Except.ok w)) ?_
    change v.negated.negated.displayed = v.displayed.negated.negated
    rw [Value.displayed_negated, Value.negated_displayed]

end

section
variable {e : Evaluator} {cells : Cells} {current : Option Coord} {place : Place e.options}
  {text text' : String} {x y : Expr}

/-- Operands that stand for the same from some clock on have the same result at their place. -/
theorem Evaluator.tryEvaluate_congr
    (htext : Expr.ofTokens e.options (tokenize (formulaBody text)) = .ok (place.expr x))
    (htext' : Expr.ofTokens e.options (tokenize (formulaBody text')) = .ok (place.expr y))
    (hrandom : ¬ ReachesRandom e.options cells text)
    (hrandom' : ¬ ReachesRandom e.options cells text')
    (hdeep : ¬ TooDeep (e.tryEvaluate cells current text))
    (hdeep' : ¬ TooDeep (e.tryEvaluate cells current text')) {n : Nat}
    (hsame : ∀ fuel, n ≤ fuel →
      x.naiveValue e (Naive.cell e cells fuel current.toList) =
        y.naiveValue e (Naive.cell e cells fuel current.toList) ∧
      (place ≠ .alone → ∀ args,
        Expr.naiveArguments e (Naive.cell e cells fuel current.toList) (x :: args) =
          Expr.naiveArguments e (Naive.cell e cells fuel current.toList) (y :: args))) :
    e.tryEvaluate cells current text = e.tryEvaluate cells current text' := by
  have hyields := e.yields_tryEvaluate cells current text hrandom hdeep
  have hyields' := e.yields_tryEvaluate cells current text' hrandom' hdeep'
  refine (hyields.eq_of_map hyields' (f := id) (n := n) fun fuel hle => ?_).symm
  obtain ⟨hvalue, harguments⟩ := hsame fuel hle
  rw [Naive.tryEvaluate_of_ofTokens htext, Naive.tryEvaluate_of_ofTokens htext',
    place.naiveValue_congr hvalue harguments, Option.map_id, id]

/-- What has a number as its result has it as its value, from some clock on. -/
theorem Evaluator.exists_value_of_number {a : Float}
    (htext : Expr.ofTokens e.options (tokenize (formulaBody text)) = .ok x)
    (hrandom : ¬ ReachesRandom e.options cells text)
    (h : e.tryEvaluate cells current text = .ok (.number a)) :
    ∃ n, ∀ fuel, n ≤ fuel →
      (x.naiveValue e (Naive.cell e cells fuel current.toList)).run = some (.ok (.number a)) := by
  have hdeep : ¬ TooDeep (e.tryEvaluate cells current text) := by
    rw [h]
    rintro ⟨limit, ⟨⟩⟩
  obtain ⟨n, hn⟩ := e.yields_tryEvaluate cells current text hrandom hdeep
  refine ⟨n, fun fuel hle => ?_⟩
  have hvalue := hn fuel hle
  rw [h, Naive.tryEvaluate_of_ofTokens htext] at hvalue
  rcases Naive.bind_eq_some hvalue with ⟨error, -, ⟨⟩⟩ | ⟨v, hv, hdisplayed⟩
  cases v with
  | blank | text => cases hdisplayed
  | number =>
    cases hdisplayed
    exact hv

/-- Negations stand for their value as an argument, too. -/
theorem Expr.naiveArguments_negations {m : Type → Type} [Monad m] [MonadExceptOf FormulaError m]
    {read : Coord → m Value} (x : Expr) (n : Nat) (args : List Expr) :
    Expr.naiveArguments e read (Expr.negated^[n + 1] x :: args) = (do
      return (← (Expr.negated^[n + 1] x).naiveValue e read) ::
        (← Expr.naiveArguments e read args)) := by
  rw [Function.iterate_succ_apply']
  exact Expr.naiveArguments_negated _ args

variable {n : Nat}

/-- An odd number of negations is one negation. -/
theorem Evaluator.tryEvaluate_negations_of_odd (hx : x.FiniteNumbers e.options)
    (htext : Expr.ofTokens e.options (tokenize (formulaBody text)) = .ok (place.expr x.negated))
    (htext' : Expr.ofTokens e.options (tokenize (formulaBody text')) =
      .ok (place.expr (Expr.negated^[n + 1] x)))
    (hrandom : ¬ ReachesRandom e.options cells text)
    (hrandom' : ¬ ReachesRandom e.options cells text')
    (hdeep : ¬ TooDeep (e.tryEvaluate cells current text))
    (hdeep' : ¬ TooDeep (e.tryEvaluate cells current text')) (hodd : Odd (n + 1)) :
    e.tryEvaluate cells current text = e.tryEvaluate cells current text' := by
  refine e.tryEvaluate_congr htext htext' hrandom hrandom' hdeep hdeep' (n := 0) fun fuel _ => ?_
  have hvalue : x.negated.naiveValue e (Naive.cell e cells fuel current.toList) =
      (Expr.negated^[n + 1] x).naiveValue e (Naive.cell e cells fuel current.toList) := by
    rw [Expr.naiveValue_negations hx, Expr.naiveValue_negated hx]
    simp only [if_pos hodd]
  refine ⟨hvalue, fun _ args => ?_⟩
  rw [Expr.naiveArguments_negated, hvalue, Expr.naiveArguments_negations]

/-- An even number of negations makes a number of the result. -/
theorem Evaluator.tryEvaluate_negations_of_even (hx : x.FiniteNumbers e.options)
    (htext : Expr.ofTokens e.options (tokenize (formulaBody text)) = .ok x)
    (htext' : Expr.ofTokens e.options (tokenize (formulaBody text')) =
      .ok (Expr.negated^[n + 1] x))
    (hrandom : ¬ ReachesRandom e.options cells text)
    (hrandom' : ¬ ReachesRandom e.options cells text')
    (hdeep : ¬ TooDeep (e.tryEvaluate cells current text))
    (hdeep' : ¬ TooDeep (e.tryEvaluate cells current text')) (heven : Even (n + 1))
    (hfinite : ∀ v, e.tryEvaluate cells current text = .ok v → v.IsFinite) :
    e.tryEvaluate cells current text' =
      (e.tryEvaluate cells current text).map fun v => .number v.toNumber := by
  have hyields := e.yields_tryEvaluate cells current text hrandom hdeep
  have hyields' := e.yields_tryEvaluate cells current text' hrandom' hdeep'
  have hmap := hyields.eq_of_map hyields' (n := 0)
    (f := Except.map fun v => v.negated.negated) fun fuel _ => by
      rw [Naive.tryEvaluate_of_ofTokens htext, Naive.tryEvaluate_of_ofTokens htext',
        Expr.naiveValue_negations hx]
      simp only [if_neg (Nat.not_odd_iff_even.2 heven)]
      exact Naive.run_negated_negated _
  rw [hmap]
  cases hresult : e.tryEvaluate cells current text with
  | error error => rfl
  | ok v => exact congrArg Except.ok (Value.negated_negated (hfinite v hresult))

/-- An even number of negations leaves an operand as it is that is a number and, among arguments,
no blank cell. -/
theorem Evaluator.tryEvaluate_negations_of_even_of_number (hx : x.FiniteNumbers e.options)
    (htext : Expr.ofTokens e.options (tokenize (formulaBody text)) = .ok (place.expr x))
    (htext' : Expr.ofTokens e.options (tokenize (formulaBody text')) =
      .ok (place.expr (Expr.negated^[n + 1] x)))
    (hrandom : ¬ ReachesRandom e.options cells text)
    (hrandom' : ¬ ReachesRandom e.options cells text')
    (hdeep : ¬ TooDeep (e.tryEvaluate cells current text))
    (hdeep' : ¬ TooDeep (e.tryEvaluate cells current text')) (heven : Even (n + 1))
    {plain : String} {a : Float}
    (hplain : Expr.ofTokens e.options (tokenize (formulaBody plain)) = .ok x)
    (hrandomPlain : ¬ ReachesRandom e.options cells plain)
    (hnumber : e.tryEvaluate cells current plain = .ok (.number a))
    (hfinite : Number.isFinite a = true)
    (hcell : place ≠ .alone → ∀ c, x = .cell c → cells c ≠ .value .blank) :
    e.tryEvaluate cells current text = e.tryEvaluate cells current text' := by
  obtain ⟨k, hk⟩ := e.exists_value_of_number hplain hrandomPlain hnumber
  refine e.tryEvaluate_congr htext htext' hrandom hrandom' hdeep hdeep' (n := k) fun fuel hle => ?_
  have hvalue := hk fuel hle
  have hvalue' : ((Expr.negated^[n + 1] x).naiveValue e
      (Naive.cell e cells fuel current.toList)).run = some (.ok (.number a)) := by
    rw [Expr.naiveValue_negations hx, map_eq_pure_bind, Naive.bind_of_ok hvalue,
      if_neg (Nat.not_odd_iff_even.2 heven), Value.negated_negated (v := .number a) hfinite]
    rfl
  refine ⟨hvalue.trans hvalue'.symm, fun hplace args => ?_⟩
  rw [Naive.arguments_of_number hvalue (hcell hplace), Expr.naiveArguments_negations,
    Naive.bind_of_ok hvalue']

end

/-- **Folded signs and nested negations.** Where no number is drawn, an operand with an odd number
of minus signs in front comes to the same as with as many negations around it, as a formula of its
own and as an argument of a function. With an even number it is evaluated as if there were no signs.
So as a formula of its own the negations come to the number of its result, and both come to the same
for an operand that is a number; as an argument, too, if it is no blank cell. -/
theorem Evaluator.tryEvaluate_signs (e : Evaluator) (cells : Cells) (current : Option Coord)
    {o : Options} {ts signs : List Token} {x : Expr} (hx : SpellsPrimary o ts x)
    (hgrouping : e.options.grouping = o.grouping)
    (hsigns : ∀ t ∈ signs, t.isSign = true) (hminus : 1 ≤ minuses signs)
    (hnesting : o.maxNesting + minuses signs + 1 ≤ e.options.maxNesting)
    (hplain : ∀ c v, cells c = .value v → v.IsFinite) (place : Place e.options)
    {signed nested : String}
    (hsigned : tokenize (formulaBody signed) = place.tokens (signs ++ ts))
    (hnested : tokenize (formulaBody nested) = place.tokens (negations (minuses signs) ts))
    (hrandom : ¬ ReachesRandom e.options cells signed)
    (hrandom' : ¬ ReachesRandom e.options cells nested)
    (hdeep : ¬ TooDeep (e.tryEvaluate cells current signed))
    (hdeep' : ¬ TooDeep (e.tryEvaluate cells current nested)) :
    (Odd (minuses signs) →
      e.tryEvaluate cells current signed = e.tryEvaluate cells current nested) ∧
    (Even (minuses signs) → ∀ unsigned : String,
      tokenize (formulaBody unsigned) = place.tokens ts →
      ¬ ReachesRandom e.options cells unsigned →
      ¬ TooDeep (e.tryEvaluate cells current unsigned) →
        e.tryEvaluate cells current signed = e.tryEvaluate cells current unsigned) ∧
    (Even (minuses signs) → place = .alone →
      e.tryEvaluate cells current nested =
        (e.tryEvaluate cells current signed).map fun v => .number v.toNumber) ∧
    (Even (minuses signs) → ∀ (plain : String) (a : Float),
      tokenize (formulaBody plain) = ts → ¬ ReachesRandom e.options cells plain →
      e.tryEvaluate cells current plain = .ok (.number a) →
      (place ≠ .alone → ∀ c, x = .cell c → cells c ≠ .value .blank) →
        e.tryEvaluate cells current signed = e.tryEvaluate cells current nested) := by
  obtain ⟨n, hn⟩ := Nat.exists_eq_add_of_le' hminus
  have hreads : ReadsAs o o.maxNesting ts x := hx.spells.readsAs rfl (le_refl _)
  have hfinite : x.FiniteNumbers e.options :=
    (Expr.inherited_finiteNumbers e.options).ofTokens hreads.ofTokens
  have hread := place.ofTokens (hx.signed hsigns) hgrouping (by omega)
  have hread' := place.ofTokens (hx.spells.negations (minuses signs)) hgrouping
    (by rw [Options.deepen]; omega)
  rw [← hsigned] at hread
  rw [← hnested, hn] at hread'
  rw [hn] at hread ⊢
  refine ⟨fun hodd => ?_, fun heven unsigned hunsigned hrandom'' hdeep'' => ?_,
    fun heven halone => ?_, fun heven plain a hplain' hrandomPlain hnumber hcell => ?_⟩
  · rw [if_pos hodd] at hread
    exact e.tryEvaluate_negations_of_odd hfinite hread hread' hrandom hrandom' hdeep hdeep' hodd
  · rw [if_neg (Nat.not_odd_iff_even.2 heven)] at hread
    have hread'' := place.ofTokens hx.spells hgrouping (by omega)
    rw [← hunsigned] at hread''
    exact e.tryEvaluate_congr hread hread'' hrandom hrandom'' hdeep hdeep'' (n := 0)
      fun fuel _ => ⟨rfl, fun _ args => rfl⟩
  · subst halone
    rw [if_neg (Nat.not_odd_iff_even.2 heven)] at hread
    refine e.tryEvaluate_negations_of_even hfinite hread hread' hrandom hrandom' hdeep hdeep' heven
      fun v hv => ?_
    exact (e.displayable_of_not_reachesRandom hrandom hplain current hv).isFinite
  · rw [if_neg (Nat.not_odd_iff_even.2 heven)] at hread
    have hreadPlain : Expr.ofTokens e.options (tokenize (formulaBody plain)) = .ok x := by
      rw [hplain']
      exact (hx.spells.readsAs hgrouping (by omega)).ofTokens
    have ha := e.displayable_of_not_reachesRandom hrandomPlain hplain current hnumber
    exact e.tryEvaluate_negations_of_even_of_number hfinite hread hread' hrandom hrandom' hdeep
      hdeep' heven hreadPlain hrandomPlain hnumber ha hcell

/-- Two minus signs and a plus sign in front of the second argument of a call. -/
theorem Evaluator.tryEvaluate_signs_argument :
    let e : Evaluator := { surroundings := ⟨0, 0⟩ }
    let cells : Cells := fun c => if c = ⟨0, 0⟩ then .value (.number 3) else .value .blank
    e.tryEvaluate cells none "=SUM(1,-+-A1)" = .ok (.number 4) ∧
      e.tryEvaluate cells none "=SUM(1,-+-A1)" = e.tryEvaluate cells none "=SUM(1,-(-(A1)))" := by
  intro e cells
  refine ⟨by decide +kernel, ?_⟩
  have haddress : Coord.toText ⟨0, 0⟩ = "A1" := by decide +kernel
  have hword : Expr.ofWord "A1" = .ok (.cell ⟨0, 0⟩) := by
    rw [← haddress]
    exact Expr.ofWord_toText (by decide)
  have hone : Expr.ofWord "1" = .ok (.number 1) := Expr.ofWord_of_number (by decide +kernel)
  have hx : SpellsPrimary { maxNesting := 0 } [word "A1"] (.cell ⟨0, 0⟩) :=
    ⟨spellsOperand_word hword, by rintro t ⟨⟩; rfl⟩
  have hplain : ∀ c v, cells c = .value v → v.IsFinite := by
    intro c v hv
    dsimp only [cells] at hv
    split at hv
    · cases hv
      exact (by decide : Number.isFinite 3 = true)
    · cases hv
      trivial
  let place : Place e.options := .argument "SUM" [⟨[word "1"], .number 1, readsAs_word hone⟩] []
  have hsigned : tokenize (formulaBody "=SUM(1,-+-A1)") = word "SUM" ::
      grouped [word "1", mark ",", mark "-", mark "+", mark "-", word "A1"] := by
    decide +kernel
  have hnested : tokenize (formulaBody "=SUM(1,-(-(A1)))") = word "SUM" ::
      grouped (word "1" :: mark "," :: negations 2 [word "A1"]) := by
    decide +kernel
  have hrandom : ∀ text, (Expr.ofFormula e.options text).toOption.all
      (!·.callsRandom e.options) = true → ¬ ReachesRandom e.options cells text := by
    refine fun text htext => not_reachesRandom htext fun c text' hc => ?_
    dsimp only [cells] at hc
    split at hc <;> cases hc
  have hnumber : e.tryEvaluate cells none "=A1" = .ok (.number 3) := by decide +kernel
  have hsigns : ∀ t ∈ [mark "-", mark "+", mark "-"], t.isSign = true := by decide
  obtain ⟨-, -, -, heven⟩ := e.tryEvaluate_signs cells none hx rfl hsigns (by decide) (by decide)
    hplain place hsigned hnested (hrandom _ (by decide +kernel)) (hrandom _ (by decide +kernel))
    (by decide +kernel) (by decide +kernel)
  exact heven (by decide) "=A1" 3 (by decide +kernel) (hrandom _ (by decide +kernel)) hnumber (by
    rintro - c ⟨⟩ hblank
    cases hblank)

/-- Text is left as it is by two minus signs, and it is no number. -/
theorem Evaluator.not_tryEvaluate_signs :
    ¬ ∀ (e : Evaluator) (cells : Cells) (current : Option Coord) (o : Options)
      (ts signs : List Token) (x : Expr), SpellsPrimary o ts x → e.options.grouping = o.grouping →
      (∀ t ∈ signs, t.isSign = true) → 1 ≤ minuses signs →
      o.maxNesting + minuses signs + 1 ≤ e.options.maxNesting →
      (∀ c v, cells c = .value v → v.IsFinite) →
      ∀ (place : Place e.options) (signed nested : String),
        tokenize (formulaBody signed) = place.tokens (signs ++ ts) →
        tokenize (formulaBody nested) = place.tokens (negations (minuses signs) ts) →
        ¬ ReachesRandom e.options cells signed → ¬ ReachesRandom e.options cells nested →
        ¬ TooDeep (e.tryEvaluate cells current signed) →
        ¬ TooDeep (e.tryEvaluate cells current nested) →
          e.tryEvaluate cells current signed = e.tryEvaluate cells current nested := by
  intro h
  let e : Evaluator := { surroundings := ⟨0, 0⟩ }
  let cells : Cells := fun _ => .value .blank
  have hx : SpellsPrimary { maxNesting := 0 } [quoted "abc"] (.text (quoted "abc").unquoted) :=
    ⟨spellsOperand_iff.2 ⟨_, rfl, rfl, rfl, rfl⟩, by rintro t ⟨⟩; rfl⟩
  have hplain : ∀ c v, cells c = .value v → v.IsFinite := by
    rintro c v ⟨⟩
    trivial
  have hrandom : ∀ text, (Expr.ofFormula e.options text).toOption.all
      (!·.callsRandom e.options) = true → ¬ ReachesRandom e.options cells text :=
    fun text htext => not_reachesRandom htext nofun
  have hsame := h e cells none _ _ [mark "-", mark "-"] _ hx rfl (by decide) (by decide)
    (by decide) hplain .alone "=--\"abc\"" "=-(-(\"abc\"))" (by decide +kernel)
    (by decide +kernel) (hrandom _ (by decide +kernel)) (hrandom _ (by decide +kernel))
    (by decide +kernel) (by decide +kernel)
  exact absurd hsame (by decide +kernel)

end Spreadsheet
