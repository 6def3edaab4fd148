import Spreadsheet.Proofs.Evaluation.Constructs

/-!
# What random numbers decide

Two evaluations of a formula with the same options and the same clock that draw different random
numbers go alike: they look up the same cells in the same order, settle the same cells, and both end
with a value or with the same error (`Evaluator.session_alike`). If no function that draws is called
in the formula or in one that it leads to (`ReachesRandom`), the values are the same as well. So
what is known of evaluations that draw one number over and over (`Evaluator.fixed`) is known of all,
of the results only where no number is drawn.
-/

namespace Spreadsheet

open Evaluation

/-! ## Functions that draw -/

namespace Function

/-- Whether a function looks at nothing but its arguments and the clock. -/
def Timed (f : Function) : Prop :=
  ∀ (s s' : Surroundings) (args : List Value), s.clock = s'.clock →
    f.result s args = f.result s' args

/-- No function draws but `RAND`. -/
theorem draws_iff : ∀ f ∈ all, f.draws = true ↔ f.name = "RAND" := by
  decide

/-- Functions that do not draw look at no random number. -/
theorem timed_of_not_draws : ∀ f ∈ all, f.draws = false → f.Timed := by
  simp +contextual [all, aggregates, numerics, logics, wordings, dates, steady, ambient, Timed]

/-- Every function that is found looks at nothing but its arguments and the clock, except `RAND`. -/
theorem timed_of_find? {name : String} {f : Function} (h : find? name = some f)
    (hname : f.name ≠ "RAND") : f.Timed := by
  unfold find? at h
  have hf : f ∈ all := List.mem_of_find?_eq_some h
  exact timed_of_not_draws f hf (Bool.eq_false_iff.2 (mt (draws_iff f hf).1 hname))

end Function

/-- Whether a call of `RAND` is in a formula, or in the formula of a cell that it mentions, and so
on. -/
inductive ReachesRandom (o : Options) (cells : Cells) : String → Prop
  | call {text : String} {x : Expr} {f : Function} (hx : Expr.ofFormula o text = .ok x)
    (hf : .call f ∈ x.steps o) (hname : f.name = "RAND") : ReachesRandom o cells text
  | cell {text text' : String} {c : Coord} (hc : Mentions o text c) (ht : cells c = .formula text')
    (h : ReachesRandom o cells text') : ReachesRandom o cells text

/-- Whether an expression calls `RAND`. -/
def Expr.callsRandom (o : Options) (x : Expr) : Bool :=
  (x.steps o).any fun
    | .call f => f.name == "RAND"
    | _ => false

/-- No formula reaches `RAND` if none calls it. -/
theorem not_reachesRandom {o : Options} {cells : Cells} {text : String}
    (htext : (Expr.ofFormula o text).toOption.all (!·.callsRandom o) = true)
    (hcells : ∀ c text', cells c = .formula text' →
      (Expr.ofFormula o text').toOption.all (!·.callsRandom o) = true) :
    ¬ ReachesRandom o cells text := by
  intro h
  induction h with
  | @call text x f hx hf hname =>
    rw [hx] at htext
    have hcalls : x.callsRandom o = true := List.any_eq_true.2 ⟨_, hf, beq_iff_eq.2 hname⟩
    simp [Except.toOption, hcalls] at htext
  | cell _ ht _ ih => exact ih (hcells _ _ ht)

/-! ## Computations that go alike -/

section
variable {α β : Type}

/-- Two results without a failure, or with the same one. -/
def SameEnd (r r' : Except FormulaError α) : Prop :=
  r.map (fun _ => ()) = r'.map fun _ => ()

section
variable {r r' : Except FormulaError α}

/-- A failure of the one is a failure of the other. -/
theorem SameEnd.error_iff (h : SameEnd r r') (error : FormulaError) :
    r = .error error ↔ r' = .error error := by
  cases r <;> cases r' <;> cases h <;> simp

/-- Both are too deep or neither is. -/
theorem SameEnd.tooDeep_iff (h : SameEnd r r') : TooDeep r ↔ TooDeep r' :=
  exists_congr fun _ => h.error_iff _

/-- Both find a circle or neither does. -/
theorem SameEnd.circular_iff (h : SameEnd r r') : Circular r ↔ Circular r' :=
  exists_congr fun _ => h.error_iff _

/-- Both have a failure that cells keep to themselves, or neither has. -/
theorem SameEnd.contained_iff (h : SameEnd r r') : Contained r ↔ Contained r' :=
  forall_congr' fun error => imp_congr_left (h.error_iff error)

end

/-- Two sessions that differ in the values of cells and in the numbers drawn at most, and where `p`
holds, not in values. -/
structure Evaluation.Session.Alike (p : Prop) (s s' : Session) : Prop where
  frame : s'.frame = s.frame
  lookups : s'.lookups = s.lookups
  settled : ∀ c : Coord, s'.settled[c]?.isSome = s.settled[c]?.isSome
  values : p → ∀ c : Coord, s'.settled[c]? = s.settled[c]?

/-- Two computations have come to the same end, and where `p` holds, to the same result. -/
structure EndAlike (p : Prop) (out out' : Except FormulaError α × Session) : Prop where
  ending : SameEnd out.1 out'.1
  result : p → out.1 = out'.1
  session : out.2.Alike p out'.2

/-- Two computations that go alike. -/
def GoAlike (p : Prop) (act act' : Evaluation α) : Prop :=
  ∀ s s' : Session, s.Alike p s' → EndAlike p (act.run s) (act'.run s')

variable {p : Prop}

/-- Results that are equal where `p` holds go alike. -/
theorem GoAlike.pure {a a' : α} (h : p → a = a') : GoAlike p (pure a) (pure a') :=
  fun _ _ hs => ⟨rfl, fun hp => congrArg Except.ok (h hp), hs⟩

/-- The same failure goes alike. -/
theorem GoAlike.throw (error : FormulaError) :
    GoAlike p (throw error : Evaluation α) (throw error) :=
  fun _ _ hs => ⟨rfl, fun _ => rfl, hs⟩

/-- Computations that go alike may go on with what goes alike. -/
theorem GoAlike.bind {act act' : Evaluation α} {f f' : α → Evaluation β} (h : GoAlike p act act')
    (hf : ∀ a a', (p → a = a') → GoAlike p (f a) (f' a')) :
    GoAlike p (act >>= f) (act' >>= f') := by
  intro s s' hs
  have h := h s s' hs
  rw [Evaluation.run_bind, Evaluation.run_bind]
  generalize act.run s = out at h ⊢
  generalize act'.run s' = out' at h ⊢
  obtain ⟨hend, hsame, hs₁⟩ := h
  rcases out with ⟨error | a, s₁⟩ <;> rcases out' with ⟨error' | a', s₁'⟩
  · cases hend
    exact ⟨rfl, fun _ => rfl, hs₁⟩
  · cases hend
  · cases hend
  · exact hf a a' (fun hp => Except.ok.inj (hsame hp)) s₁ s₁' hs₁

/-- Sessions that are alike stay so in another frame. -/
theorem Evaluation.Session.Alike.reframe {s s' : Session} (h : s.Alike p s') (f : Frame) :
    ({ s with frame := f } : Session).Alike p { s' with frame := f } :=
  ⟨rfl, h.lookups, h.settled, h.values⟩

/-- Two computations in another frame that is entered in both. -/
theorem GoAlike.within {act act' : Evaluation α} (h : GoAlike p act act')
    (enter : Frame → Frame) : GoAlike p (Evaluation.within enter act) (Evaluation.within enter act')
    := by
  intro s s' hs
  rw [Evaluation.run_within, Evaluation.run_within, hs.frame]
  obtain ⟨hend, hsame, hs₁⟩ := h _ _ (hs.reframe (enter s.frame))
  exact ⟨hend, hsame, hs₁.reframe s.frame⟩

/-- A level more is counted alike. -/
theorem GoAlike.level {act act' : Evaluation α} (h : GoAlike p act act') (o : Options) :
    GoAlike p (Evaluation.level o act) (Evaluation.level o act') := by
  intro s s' hs
  rw [Evaluation.run_level, Evaluation.run_level, hs.frame]
  split
  · exact h.within _ s s' hs
  · exact ⟨rfl, fun _ => rfl, hs⟩

end

/-! ## Formulas and cells -/

section
variable {p : Prop} {e e' : Evaluator} {cells : Cells}
  {lookUp lookUp' : Coord → Evaluation Value}

/-- A call goes alike whatever is drawn. Where `p` holds, the function does not draw. -/
theorem GoAlike.call (hclock : e'.surroundings.clock = e.surroundings.clock) {name : String}
    {f : Function} (hf : Function.find? name = some f) (hname : p → f.name ≠ "RAND")
    {args args' : List Value} (hargs : p → args = args') :
    GoAlike p (e.call f args) (e'.call f args') := by
  intro s s' hs
  refine ⟨rfl, fun hp => ?_, ⟨hs.frame, hs.lookups, hs.settled, hs.values⟩⟩
  rw [Evaluator.run_call, Evaluator.run_call, hargs hp]
  exact congrArg Except.ok (Function.timed_of_find? hf (hname hp) _ _ _ hclock.symm)

/-- What is asked of the steps of an expression where `p` holds: no number is drawn. -/
def DrawsNothing (p : Prop) (o : Options) (cells : Cells) : Step → Prop
  | .call f => p → f.name ≠ "RAND"
  | .read c => p → ∀ text, cells c = .formula text → ¬ ReachesRandom o cells text
  | .number _ | .fail .. => True

/-- Where a formula reaches no call of `RAND`, none of its steps draws a number. -/
theorem drawsNothing_of_mem {o : Options} {text : String} {x : Expr}
    (hx : Expr.ofFormula o text = .ok x) (h : p → ¬ ReachesRandom o cells text) :
    ∀ step ∈ x.steps o, DrawsNothing p o cells step := by
  intro step hstep
  cases step with
  | call f => exact fun hp hname => h hp (.call hx hstep hname)
  | read c => exact fun hp text' ht hreaches => h hp (.cell ⟨x, hx, hstep⟩ ht hreaches)
  | number | fail => trivial

/-- Going alike passes through every construct of expressions, for evaluators with the same options
and the same clock. -/
theorem GoAlike.congruence (ho : e'.options = e.options)
    (hclock : e'.surroundings.clock = e.surroundings.clock) :
    e.interpretation.Congruence e'.interpretation (DrawsNothing p e.options cells) (GoAlike p)
      (GoAlike p) where
  maxRangeCells := congrArg Options.maxRangeCells ho.symm
  number _ := .pure fun _ => rfl
  text _ := .pure fun _ => rfl
  fail error := .throw error
  operand hv := hv.bind fun _ _ h => .pure fun hp => by rw [h hp]
  negate hv := hv.bind fun _ _ h => .pure fun hp => by rw [h hp]
  operation _ _ _ _ _ hl hr := hl.bind fun _ _ h => hr.bind fun _ _ h' => .pure fun hp => by
    rw [h hp, h' hp]
  call hf hname hargs := hargs.bind fun _ _ h => .call hclock hf hname h
  deeper {v v'} hv := by
    have ho' : e'.interpretation.deeper v' = Evaluation.level e.options v' := by
      rw [← ho]
      rfl
    rw [ho']
    exact hv.level e.options
  nil := .pure fun _ => rfl
  cons hv hargs := hv.bind fun _ _ h => hargs.bind fun _ _ h' => .pure fun hp => by
    rw [h hp, h' hp]
  append hvs hargs := hvs.bind fun _ _ h => hargs.bind fun _ _ h' => .pure fun hp => by
    rw [h hp, h' hp]
  tooLarge error := .throw error

/-- Formulas go alike if the cells do that they may read. -/
theorem formulaValue_goAlike (ho : e'.options = e.options)
    (hclock : e'.surroundings.clock = e.surroundings.clock)
    (hread : ∀ c, (p → ∀ text, cells c = .formula text → ¬ ReachesRandom e.options cells text) →
      GoAlike p (lookUp c) (lookUp' c))
    {text : String} (htext : p → ¬ ReachesRandom e.options cells text) :
    GoAlike p (formulaValue e lookUp text) (formulaValue e' lookUp' text) := by
  intro s s' hs
  rw [run_formulaValue, run_formulaValue, ho, hs.frame]
  -- both read the formula with what is left of the same levels
  rcases Expr.ofFormulaWithin_eq e.options (e.options.maxRecursion - s.frame.levels) text with
    hw | hw
  · rw [hw]
    exact GoAlike.throw _ s s' hs
  · rw [hw]
    cases hx : Expr.ofFormula e.options text with
    | error error => exact GoAlike.throw error s s' hs
    | ok x =>
      have hvalue := (GoAlike.congruence ho hclock).value hread false x
        (drawsNothing_of_mem hx htext)
      rw [← Expr.value_eq_leveledValue, ← Expr.value_eq_leveledValue] at hvalue
      exact hvalue.bind (fun _ _ h => .pure fun hp => by rw [h hp]) s s' hs

/-- A cell is settled alike, if its values are equal where `p` holds. -/
theorem Evaluation.Session.Alike.settle {s s' : Session} (h : s.Alike p s') (c : Coord)
    {v v' : Value} (hv : p → v = v') : (s.settle c v).Alike p (s'.settle c v') where
  frame := h.frame
  lookups := h.lookups
  settled d := by
    simp only [Session.settle, Std.ExtTreeMap.getElem?_insert]
    split
    · rfl
    · exact h.settled d
  values hp d := by
    simp only [Session.settle, Std.ExtTreeMap.getElem?_insert, hv hp, h.values hp d]

/-- A cell is looked up alike. -/
theorem Evaluation.Session.Alike.lookedUp {s s' : Session} (h : s.Alike p s') (c : Coord) :
    (s.lookedUp c).Alike p (s'.lookedUp c) :=
  ⟨h.frame, congrArg (c :: ·) h.lookups, h.settled, h.values⟩

/-- A formula cell goes alike if its formula does. -/
theorem formulaCellValue_goAlike (ho : e'.options = e.options) {c : Coord} {text : String}
    (h : GoAlike p (formulaValue e lookUp text) (formulaValue e' lookUp' text)) :
    GoAlike p (formulaCellValue e lookUp c text) (formulaCellValue e' lookUp' c text) := by
  intro s s' hs
  have h := ((h.within _).level e.options :
    GoAlike p (cellLevel e.options c _) (cellLevel e.options c _)) s s' hs
  rw [run_formulaCellValue, run_formulaCellValue, ho]
  change EndAlike p ((cellLevel e.options c (formulaValue e lookUp text)).run s)
    ((cellLevel e.options c (formulaValue e' lookUp' text)).run s') at h
  generalize (cellLevel e.options c (formulaValue e lookUp text)).run s = out at h ⊢
  generalize (cellLevel e.options c (formulaValue e' lookUp' text)).run s' = out' at h ⊢
  obtain ⟨hend, hsame, hs₁⟩ := h
  rcases out with ⟨error | v, s₁⟩ <;> rcases out' with ⟨error' | v', s₁'⟩
  · cases hend
    dsimp only
    cases Naive.cellResult (.error error) with
    | error error => exact ⟨rfl, fun _ => rfl, hs₁⟩
    | ok v => exact ⟨rfl, fun _ => rfl, hs₁.settle c fun _ => rfl⟩
  · cases hend
  · cases hend
  · have hv : p → v = v' := fun hp => Except.ok.inj (hsame hp)
    exact ⟨rfl, hsame, hs₁.settle c hv⟩

/-- A cell goes alike if its formula does. -/
theorem cellValue_goAlike {formulaCell formulaCell' : Coord → String → Evaluation Value} {c : Coord}
    (h : ∀ text, cells c = .formula text → GoAlike p (formulaCell c text) (formulaCell' c text)) :
    GoAlike p (cellValue cells formulaCell c) (cellValue cells formulaCell' c) := by
  intro s s' hs
  rw [run_cellValue, run_cellValue, hs.frame]
  split
  · exact ⟨rfl, fun _ => rfl, hs⟩
  · have hsettled := hs.settled c
    cases hv : s.settled[c]? <;> cases hv' : s'.settled[c]? <;> rw [hv, hv'] at hsettled
    · cases ht : cells c with
      | value v => exact ⟨rfl, fun _ => rfl, hs.lookedUp c⟩
      | formula text => exact h text ht _ _ (hs.lookedUp c)
    · cases hsettled
    · cases hsettled
    · refine ⟨rfl, fun hp => ?_, hs⟩
      have hvalues := hs.values hp c
      rw [hv, hv'] at hvalues
      cases hvalues
      rfl

/-- **Cells go alike**, whatever is drawn. -/
theorem resolve_goAlike (ho : e'.options = e.options)
    (hclock : e'.surroundings.clock = e.surroundings.clock) (room : Nat) (c : Coord)
    (hc : p → ∀ text, cells c = .formula text → ¬ ReachesRandom e.options cells text) :
    GoAlike p (resolve e cells room c) (resolve e' cells room c) := by
  induction room generalizing c with
  | zero =>
    refine cellValue_goAlike fun text _ => ?_
    rw [ho]
    exact .throw _
  | succ room ih =>
    refine cellValue_goAlike fun text ht => formulaCellValue_goAlike ho ?_
    exact formulaValue_goAlike ho hclock ih fun hp => hc hp text ht

/-! ## Whole evaluations -/

/-- **Evaluations go alike whatever is drawn.** They end with the same error or both with a value,
which is the same one if no formula on the way calls `RAND`. -/
theorem Evaluator.session_alike (e e' : Evaluator) (ho : e'.options = e.options)
    (hclock : e'.surroundings.clock = e.surroundings.clock) (cells : Cells)
    (current : Option Coord) (text : String) :
    EndAlike (¬ ReachesRandom e.options cells text) (e.session cells current text)
      (e'.session cells current text) := by
  have h : GoAlike (¬ ReachesRandom e.options cells text)
      (formulaValue e (resolve e cells e'.options.maxDepth) text)
      (formulaValue e' (resolve e' cells e'.options.maxDepth) text) :=
    formulaValue_goAlike ho hclock (resolve_goAlike ho hclock _) id
  have hdepth : e'.options.maxDepth = e.options.maxDepth := by rw [ho]
  rw [session, session, ← hdepth]
  exact h _ _ ⟨rfl, rfl, fun _ => rfl, fun _ _ => rfl⟩

/-- Where no number is drawn, evaluations with the same options and the same clock have the same
result. -/
theorem Evaluator.tryEvaluate_alike {e e' : Evaluator} {text : String}
    (h : ¬ ReachesRandom e.options cells text) (ho : e'.options = e.options)
    (hclock : e'.surroundings.clock = e.surroundings.clock) (current : Option Coord) :
    e'.tryEvaluate cells current text = e.tryEvaluate cells current text :=
  ((e.session_alike e' ho hclock cells current text).result h).symm

end

/-! ## The same number over and over -/

/-- The evaluator that draws its first number over and over. -/
def Evaluator.fixed (e : Evaluator) : Evaluator :=
  { e with surroundings := e.surroundings.fixed }

/-- The evaluator that draws one number over and over does so. -/
theorem Evaluator.fixed_fixed (e : Evaluator) : e.fixed.Fixed :=
  fun _ _ => rfl

/-- An evaluation goes as the one that draws the same number over and over. -/
theorem Evaluator.session_fixed (e : Evaluator) (cells : Cells) (current : Option Coord)
    (text : String) :
    EndAlike (¬ ReachesRandom e.options cells text) (e.session cells current text)
      (e.fixed.session cells current text) :=
  e.session_alike e.fixed rfl rfl cells current text

/-- Drawing one number over and over has the same failures. -/
theorem Evaluator.sameEnd_fixed (e : Evaluator) (cells : Cells) (current : Option Coord)
    (text : String) :
    SameEnd (e.tryEvaluate cells current text) (e.fixed.tryEvaluate cells current text) :=
  (e.session_fixed cells current text).ending

/-- Drawing one number over and over has the same results where no number is drawn. -/
theorem Evaluator.tryEvaluate_fixed {e : Evaluator} {cells : Cells} {text : String}
    (h : ¬ ReachesRandom e.options cells text) (current : Option Coord) :
    e.fixed.tryEvaluate cells current text = e.tryEvaluate cells current text :=
  have ho : e.fixed.options = e.options := rfl
  tryEvaluate_alike h ho rfl current

section
variable {m : Type → Type} [Monad m] [MonadExceptOf FormulaError m]

/-- To the naive semantics it is all the same, for no number is drawn there. -/
theorem Expr.naiveValue_fixed (e : Evaluator) (read : Coord → m Value) (x : Expr) :
    x.naiveValue e.fixed read = x.naiveValue e read := by
  rw [Expr.naiveValue_eq_leveledValue false, Expr.naiveValue_eq_leveledValue false]
  rfl

/-- The naive evaluation of a formula draws its first number alone, so it is that of the fixed
evaluator. -/
theorem naiveFormula_fixed (e : Evaluator) (read : Coord → m Value) (text : String) :
    naiveFormula e.fixed read text = naiveFormula e read text := by
  unfold naiveFormula
  simp only [Expr.naiveValue_fixed]
  rfl

end

/-- A cell has the same naive value by the fixed evaluator. -/
theorem Naive.cell_fixed (e : Evaluator) (cells : Cells) (fuel : Nat) (waiting : List Coord)
    (c : Coord) : cell e.fixed cells fuel waiting c = cell e cells fuel waiting c := by
  induction fuel generalizing waiting c with
  | zero =>
    rw [cell.eq_def, cell.eq_def]
    cases cells c <;> rfl
  | succ fuel ih =>
    rw [cell.eq_def, cell.eq_def]
    cases cells c with
    | value v => rfl
    | formula text =>
      dsimp only
      rw [formula_eq, formula_eq, naiveFormula_fixed, funext (ih (c :: waiting))]

/-- A formula has the same naive result by the fixed evaluator. -/
theorem Naive.tryEvaluate_fixed (e : Evaluator) (cells : Cells) (current : Option Coord)
    (text : String) :
    tryEvaluate e.fixed cells current text = tryEvaluate e cells current text := by
  funext fuel
  unfold tryEvaluate
  rw [formula_eq, formula_eq, naiveFormula_fixed, funext (cell_fixed e cells fuel current.toList)]

end Spreadsheet
