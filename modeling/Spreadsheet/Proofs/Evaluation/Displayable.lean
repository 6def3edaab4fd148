import Spreadsheet.Proofs.Evaluation.Frames
import Spreadsheet.Proofs.Formula.Inherited
import Spreadsheet.Proofs.Function.Displayable

/-!
# Evaluations come to what can be displayed

If no plain value is an infinite number or NaN, then a formula that has a result has one that can be
displayed, and so does every formula cell that is settled on the way (`Evaluator.session_gives`).
A computation has this of the computations that it reads cells with (`Gives`), for no literal of a
formula is infinite (`Expr.FiniteNumbers`).
-/

namespace Spreadsheet

open Evaluation

/-! ## Literals -/

section
variable {o : Options}

/-- Whether all numbers that an expression takes as they stand are finite. -/
def Expr.FiniteNumbers (o : Options) (x : Expr) : Prop :=
  ∀ n, .number n ∈ x.steps o → Number.isFinite n = true

/-- A finite number is an expression of finite numbers. -/
theorem Expr.finiteNumbers_number {n : Float} (h : Number.isFinite n = true) :
    (Expr.number n).FiniteNumbers o := by
  intro m hm
  cases List.mem_singleton.1 hm
  exact h

/-- A range takes no numbers as they stand. -/
theorem Range.number_not_mem_steps (r : Range) (n : Float) : .number n ∉ r.steps o := by
  unfold Range.steps
  split <;> simp

/-- The numbers of arguments are those of one of them. -/
theorem Expr.exists_of_number_mem {args : List Expr} {n : Float}
    (h : .number n ∈ Expr.argumentSteps o args) : ∃ x ∈ args, .number n ∈ x.steps o := by
  induction args with
  | nil => cases h
  | cons x args ih =>
    have hcons : .number n ∈ x.steps o ∨ .number n ∈ Expr.argumentSteps o args := by
      cases x with
      | range r =>
        exact .inr ((List.mem_append.1 h).resolve_left (r.number_not_mem_steps n))
      | number | text | bare | cell | binary | negate | call => exact List.mem_append.1 h
    rcases hcons with hx | hargs
    · exact ⟨x, .head _, hx⟩
    · obtain ⟨y, hy, hstep⟩ := ih hargs
      exact ⟨y, .tail _ hy, hstep⟩

/-- A word spells finite numbers alone. -/
theorem Expr.finiteNumbers_ofWord {w : String} {x : Expr} (h : Expr.ofWord w = .ok x) :
    x.FiniteNumbers o := by
  unfold Expr.ofWord at h
  split at h
  · cases hread : readAddress w with
    | error error =>
      rw [hread] at h
      cases h
    | ok c =>
      rw [hread] at h
      cases h
      simp [FiniteNumbers, steps]
  · split at h
    · next n hn =>
      cases h
      unfold wordNumber? at hn
      split at hn
      · exact finiteNumbers_number (Number.isFinite_of_ofNumeral? hn)
      · cases hn
    · split at h
      · cases h
        exact finiteNumbers_number Number.isFinite_one
      · split at h
        · cases h
          exact finiteNumbers_number Number.isFinite_zero
        · cases h
          simp [FiniteNumbers, steps]

/-- Expressions that are read have finite numbers only. -/
theorem Expr.inherited_finiteNumbers (o : Options) : Expr.Inherited (Expr.FiniteNumbers o) where
  word := Expr.finiteNumbers_ofWord
  text _ := by simp [FiniteNumbers, steps]
  range _ := by simp [FiniteNumbers, steps]
  negated {x} h := by
    cases x with
    | number n => exact finiteNumbers_number (Number.isFinite_neg (h n (.head _)))
    | text | bare | cell | range | binary | negate | call => exact h
  binary _ _ _ hx hy n hn := (List.mem_append.1 hn).elim (hx n) (hy n)
  call name args h n hn := by
    rw [steps] at hn
    split at hn
    · cases hn
    · rcases List.mem_append.1 hn with hn | hn
      · obtain ⟨x, hx, hn⟩ := Expr.exists_of_number_mem hn
        exact h x hx n hn
      · cases List.mem_singleton.1 hn

/-- A formula that is read has finite numbers alone. -/
theorem Expr.finiteNumbers_ofFormulaWithin {left : Nat} {text : String} {x : Expr}
    (h : Expr.ofFormulaWithin o left text = .ok x) : x.FiniteNumbers o := by
  rcases Expr.ofFormulaWithin_eq o left text with hw | hw
  · rw [hw] at h
    cases h
  · rw [hw] at h
    exact (Expr.inherited_finiteNumbers o).ofFormula h

end

/-! ## Computations -/

/-- Whether all values that are settled can be displayed. -/
def Evaluation.Session.Displayable (s : Session) : Prop :=
  ∀ (c : Coord) (v : Value), s.settled[c]? = some v → v.Displayable

/-- A session stays displayable when a value is settled that can be displayed. -/
theorem Evaluation.Session.Displayable.settle {s : Session} (h : s.Displayable) {c : Coord}
    {v : Value} (hv : v.Displayable) : (s.settle c v).Displayable := by
  intro d w hw
  rw [getElem?_settle] at hw
  split at hw
  · cases hw
    exact hv
  · exact h d w hw

section
variable {α β : Type} {P : α → Prop} {Q : β → Prop}

/-- A computation that settles only values that can be displayed, and has only results with a
property. -/
def Gives (P : α → Prop) (act : Evaluation α) : Prop :=
  ∀ s : Session, s.Displayable →
    (act.run s).2.Displayable ∧ ∀ a, (act.run s).1 = .ok a → P a

namespace Gives

/-- A result with the property has it. -/
theorem pure {a : α} (h : P a) : Gives P (pure a : Evaluation α) := by
  intro s hs
  refine ⟨hs, ?_⟩
  rintro a ⟨⟩
  exact h

/-- A failure has no result. -/
theorem throw (error : FormulaError) : Gives P (throw error : Evaluation α) :=
  fun _ hs => ⟨hs, nofun⟩

/-- Computations may follow each other: the property of the first result gives that of the second.
-/
theorem bind {act : Evaluation α} {f : α → Evaluation β} (h : Gives P act)
    (hf : ∀ a, P a → Gives Q (f a)) : Gives Q (act >>= f) := by
  intro s hs
  rw [Evaluation.run_bind]
  obtain ⟨hs₁, hP⟩ := h s hs
  rcases hrun : act.run s with ⟨error | a, s₁⟩
  · rw [hrun] at hs₁
    exact ⟨hs₁, nofun⟩
  · rw [hrun] at hs₁ hP
    exact hf a (hP a rfl) s₁ hs₁

/-- A level more changes no result. -/
theorem level {act : Evaluation α} (h : Gives P act) (o : Options) :
    Gives P (Evaluation.level o act) := by
  intro s hs
  rw [Evaluation.run_level]
  split
  · exact h { s with frame := _ } hs
  · exact ⟨hs, nofun⟩

/-- A reading that gives only results with a property. -/
theorem liftExcept {r : Except FormulaError α} (h : ∀ a, r = .ok a → P a) :
    Gives P (liftExcept r : Evaluation α) := by
  cases r with
  | error error => exact throw error
  | ok a => exact pure (h a rfl)

end Gives

end

/-! ## Expressions -/

section
variable {e : Evaluator} {lookUp : Coord → Evaluation Value}

/-- A call gives a finite value if its arguments and the numbers that are drawn are finite. -/
theorem Gives.call (hrandom : e.surroundings.random.IsFinite) {name : String} {f : Function}
    (hf : Function.find? name = some f) {args : List Value} (hargs : ∀ v ∈ args, v.IsFinite) :
    Gives Value.IsFinite (e.call f args) := by
  intro s hs
  have hresult : (f.result (e.surroundings.after s.frame.current s.drawn) args).Displayable :=
    Function.displays_of_find? hf _ _ (fun _ _ => hrandom _ _) hargs
  refine ⟨hs, ?_⟩
  rintro v ⟨⟩
  exact hresult.isFinite

/-- The values of an expression and of arguments are finite where the numbers that are taken as they
stand are. There is nothing to compare them with. -/
theorem Gives.congruence (hrandom : e.surroundings.random.IsFinite) :
    e.interpretation.Congruence e.interpretation
      (fun step => ∀ n, step = .number n → Number.isFinite n = true)
      (fun act _ => Gives Value.IsFinite act)
      fun act _ => Gives (fun vs => ∀ v ∈ vs, v.IsFinite) act where
  maxRangeCells := rfl
  number h := .pure (h _ rfl)
  text _ := .pure trivial
  fail error := .throw error
  operand hv := hv.bind fun _ h => .pure h.asOperand.isFinite
  negate hv := hv.bind fun _ _ => .pure (Value.displayable_ofFinite _).isFinite
  operation op _ _ _ _ hl hr := hl.bind fun a _ => hr.bind fun b _ =>
    .pure (op.displayable_apply a b).isFinite
  call hf _ hargs := hargs.bind fun _ h => .call hrandom hf h
  deeper hv := hv.level _
  nil := .pure nofun
  cons hv hargs := hv.bind fun _ h => hargs.bind fun _ h' => .pure (List.forall_mem_cons.2 ⟨h, h'⟩)
  append hvs hargs := hvs.bind fun _ h => hargs.bind fun _ h' =>
    .pure (List.forall_mem_append.2 ⟨h, h'⟩)
  tooLarge error := .throw error

/-- The value of an expression is finite if the values of cells are. -/
theorem Expr.value_gives (hrandom : e.surroundings.random.IsFinite)
    (hread : ∀ c, Gives Value.IsFinite (lookUp c)) (onLeft : Bool) {x : Expr}
    (hx : x.FiniteNumbers e.options) : Gives Value.IsFinite (x.value e lookUp onLeft) := by
  rw [Expr.value_eq_leveledValue]
  have hsteps : ∀ step ∈ x.steps e.options, ∀ n, step = .number n → Number.isFinite n = true := by
    rintro step hstep n rfl
    exact hx n hstep
  exact @Interpretation.Congruence.value _ _ _ _ _ _ _ _ _ lookUp _ _ _ _ _
    (Gives.congruence hrandom) (fun c _ => hread c) onLeft x hsteps

/-! ## Formulas and cells -/

/-- The result of a formula can be displayed if the values of cells are finite. -/
theorem formulaValue_gives (hrandom : e.surroundings.random.IsFinite)
    (hread : ∀ c, Gives Value.IsFinite (lookUp c)) (text : String) :
    Gives Value.Displayable (formulaValue e lookUp text) := by
  intro s
  rw [run_formulaValue]
  have hx := Gives.liftExcept (P := Expr.FiniteNumbers e.options)
    (r := Expr.ofFormulaWithin e.options (e.options.maxRecursion - s.frame.levels) text)
    fun x hx => Expr.finiteNumbers_ofFormulaWithin hx
  exact (hx.bind fun x hx => (Expr.value_gives hrandom hread false hx).bind fun v hv =>
    Gives.pure hv.displayed) s

variable {cells : Cells}

/-- What a cell is settled with can be displayed, if what its formula comes to can. -/
theorem Naive.displayable_of_cellResult {r : Except FormulaError Value} {v : Value}
    (hr : ∀ w, r = .ok w → w.Displayable) (h : Naive.cellResult r = .ok v) : v.Displayable := by
  cases r with
  | ok w =>
    cases h
    exact hr _ rfl
  | error error =>
    unfold Naive.cellResult at h
    dsimp only at h
    split at h
    · cases h
    · cases h
      exact Sentinel.displayable_value _

/-- Every cell has a finite value, if all plain values are finite. -/
theorem resolve_gives (hrandom : e.surroundings.random.IsFinite)
    (hplain : ∀ c v, cells c = .value v → v.IsFinite) (room : Nat) (c : Coord) :
    Gives Value.IsFinite (resolve e cells room c) := by
  induction room using Nat.strongRecOn generalizing c with
  | ind room ih =>
    intro s hs
    have hformula : ∀ {text n r s₁}, room = n + 1 →
        (formulaValue e (resolve e cells n) text).run
          { s.lookedUp c with frame := s.frame.enterCell c } = (r, s₁) →
        s₁.Displayable ∧ ∀ w, r = .ok w → w.Displayable := by
      intro text n r s₁ hroom hrun
      have hgives := formulaValue_gives hrandom (ih n (by omega)) text
        { s.lookedUp c with frame := s.frame.enterCell c } hs
      rwa [hrun] at hgives
    rcases hrun : (resolve e cells room c).run s with ⟨r, s'⟩
    cases resolve_resolved hrun with
    | waits | tooDeep => exact ⟨hs, nofun⟩
    | settled _ hv =>
      refine ⟨hs, ?_⟩
      rintro w ⟨⟩
      exact (hs c _ hv).isFinite
    | value _ _ hv =>
      refine ⟨hs, ?_⟩
      rintro w ⟨⟩
      exact hplain c _ hv
    | failed _ _ _ hroom hrun₁ => exact ⟨(hformula hroom hrun₁).1, nofun⟩
    | @formula text n r₁ v s₁ _ _ _ hroom hrun₁ hv =>
      obtain ⟨hs₁, hr⟩ := hformula hroom hrun₁
      have hshown := Naive.displayable_of_cellResult hr hv
      have hleft : ({ s₁ with frame := s.frame } : Session).Displayable := hs₁
      refine ⟨hleft.settle hshown, ?_⟩
      rintro w ⟨⟩
      exact hshown.isFinite

/-- **Evaluations come to what can be displayed.** -/
theorem Evaluator.session_gives (hrandom : e.surroundings.random.IsFinite)
    (hplain : ∀ c v, cells c = .value v → v.IsFinite) (current : Option Coord) (text : String) :
    (e.session cells current text).2.Displayable ∧
      ∀ v, e.tryEvaluate cells current text = .ok v → v.Displayable := by
  refine formulaValue_gives hrandom (resolve_gives hrandom hplain e.options.maxDepth) text _ ?_
  intro c v hv
  simp at hv

/-- So do evaluations that draw no number, whatever they would draw. -/
theorem Evaluator.displayable_of_not_reachesRandom {text : String}
    (h : ¬ ReachesRandom e.options cells text) (hplain : ∀ c v, cells c = .value v → v.IsFinite)
    (current : Option Coord) {v : Value} (hv : e.tryEvaluate cells current text = .ok v) :
    v.Displayable := by
  let e' : Evaluator := { e with surroundings := { e.surroundings with random := .always 0 } }
  have hsame : e'.tryEvaluate cells current text = .ok v :=
    (Evaluator.tryEvaluate_alike h (rfl : e'.options = e.options) rfl current).trans hv
  have hzero : e'.surroundings.random.IsFinite := Supply.isFinite_always Number.isFinite_zero
  exact (e'.session_gives hzero hplain current text).2 v hsame

/-- What a cell shows can be displayed. -/
theorem Evaluator.displayable_evaluate (hrandom : e.surroundings.random.IsFinite)
    (hplain : ∀ c v, cells c = .value v → v.IsFinite) (current : Option Coord) (text : String) :
    (e.evaluate cells current text).Displayable := by
  obtain ⟨-, hresult⟩ := e.session_gives hrandom hplain current text
  unfold Evaluator.evaluate
  cases h : e.tryEvaluate cells current text with
  | ok v => exact hresult v h
  | error error => exact Sentinel.displayable_value _

end

end Spreadsheet
