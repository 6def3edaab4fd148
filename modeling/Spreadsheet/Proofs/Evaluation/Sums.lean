import Spreadsheet.Proofs.Evaluation.Agreement
import Spreadsheet.Proofs.Formula.Words

/-!
# Sums of two cells

Whether a formula that adds two cells has a value does not hang on which of them comes first, nor
does the value (`Evaluator.tryEvaluate_sumText_comm`), if no number is drawn: in the naive semantics
both are read with the same cells waiting, and numbers are added in either order. An evaluation in a
session also has a limit on how deep it goes, and there the order counts
(`Evaluator.not_tryEvaluate_sumText_comm`): the second cell finds settled what the first has needed,
so that a chain of cells may be too long from one end and not from the other.
-/

namespace Spreadsheet

open Evaluation

/-! ## Addition -/

open Float.Model in
theorem Number.unpacked_add_comm (a b : UnpackedFloat) :
    UnpackedFloat.add .binary64 a b = UnpackedFloat.add .binary64 b a := by
  cases a with
  | notANumber => cases b <;> rfl
  | infinity s =>
    cases b with
    | infinity s' => cases s <;> cases s' <;> rfl
    | notANumber | zero | finite => rfl
  | zero s =>
    cases b with
    | zero s' => cases s <;> cases s' <;> rfl
    | notANumber | infinity | finite => rfl
  | finite s m e hm =>
    cases b with
    | finite s' m' e' hm' =>
      -- both are shifted to the lesser exponent, whichever has it
      change UnpackedFloat.normalize .binary64
          (s.apply (UnpackedFloat.decreaseExponent m e (min e e')).1 +
            s'.apply (UnpackedFloat.decreaseExponent m' e' (min e e')).1) (min e e') .positive =
        UnpackedFloat.normalize .binary64
          (s'.apply (UnpackedFloat.decreaseExponent m' e' (min e' e)).1 +
            s.apply (UnpackedFloat.decreaseExponent m e (min e' e)).1) (min e' e) .positive
      rw [Int.min_comm e' e, Int.add_comm]
    | notANumber | infinity | zero => rfl

/-- Numbers are added in either order. -/
theorem Number.float_add_comm (x y : Float) : x + y = y + x := by
  have hunpacked := Number.unpacked_add_comm x.toModel.unpack y.toModel.unpack
  exact congrArg (fun sum => Float.ofModel (Float.Model.pack sum)) hunpacked

theorem Operator.apply_add_comm (a b : Value) :
    Operator.add.apply a b = Operator.add.apply b a := by
  simp only [Operator.apply, Number.float_add_comm a.toNumber b.toNumber]

/-! ## Two cells in either order -/

section
variable {e : Evaluator} {c d : Coord}

/-- A sum of two cells that has a value has it the other way around too. -/
theorem Naive.formula_sumText_swap {read : Coord → Naive Value} (hc : c.InGrid) (hd : d.InGrid)
    {v : Value} (h : (formula e read (sumText c d)).run = some (.ok v)) :
    (formula e read (sumText d c)).run = some (.ok v) := by
  rw [formula_of_ok (Expr.ofFormula_sumText _ hc hd)] at h
  rw [formula_of_ok (Expr.ofFormula_sumText _ hd hc)]
  rcases bind_eq_some h with ⟨_, _, ⟨⟩⟩ | ⟨_, hsteps, h⟩
  rcases Step.run_eq_some hsteps with ⟨_, _, _, _, ⟨⟩⟩ | ⟨hall, _⟩
  obtain ⟨w, hw⟩ := hall c (.head _)
  obtain ⟨w', hw'⟩ := hall d (.tail _ (.head _))
  have hswap : (Step.run read ((Expr.binary .add (.cell d) (.cell c)).steps e.options)).run =
      some (.ok ()) := by
    change (read d >>= fun _ => read c >>= fun _ => pure ()).run = _
    rw [bind_of_ok hw', bind_of_ok hw]
    rfl
  rw [bind_of_ok hswap, ← h, Expr.over, Operator.apply_add_comm]
  rfl

/-- The sum the other way around reaches the same formulas. -/
theorem ReachesRandom.sumText_swap {o : Options} {cells : Cells} (hc : c.InGrid) (hd : d.InGrid)
    (h : ReachesRandom o cells (sumText c d)) : ReachesRandom o cells (sumText d c) := by
  have hx := Expr.ofFormula_sumText o hc hd
  have hswapped := Expr.ofFormula_sumText o hd hc
  -- the steps are the same in another order
  have hsteps : ∀ step, step ∈ (Expr.binary .add (.cell c) (.cell d)).steps o →
      step ∈ (Expr.binary .add (.cell d) (.cell c)).steps o := by
    intro step hstep
    rcases List.mem_append.1 hstep with hstep | hstep
    · exact List.mem_append_right _ hstep
    · exact List.mem_append_left _ hstep
  cases h with
  | call hx' hf hname =>
    rw [hx] at hx'
    cases hx'
    exact .call hswapped (hsteps _ hf) hname
  | cell hmentions ht h =>
    obtain ⟨x, hx', hread⟩ := hmentions
    rw [hx] at hx'
    cases hx'
    exact .cell ⟨_, hswapped, hsteps _ hread⟩ ht h

/-- **A sum has its value in either order.** If no number is drawn and neither evaluation is too
deep, the sum of two cells has a value if and only if it has the same value with the cells
exchanged. -/
theorem Evaluator.tryEvaluate_sumText_comm (e : Evaluator) (cells : Cells) (current : Option Coord)
    (c d : Coord) (hc : c.InGrid) (hd : d.InGrid)
    (hrandom : ¬ ReachesRandom e.options cells (sumText c d))
    (h : ¬ TooDeep (e.tryEvaluate cells current (sumText c d)))
    (h' : ¬ TooDeep (e.tryEvaluate cells current (sumText d c))) (v : Value) :
    e.tryEvaluate cells current (sumText c d) = .ok v ↔
      e.tryEvaluate cells current (sumText d c) = .ok v := by
  have hyields := e.yields_tryEvaluate cells current _ hrandom h
  have hyields' := e.yields_tryEvaluate cells current _ (mt (.sumText_swap hd hc) hrandom) h'
  constructor
  · intro hv
    obtain ⟨n, hn⟩ := hyields
    rw [hv] at hn
    exact hyields'.unique ⟨n, fun fuel hle => Naive.formula_sumText_swap hc hd (hn fuel hle)⟩
  · intro hv
    obtain ⟨n, hn⟩ := hyields'
    rw [hv] at hn
    exact hyields.unique ⟨n, fun fuel hle => Naive.formula_sumText_swap hd hc (hn fuel hle)⟩

end

/-- Two formula cells of which one needs the other. -/
theorem Evaluator.tryEvaluate_sumText_comm_chain :
    let e : Evaluator := { options := { maxDepth := 2 }, surroundings := ⟨0, 0⟩ }
    let cells : Cells := fun c => if c = ⟨0, 1⟩ then .formula "=2"
      else if c = ⟨0, 2⟩ then .formula "=B1" else .value .blank
    let c : Coord := ⟨0, 1⟩
    let d : Coord := ⟨0, 2⟩
    c.InGrid ∧ d.InGrid ∧ ¬ ReachesRandom e.options cells (sumText c d) ∧
      ¬ TooDeep (e.tryEvaluate cells none (sumText c d)) ∧
      ¬ TooDeep (e.tryEvaluate cells none (sumText d c)) ∧
      (e.tryEvaluate cells none (sumText c d) = .ok (.number 4) ↔
        e.tryEvaluate cells none (sumText d c) = .ok (.number 4)) := by
  intro e cells c d
  have hc : c.InGrid := by decide
  have hd : d.InGrid := by decide
  have hrandom : ¬ ReachesRandom e.options cells (sumText c d) := by
    refine not_reachesRandom (by decide +kernel) fun c text ht => ?_
    dsimp only [cells] at ht
    split at ht
    · cases ht
      decide +kernel
    · split at ht <;> cases ht
      decide +kernel
  have h : ¬ TooDeep (e.tryEvaluate cells none (sumText c d)) := by decide +kernel
  have h' : ¬ TooDeep (e.tryEvaluate cells none (sumText d c)) := by decide +kernel
  exact ⟨hc, hd, hrandom, h, h',
    e.tryEvaluate_sumText_comm cells none c d hc hd hrandom h h' (.number 4)⟩

/-- With one formula cell allowed at a time, a cell may be added after the one it needs and not
before it. -/
theorem Evaluator.not_tryEvaluate_sumText_comm :
    ¬ ∀ (e : Evaluator) (cells : Cells) (current : Option Coord) (c d : Coord),
      c.InGrid → d.InGrid → ¬ ReachesRandom e.options cells (sumText c d) →
        ((∃ v, e.tryEvaluate cells current (sumText c d) = .ok v) ↔
          ∃ v, e.tryEvaluate cells current (sumText d c) = .ok v) ∧
        ∀ v v', e.tryEvaluate cells current (sumText c d) = .ok v →
          e.tryEvaluate cells current (sumText d c) = .ok v' → v = v' := by
  intro h
  let e : Evaluator := { options := { maxDepth := 1 }, surroundings := ⟨0, 0⟩ }
  let cells : Cells := fun c => if c = ⟨0, 1⟩ then .formula "=2"
    else if c = ⟨0, 2⟩ then .formula "=B1" else .value .blank
  have hfirst : (e.tryEvaluate cells none (sumText ⟨0, 1⟩ ⟨0, 2⟩)).isOk = true := by decide +kernel
  have hsecond : (e.tryEvaluate cells none (sumText ⟨0, 2⟩ ⟨0, 1⟩)).isOk = false := by
    decide +kernel
  have hrandom : ¬ ReachesRandom e.options cells (sumText ⟨0, 1⟩ ⟨0, 2⟩) := by
    refine not_reachesRandom (by decide +kernel) fun c text ht => ?_
    dsimp only [cells] at ht
    split at ht
    · cases ht
      decide +kernel
    · split at ht <;> cases ht
      decide +kernel
  obtain ⟨hiff, -⟩ := h e cells none ⟨0, 1⟩ ⟨0, 2⟩ (by decide) (by decide) hrandom
  cases hv : e.tryEvaluate cells none (sumText ⟨0, 1⟩ ⟨0, 2⟩) with
  | error error =>
    rw [hv] at hfirst
    cases hfirst
  | ok v =>
    obtain ⟨v', hv'⟩ := hiff.1 ⟨v, hv⟩
    rw [hv'] at hsecond
    cases hsecond

end Spreadsheet
