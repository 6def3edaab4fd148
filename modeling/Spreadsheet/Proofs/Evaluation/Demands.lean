import Spreadsheet.Proofs.Evaluation.Agreement
import Spreadsheet.Proofs.Evaluation.Metered

/-!
# Evaluations whose demands are met

An evaluation is not too deep if its options allow for what the naive semantics demands
(`Evaluator.not_tooDeep_of_demands`). It goes as the metered evaluation does (`Meets`): what it has
settled it does not evaluate again, and all that it does evaluate is evaluated there in the same
frame.
-/

namespace Spreadsheet

open Evaluation

/-- A computation in sessions that does what a metered one does, if the options allow for all that
is demanded. There is room for so many formula cells more. -/
structure Meets (e : Evaluator) (cells : Cells) (room : Nat) {α : Type} (act : Evaluation α)
    (walk : Metered α) : Prop where
  /-- What has been noted stays noted. -/
  notes : ∀ {f : Frame} {before after : List Demand} {r : Except FormulaError α},
    walk.runIn f before = some (r, after) → before ⊆ after
  /-- The results are the same, and the session stays sound. -/
  runs : ∀ {s : Session} {before after : List Demand} {r : Except FormulaError α},
    s.Sound e cells → s.frame.chain.length + room = e.options.maxDepth →
    walk.runIn s.frame before = some (r, after) → (∀ d ∈ after, d.Within e.options) →
    ∃ s', act.run s = (r, s') ∧ s'.Sound e cells ∧ s'.frame = s.frame

section
variable {e : Evaluator} {cells : Cells} {room fuel : Nat} {c : Coord} {α β : Type}

/-! ## Parts of computations -/

/-- A result demands nothing. -/
theorem Meets.pure (a : α) : Meets e cells room (pure a) (pure a) where
  notes := by
    rintro f before after r ⟨⟩
    exact List.Subset.refl _
  runs := by
    rintro s before after r hs - ⟨⟩ -
    exact ⟨s, rfl, hs, rfl⟩

/-- A failure demands nothing. -/
theorem Meets.throw (error : FormulaError) :
    Meets e cells room (throw error : Evaluation α) (throw error) where
  notes := by
    rintro f before after r ⟨⟩
    exact List.Subset.refl _
  runs := by
    rintro s before after r hs - ⟨⟩ -
    exact ⟨s, rfl, hs, rfl⟩

/-- A reading demands nothing. -/
theorem Meets.liftExcept (r : Except FormulaError α) :
    Meets e cells room (liftExcept r) (liftExcept r) := by
  cases r with
  | ok a => exact .pure a
  | error error => exact .throw error

/-- Computations that meet their demands may follow each other. -/
theorem Meets.bind {act : Evaluation α} {f : α → Evaluation β} {walk : Metered α}
    {g : α → Metered β} (h : Meets e cells room act walk)
    (hf : ∀ a, Meets e cells room (f a) (g a)) :
    Meets e cells room (act >>= f) (walk >>= g) where
  notes := by
    intro frame before after r hrun
    rw [Metered.runIn_bind] at hrun
    rcases hwalk : walk.runIn frame before with _ | ⟨error | a, mid⟩
    · rw [hwalk] at hrun
      cases hrun
    · rw [hwalk] at hrun
      cases hrun
      exact h.notes hwalk
    · rw [hwalk] at hrun
      exact List.Subset.trans (h.notes hwalk) ((hf a).notes hrun)
  runs := by
    intro s before after r hs hroom hrun hw
    rw [Metered.runIn_bind] at hrun
    rw [Evaluation.run_bind]
    rcases hwalk : walk.runIn s.frame before with _ | ⟨error | a, mid⟩
    · rw [hwalk] at hrun
      cases hrun
    · rw [hwalk] at hrun
      cases hrun
      obtain ⟨s', hact, hs', hframe⟩ := h.runs hs hroom hwalk hw
      rw [hact]
      exact ⟨s', rfl, hs', hframe⟩
    · rw [hwalk] at hrun
      obtain ⟨s₁, hact, hs₁, hframe₁⟩ := h.runs hs hroom hwalk fun d hd =>
        hw d ((hf a).notes hrun hd)
      rw [← hframe₁] at hroom hrun
      obtain ⟨s', hthen, hs', hframe⟩ := (hf a).runs hs₁ hroom hrun hw
      rw [hact]
      exact ⟨s', hthen, hs', hframe.trans hframe₁⟩

/-- A level that is demanded is there. -/
theorem Meets.deeper {act : Evaluation α} {walk : Metered α} (h : Meets e cells room act walk) :
    Meets e cells room (level e.options act) (Metered.deeper walk) where
  notes := by
    intro f before after r hrun
    rw [Metered.deeper, Metered.runIn_opened] at hrun
    exact List.Subset.trans (List.subset_append_left ..) (h.notes hrun)
  runs := by
    intro s before after r hs hroom hrun hw
    rw [Metered.deeper, Metered.runIn_opened] at hrun
    have hopened : s.frame.levels < e.options.maxRecursion :=
      (hw _ (h.notes hrun (List.mem_append_right _ (.head _)))).2
    have hs₀ := hs.reframe (f := { s.frame with levels := s.frame.levels + 1 }) rfl
      (List.Subset.refl _)
    obtain ⟨s', hact, hs', hframe⟩ := h.runs hs₀ hroom hrun hw
    rw [Evaluation.run_level, if_pos hopened, Evaluation.run_within, hact]
    refine ⟨_, rfl, hs'.reframe ?_ ?_, rfl⟩
    · rw [hframe]
    · rw [hframe]
      exact List.Subset.refl _

/-- A call demands nothing. -/
theorem Meets.call (he : e.Fixed) (f : Function) (args : List Value) :
    Meets e cells room (e.call f args) (e.plainCall f args) where
  notes := by
    rintro frame before after r ⟨⟩
    exact List.Subset.refl _
  runs := by
    rintro s before after r hs - ⟨⟩ -
    exact ⟨s.called f, Evaluator.run_call_of_fixed he f args s, hs.called f, rfl⟩

/-- Meeting the demands passes through every construct of expressions. -/
theorem Meets.transported (he : e.Fixed) (cells : Cells) (room : Nat) :
    LevelTransported e.interpretation (Metered.interpretation e)
      fun {α} (act : Evaluation α) walk => Meets e cells room act walk where
  maxRangeCells := rfl
  pure := .pure
  throw := .throw
  bind := .bind
  call := .call he
  deeper := .deeper

/-! ## Formulas and cells -/

/-- A formula is read as it is in the naive semantics, since the levels that are left cover its
nesting. -/
theorem formulaValue_meets (he : e.Fixed) {lookUp : Coord → Evaluation Value}
    {read : Coord → Metered Value}
    (hread : ∀ c, Meets e cells room (lookUp c) (read c)) (text : String) :
    Meets e cells room (formulaValue e lookUp text) (Metered.formula e read text) := by
  have h : Meets e cells room
      (liftExcept (Expr.ofFormula e.options text) >>= fun x =>
        x.value e lookUp false >>= fun v => pure v.displayed)
      (liftExcept (Expr.ofFormula e.options text) >>= fun x =>
        x.leveledValue (Metered.interpretation e) read false >>= fun v => pure v.displayed) := by
    refine (Meets.liftExcept _).bind fun x => Meets.bind ?_ fun v => .pure v.displayed
    rw [Expr.value_eq_leveledValue]
    exact (Meets.transported he cells room).value hread false x
  constructor
  · intro f before after r hrun
    rw [Metered.runIn_formula] at hrun
    exact List.Subset.trans (List.subset_append_left ..) (h.notes hrun)
  · intro s before after r hs hroom hrun hw
    rw [Metered.runIn_formula] at hrun
    -- the formula is read before anything else is demanded
    have hnesting := hw _ (h.notes hrun (List.mem_append_right _ (.head _)))
    have hreading := (Expr.ofFormulaWithin_eq e.options _ text).resolve_left fun hdeep =>
      Expr.not_tooDeep_ofFormulaWithin hnesting ⟨_, hdeep⟩
    obtain ⟨s', hact, h'⟩ := h.runs hs hroom hrun hw
    refine ⟨s', ?_, h'⟩
    rw [run_formulaValue, hreading, hact]

/-- What a metered evaluation of a cell comes to is a value or a circle. -/
theorem Metered.not_tooDeep_of_cell {fuel : Nat} {c : Coord} {f : Frame}
    {before after : List Demand} {r : Except FormulaError Value}
    (h : (Metered.cell e cells fuel c).runIn f before = some (r, after)) :
    (Naive.cell e cells fuel f.waiting c).run = some r ∧ ¬ TooDeep r := by
  have herases := Metered.erases_cell e cells fuel f.waiting c f before rfl
  rw [h] at herases
  refine ⟨herases.symm, ?_⟩
  rintro ⟨limit, rfl⟩
  obtain ⟨d, hd⟩ := Naive.cell_error herases.symm
  cases hd

/-- A formula cell comes to what its formula comes to in the metered evaluation. -/
theorem run_formulaCellValue_of_meets {lookUp : Coord → Evaluation Value} {walk : Metered Value}
    {c : Coord} {text : String} (h : Meets e cells room (formulaValue e lookUp text) walk)
    {s : Session} {before after : List Demand} {r : Except FormulaError Value}
    (hs : s.Sound e cells) (hn : s.settled[c]? = none) (ht : cells c = .formula text)
    (hroom : s.frame.chain.length + (room + 1) = e.options.maxDepth)
    (hlevel : s.frame.levels < e.options.maxRecursion)
    (hrun : walk.runIn (s.frame.enterCell c) before = some (r, after))
    (hw : ∀ d ∈ after, d.Within e.options) :
    ((formulaCellValue e lookUp c text).run s).1 = Naive.cellResult r := by
  have hs₀ : ({ s with frame := s.frame.enterCell c } : Session).Sound e cells :=
    ⟨List.forall_mem_cons.2 ⟨⟨hn, .inr ⟨text, ht⟩⟩, hs.apart⟩, hs.settled⟩
  have hroom₀ : (s.frame.enterCell c).chain.length + room = e.options.maxDepth := by
    rw [← hroom]
    simp only [Frame.enterCell, List.length_cons]
    omega
  obtain ⟨s', hact, -⟩ := h.runs hs₀ hroom₀ hrun hw
  rw [run_formulaCellValue, Evaluation.run_cellLevel, if_pos hlevel, hact]
  dsimp only
  cases Naive.cellResult r <;> rfl

/-- A settled cell has the value that the metered evaluation comes to. -/
theorem Evaluation.Session.Sound.eq_of_metered {s : Session} {c : Coord} {v : Value} {fuel : Nat}
    {before after : List Demand} {r : Except FormulaError Value} (hs : s.Sound e cells)
    (hv : s.settled[c]? = some v)
    (hrun : (Metered.cell e cells fuel c).runIn s.frame before = some (r, after)) : r = .ok v := by
  have hnaive := (Metered.not_tooDeep_of_cell hrun).1
  exact Naive.Yields.unique ⟨fuel, fun _ hle => Naive.cell_mono hnaive hle⟩
    (hs.settled c v hv _ hs.apart)

/-- A cell comes to what it comes to in the metered evaluation, if its formula does. -/
theorem run_resolve_of_metered
    (h : ∀ room fuel' text, fuel' < fuel → Meets e cells room
      (formulaValue e (resolve e cells room) text)
      (Metered.formula e (Metered.cell e cells fuel') text))
    {s : Session} {before after : List Demand} {r : Except FormulaError Value}
    (hs : s.Sound e cells) (hroom : s.frame.chain.length + room = e.options.maxDepth)
    (hrun : (Metered.cell e cells fuel c).runIn s.frame before = some (r, after))
    (hw : ∀ d ∈ after, d.Within e.options) : ((resolve e cells room c).run s).1 = r := by
  obtain ⟨formulaCell, hcell, hformulaCell⟩ : ∃ formulaCell : Coord → String → Evaluation Value,
      resolve e cells room = cellValue cells formulaCell ∧
        ∀ n, room = n + 1 → formulaCell = formulaCellValue e (resolve e cells n) := by
    cases room with
    | zero => exact ⟨_, rfl, nofun⟩
    | succ n => exact ⟨_, rfl, by rintro _ ⟨⟩; rfl⟩
  rw [hcell, run_cellValue]
  rcases Metered.runIn_cell_eq_some hrun with
    ⟨hc, rfl, -⟩ | ⟨hc, v, hv, rfl, -⟩ | ⟨hc, text, fuel', r₀, ht, rfl, hformula, rfl⟩
  · rw [if_pos (Frame.waitsFor_iff.2 hc)]
  · rw [if_neg (mt Frame.waitsFor_iff.1 hc)]
    cases hn : s.settled[c]? with
    | some w => exact (hs.eq_of_metered hn hrun).symm
    | none => rw [hv]
  · rw [if_neg (mt Frame.waitsFor_iff.1 hc)]
    cases hn : s.settled[c]? with
    | some w => exact (hs.eq_of_metered hn hrun).symm
    | none =>
      have hopened : (s.frame.enterCell c).chain.length ≤ e.options.maxDepth ∧
          s.frame.levels < e.options.maxRecursion :=
        hw _ ((h 0 fuel' text (Nat.lt_succ_self _)).notes hformula
          (List.mem_append_right _ (.head _)))
      -- the demand of the cell leaves room for it
      obtain ⟨n, rfl⟩ : ∃ n, room = n + 1 := by
        have hlength : (s.frame.enterCell c).chain.length = s.frame.chain.length + 1 := rfl
        exact ⟨room - 1, by omega⟩
      rw [ht, hformulaCell n rfl]
      exact run_formulaCellValue_of_meets (h n fuel' text (Nat.lt_succ_self _)) (hs.lookedUp c) hn
        ht hroom hopened.2 hformula hw

/-- **Cells meet their demands.** With room for formula cells, a cell is read as it is in the
metered evaluation. -/
theorem resolve_meets (he : e.Fixed) (cells : Cells) (room fuel : Nat) (c : Coord) :
    Meets e cells room (resolve e cells room c) (Metered.cell e cells fuel c) := by
  induction fuel using Nat.strongRecOn generalizing room c with
  | ind fuel ih =>
    have hformula : ∀ room fuel' text, fuel' < fuel → Meets e cells room
        (formulaValue e (resolve e cells room) text)
        (Metered.formula e (Metered.cell e cells fuel') text) :=
      fun room fuel' text hlt => formulaValue_meets he (ih fuel' hlt room) text
    constructor
    · intro f before after r hrun
      rcases Metered.runIn_cell_eq_some hrun with
        ⟨-, -, rfl⟩ | ⟨-, -, -, -, rfl⟩ | ⟨-, text, fuel', r₀, -, rfl, hrun₀, -⟩
      · exact List.Subset.refl _
      · exact List.Subset.refl _
      · exact List.Subset.trans (List.subset_append_left ..)
          ((hformula room fuel' text (Nat.lt_succ_self _)).notes hrun₀)
    · intro s before after r hs hroom hrun hw
      have hact : (resolve e cells room c).run s = (r, ((resolve e cells room c).run s).2) :=
        Prod.ext (run_resolve_of_metered hformula hs hroom hrun hw) rfl
      have hagrees := resolve_agrees he cells room c s r _ hs hact
        (Metered.not_tooDeep_of_cell hrun).2
      exact ⟨_, hact, hagrees.sound, hagrees.frame⟩

end

/-- An evaluation that draws the same number over and over is not too deep if its options allow for
what is demanded. -/
theorem Evaluator.not_tooDeep_of_fixed {e : Evaluator} (he : e.Fixed) {cells : Cells}
    {current : Option Coord} {text : String} {fuel : Nat} {r : Except FormulaError Value}
    {demands : List Demand}
    (h : Metered.tryEvaluate e cells current text fuel = some (r, demands))
    (hw : ∀ d ∈ demands, d.Within e.options) : ¬ TooDeep (e.tryEvaluate cells current text) := by
  obtain ⟨s', hrun, -⟩ := (formulaValue_meets he (resolve_meets he cells e.options.maxDepth fuel)
    text).runs (.start e cells current) (Nat.zero_add _) h hw
  have hr : e.tryEvaluate cells current text = r := congrArg Prod.fst hrun
  have hnaive := Metered.erases_tryEvaluate e cells current text fuel
  rw [h] at hnaive
  rw [hr]
  exact Naive.not_tooDeep_of_formula hnaive.symm

/-- **No evaluation is too deep without need.** Suppose the naive evaluation comes to its end, and
at every moment of it no more formula cells and no more levels are under way than the options allow,
and the levels that are left when a formula is read are no fewer than the nesting that is reached in
it. Then the evaluation is not too deep. -/
theorem Evaluator.not_tooDeep_of_demands (e : Evaluator) (cells : Cells) (current : Option Coord)
    (text : String) {fuel : Nat} {r : Except FormulaError Value} {demands : List Demand}
    (h : Metered.tryEvaluate e cells current text fuel = some (r, demands))
    (hw : ∀ d ∈ demands, d.Within e.options) : ¬ TooDeep (e.tryEvaluate cells current text) := by
  -- how deep it goes does not depend on what is drawn
  rw [(e.sameEnd_fixed cells current text).tooDeep_iff]
  rw [← Metered.tryEvaluate_fixed] at h
  exact not_tooDeep_of_fixed e.fixed_fixed h hw

/-- A chain of two formula cells with just as many levels as are needed, read twice by a chain of
three operands. -/
theorem Evaluator.not_tooDeep_of_demands_tight :
    let e : Evaluator := { options := { maxDepth := 2, maxRecursion := 4 }, surroundings := ⟨0, 0⟩ }
    let cells : Cells := fun c =>
      if c = ⟨0, 1⟩ then .formula "=-(C1)"
      else if c = ⟨0, 2⟩ then .formula "=2"
      else .value .blank
    let text := "=1+B1+B1*3"
    ∃ r demands, Metered.tryEvaluate e cells (some ⟨0, 0⟩) text 2 = some (r, demands) ∧
      demands.length = 12 ∧ (∀ d ∈ demands, d.Within e.options) ∧
      ¬ TooDeep (e.tryEvaluate cells (some ⟨0, 0⟩) text) := by
  intro e cells text
  have hany : ((Metered.tryEvaluate e cells (some ⟨0, 0⟩) text 2).any fun out =>
      decide (out.2.length = 12 ∧ ∀ d ∈ out.2, d.Within e.options)) = true := by decide +kernel
  obtain ⟨⟨r, demands⟩, h, hout⟩ := (Option.any_eq_true ..).1 hany
  obtain ⟨hlength, hw⟩ := of_decide_eq_true hout
  exact ⟨r, demands, h, hlength, hw, e.not_tooDeep_of_demands cells _ _ h hw⟩

end Spreadsheet
