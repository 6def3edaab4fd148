import Spreadsheet.Proofs.Evaluation.Agreement
import Spreadsheet.Proofs.Evaluation.Lockstep
import Spreadsheet.Proofs.Sheet.Formulas
import Spreadsheet.Sheet.Calculation

/-!
# Calculated sheets are consistent

What a calculation displays solves the equations of the sheet: evaluated over the displayed values
alone, the formula of a cell comes to what the cell displays (`Sheet.evaluate_calculate`). This
holds for every cell that is not in a circle, also where the cells it reads display a failure.

The reason is that a cell has the same value inside the evaluation of another cell as it has in its
own (`Evaluator.Displays.eq_of_read`), though other cells wait there and others are settled.
-/

namespace Spreadsheet

open Evaluator

/-! ## Values that formula cells display -/

/-- Values of cells, where each formula cell has what its own evaluation shows. -/
structure Evaluator.Displays (e : Evaluator) (cells : Cells) (values : Coord → Value) : Prop where
  ofValue : ∀ c v, cells c = .value v → values c = v
  ofFormula : ∀ c text, cells c = .formula text → values c = e.evaluate cells (some c) text

section
variable {e : Evaluator} {cells : Cells} {values : Coord → Value}

/-- What a cell shows is the value that its formula comes to. -/
theorem shown_of_cellResult {r : Except FormulaError Value} {v : Value}
    (h : Naive.cellResult r = .ok v) : shown r = v := by
  cases r with
  | ok w =>
    cases h
    rfl
  | error error =>
    have hcycle := Naive.contained_of_cellResult h error rfl
    rw [Naive.cellResult_of_contained hcycle] at h
    cases h
    simp [shown, FormulaError.sentinel, hcycle]

/-- **A cell has its own value.** What a cell comes to while others wait is what its own evaluation
shows. -/
theorem Evaluator.Displays.eq_of_read (h : e.Displays cells values)
    (hrandom : ∀ c text, cells c = .formula text → ¬ ReachesRandom e.options cells text)
    (hdeep : ∀ c text, cells c = .formula text → ¬ TooDeep (e.tryEvaluate cells (some c) text))
    {fuel : Nat} {waiting : List Coord} {c : Coord} {v : Value}
    (hc : (Naive.cell e cells fuel waiting c).run = some (.ok v)) : values c = v := by
  rcases Naive.cell_eq_some hc with ⟨_, ⟨⟩⟩ | ⟨_, _, hv, ⟨⟩⟩ | ⟨_, text, fuel, r, ht, _, hr, he⟩
  · exact h.ofValue c v hv
  · have hcontained := Naive.contained_of_cellResult he.symm
    -- its own evaluation starts with this cell waiting alone
    have hown : (Naive.formula e (Naive.cell e cells fuel [c]) text).run = some r :=
      Naive.formula_of_subset hr hcontained (List.cons_subset_cons c (List.nil_subset _))
    have hyields : Naive.Yields
        (fun fuel => (Naive.formula e (Naive.cell e cells fuel [c]) text).run) r :=
      ⟨fuel, fun _ hle => Naive.formula_fuel_mono hown hle⟩
    have hagrees := e.yields_tryEvaluate cells (some c) text (hrandom c text ht) (hdeep c text ht)
    have heval : e.tryEvaluate cells (some c) text = r := hagrees.unique hyields
    rw [h.ofFormula c text ht, Evaluator.evaluate, heval]
    exact shown_of_cellResult he.symm

/-- A formula that reaches `RAND` over plain values calls it. -/
theorem ReachesRandom.of_values {o : Options} {text : String}
    (h : ReachesRandom o (fun c => .value (values c)) text) : ReachesRandom o cells text := by
  cases h with
  | call hx hf hname => exact .call hx hf hname
  | cell _ ht => cases ht

/-- The result of a formula is the same over the values that the cells display, unless it is a
circle or too deep. -/
theorem Evaluator.Displays.tryEvaluate_eq (h : e.Displays cells values)
    (hrandom : ∀ c text, cells c = .formula text → ¬ ReachesRandom e.options cells text)
    (hdeep : ∀ c text, cells c = .formula text → ¬ TooDeep (e.tryEvaluate cells (some c) text))
    {current : Option Coord} {text : String} (htext : ¬ ReachesRandom e.options cells text)
    (hr : Contained (e.tryEvaluate cells current text)) :
    e.tryEvaluate (fun c => .value (values c)) current text = e.tryEvaluate cells current text := by
  have hfirst : ¬ TooDeep (e.tryEvaluate cells current text) := by
    rintro ⟨limit, hlimit⟩
    cases hr _ hlimit
  have hsecond : ¬ TooDeep (e.tryEvaluate (fun c => .value (values c)) current text) :=
    not_tooDeep_of_values (fun c => ⟨values c, rfl⟩) hr
  obtain ⟨n, hn⟩ := e.yields_tryEvaluate cells current text htext hfirst
  refine (e.yields_tryEvaluate _ current text (mt ReachesRandom.of_values htext) hsecond).unique
    ⟨n, fun fuel hle => ?_⟩
  have hrun := hn fuel hle
  -- each cell is read to the value that is displayed
  refine Naive.formula_mono (fun d hd r hread => ?_) hrun
  obtain ⟨v, hv⟩ := Naive.reads_of_contained hrun hr d hd
  rw [hv] at hread
  cases hread
  rcases Naive.cell_eq_some hv with ⟨_, ⟨⟩⟩ | ⟨hw, _⟩ | ⟨hw, _⟩
  all_goals exact Naive.cell_of_value hw (congrArg _ (h.eq_of_read hrandom hdeep hv))

end

/-! ## What a calculation displays -/

namespace Sheet

/-- What a cell displays after some values have been displayed, one of them in it or none. -/
theorem value_foldl_display (results : List (Coord × Value)) (s : Sheet) (a : Coord) (v : Value)
    (hresults : ∀ w, (a, w) ∈ results → w = v) (h : a ∈ results.map (·.1) ∨ s.value a = v) :
    (results.foldl (fun s (c, w) => s.display c w) s).value a = v := by
  induction results generalizing s with
  | nil => exact h.resolve_left List.not_mem_nil
  | cons p results ih =>
    obtain ⟨c, w⟩ := p
    rw [List.foldl_cons]
    refine ih _ (fun w hw => hresults w (.tail _ hw)) ?_
    by_cases hc : c = a
    · subst hc
      rw [value_display, if_pos rfl]
      exact .inr (hresults w (.head _))
    · rw [value_display, if_neg hc]
      refine h.imp_left fun hmem => ?_
      exact (List.mem_cons.1 hmem).resolve_left fun he => hc he.symm

/-- The results are those of the formula cells. -/
theorem mem_results {s : Sheet} {e : Evaluator} {c : Coord} {v : Value} :
    (c, v) ∈ s.results e ↔ ∃ text, s.formula? c = some text ∧ v = s.evaluate e (some c) text := by
  unfold results
  rw [List.mem_map]
  constructor
  · rintro ⟨⟨c', text⟩, hmem, ⟨⟩⟩
    exact ⟨text, Formulas.mem_toList.1 hmem, rfl⟩
  · rintro ⟨text, hc, rfl⟩
    exact ⟨(c, text), Formulas.mem_toList.2 hc, rfl⟩

/-- A formula cell displays what its evaluation shows. -/
theorem value_calculate_of_formula {s : Sheet} {c : Coord} {text : String}
    (h : s.formula? c = some text) (e : Evaluator) :
    (s.calculate e).2.value c = s.evaluate e (some c) text := by
  refine value_foldl_display _ s c _ (fun w hw => ?_) (.inl ?_)
  · obtain ⟨text', h', rfl⟩ := mem_results.1 hw
    rw [h] at h'
    cases h'
    rfl
  · exact List.mem_map.2 ⟨_, mem_results.2 ⟨text, h, rfl⟩, rfl⟩

/-- A cell without a formula displays what it did. -/
theorem value_calculate_of_none {s : Sheet} {c : Coord} (h : s.formula? c = none) (e : Evaluator) :
    (s.calculate e).2.value c = s.value c := by
  refine value_foldl_display _ s c _ (fun w hw => ?_) (.inr rfl)
  obtain ⟨text, h', -⟩ := mem_results.1 hw
  rw [h] at h'
  cases h'

/-- The content of a cell is a formula if the sheet has one there. -/
theorem contents_eq_formula {s : Sheet} {c : Coord} {text : String} :
    s.contents c = .formula text ↔ s.formula? c = some text := by
  unfold contents
  cases s.formula? c <;> simp

/-- After a calculation every cell displays what its content comes to. -/
theorem displays_calculate (s : Sheet) (e : Evaluator) :
    e.Displays s.contents (s.calculate e).2.value where
  ofValue := fun c v hc => by
    unfold contents at hc
    cases h : s.formula? c with
    | none =>
      rw [h] at hc
      cases hc
      exact value_calculate_of_none h e
    | some text =>
      rw [h] at hc
      cases hc
  ofFormula := fun c text hc => value_calculate_of_formula (contents_eq_formula.1 hc) e

/-- **Displayed values solve the equations of a sheet.** Where no formula draws a number and none
goes too deep, a cell that is in no circle displays what its formula comes to over all the displayed
values. -/
theorem evaluate_calculate (s : Sheet) (e : Evaluator)
    (hrandom : ∀ c text, s.formula? c = some text → ¬ ReachesRandom e.options s.contents text)
    (hdeep : ∀ c text, s.formula? c = some text →
      ¬ TooDeep (e.tryEvaluate s.contents (some c) text))
    (a : Coord) (text : String) (ha : s.formula? a = some text)
    (hcircle : ¬ Circular (e.tryEvaluate s.contents (some a) text)) :
    e.evaluate (fun c => .value ((s.calculate e).2.value c)) (some a) text =
      (s.calculate e).2.value a := by
  have hr := contained_of_not hcircle (hdeep a text ha)
  have heq := (s.displays_calculate e).tryEvaluate_eq
    (fun c text hc => hrandom c text (contents_eq_formula.1 hc))
    (fun c text hc => hdeep c text (contents_eq_formula.1 hc)) (hrandom a text ha) hr
  rw [value_calculate_of_formula ha, Sheet.evaluate, Evaluator.evaluate, heq]
  rfl

/-- A cell that reads a cell that failed. -/
theorem evaluate_calculate_failed :
    let e : Evaluator := { surroundings := ⟨0, 0⟩ }
    let s := ((empty "").setContent ⟨0, 0⟩ (.formula "=B1+1")).setContent ⟨0, 1⟩ (.formula "=2*")
    (∀ c text, s.formula? c = some text → ¬ ReachesRandom e.options s.contents text) ∧
      (∀ c text, s.formula? c = some text → ¬ TooDeep (e.tryEvaluate s.contents (some c) text)) ∧
      s.formula? ⟨0, 0⟩ = some "=B1+1" ∧
      ¬ Circular (e.tryEvaluate s.contents (some ⟨0, 0⟩) "=B1+1") ∧
      e.evaluate (fun c => .value ((s.calculate e).2.value c)) (some ⟨0, 0⟩) "=B1+1" =
        (s.calculate e).2.value ⟨0, 0⟩ := by
  intro e s
  have htexts : ∀ c text, s.formula? c = some text →
      c = ⟨0, 1⟩ ∧ text = "=2*" ∨ c = ⟨0, 0⟩ ∧ text = "=B1+1" := by
    intro c text h
    simp only [s, formula?, setContent, Formulas.get?_insert] at h
    split at h
    · next hc => exact .inl ⟨hc.symm, (Option.some.inj h).symm⟩
    · split at h
      · next hc => exact .inr ⟨hc.symm, (Option.some.inj h).symm⟩
      · cases h
  have hrandom : ∀ c text, s.formula? c = some text →
      ¬ ReachesRandom e.options s.contents text := by
    have hcalls : ∀ c text, s.formula? c = some text →
        (Expr.ofFormula e.options text).toOption.all (!·.callsRandom e.options) = true := by
      intro c text h
      rcases htexts c text h with ⟨-, rfl⟩ | ⟨-, rfl⟩ <;> decide +kernel
    intro c text h
    exact not_reachesRandom (hcalls c text h) fun c text hc =>
      hcalls c text (contents_eq_formula.1 hc)
  have hdeep : ∀ c text, s.formula? c = some text →
      ¬ TooDeep (e.tryEvaluate s.contents (some c) text) := by
    intro c text h
    rcases htexts c text h with ⟨rfl, rfl⟩ | ⟨rfl, rfl⟩ <;> decide +kernel
  have ha : s.formula? ⟨0, 0⟩ = some "=B1+1" := by decide +kernel
  have hcircle : ¬ Circular (e.tryEvaluate s.contents (some ⟨0, 0⟩) "=B1+1") := by decide +kernel
  exact ⟨hrandom, hdeep, ha, hcircle, s.evaluate_calculate e hrandom hdeep ⟨0, 0⟩ _ ha hcircle⟩

end Sheet

end Spreadsheet
