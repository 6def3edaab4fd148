import Spreadsheet.Proofs.Evaluation.Agreement

/-!
# Circles of cells

`Leads` says that a formula leads to a cell through formula cells, each of which the one before it
reads. It leads into a circle (`LeadsBack`) if the last cell waits already, or if the way has passed
through it. An evaluation that is not too deep finds a circle if and only if there is one
(`Evaluator.circular_iff_leadsBack`), whatever else fails on the way and whatever cells it settles.
-/

namespace Spreadsheet

/-- A formula leads to a cell through formula cells, the first of them first. -/
inductive Leads (o : Options) (cells : Cells) : String → List Coord → Coord → Prop
  | read {text : String} {c : Coord} (hc : c ∈ formulaReads o text) : Leads o cells text [] c
  | through {text text' : String} {x c : Coord} {xs : List Coord} (hx : x ∈ formulaReads o text)
      (ht : cells x = .formula text') (h : Leads o cells text' xs c) :
      Leads o cells text (x :: xs) c

/-- A formula leads back: through formula cells none of which waits and none of which comes twice,
it leads to a cell that waits or to one of these. -/
def LeadsBack (o : Options) (cells : Cells) (waiting : List Coord) (text : String) : Prop :=
  ∃ xs c, Leads o cells text xs c ∧ xs.Nodup ∧ (∀ x ∈ xs, x ∉ waiting) ∧ (c ∈ waiting ∨ c ∈ xs)

/-! ## Circles in the naive semantics -/

namespace Naive

variable {e : Evaluator} {cells : Cells} {fuel : Nat} {waiting : List Coord} {text : String}

/-- A formula that is found to be in a circle leads back, to the cell that the error names. -/
theorem leads_of_circular {c : Coord}
    (h : (formula e (cell e cells fuel waiting) text).run = some (.error (.circular c))) :
    ∃ xs, Leads e.options cells text xs c ∧ xs.Nodup ∧ (∀ x ∈ xs, x ∉ waiting) ∧
      (c ∈ waiting ∨ c ∈ xs) := by
  induction fuel generalizing waiting text with
  | zero =>
    rcases formula_eq_some h with ⟨d, hd, _, hcell, ⟨⟩⟩ | ⟨_, hr⟩
    · rcases cell_eq_some hcell with ⟨hw, ⟨⟩⟩ | ⟨_, _, _, ⟨⟩⟩ | ⟨_, _, _, _, _, ⟨⟩, _⟩
      exact ⟨[], .read hd, .nil, nofun, .inl hw⟩
    · cases hr _ rfl
  | succ n ih =>
    rcases formula_eq_some h with ⟨d, hd, _, hcell, ⟨⟩⟩ | ⟨_, hr⟩
    · rcases cell_eq_some hcell with ⟨hw, ⟨⟩⟩ | ⟨_, _, _, ⟨⟩⟩ | ⟨hw, text', _, r, ht, ⟨⟩, hr, he⟩
      · exact ⟨[], .read hd, .nil, nofun, .inl hw⟩
      · -- the circle arose in the formula of `d`, while `d` waited too
        obtain ⟨rfl, -⟩ := cellResult_eq_error he.symm
        obtain ⟨xs, hxs, hnodup, hapart, hback⟩ := ih hr
        have hdxs : d ∉ xs := fun hmem => hapart d hmem (.head _)
        refine ⟨d :: xs, .through hd ht hxs, List.nodup_cons.2 ⟨hdxs, hnodup⟩, ?_, ?_⟩
        · exact List.forall_mem_cons.2 ⟨hw, fun x hx hmem => hapart x hx (.tail _ hmem)⟩
        · rcases hback with hmem | hmem
          · rcases List.mem_cons.1 hmem with rfl | hmem
            · exact .inr (.head _)
            · exact .inl hmem
          · exact .inr (.tail _ hmem)
    · cases hr _ rfl

/-- A formula that leads back and comes to an end is found to be in a circle. -/
theorem circular_of_leads {xs : List Coord} {c : Coord} (h : Leads e.options cells text xs c)
    (hback : c ∈ waiting ∨ c ∈ xs) {r : Except FormulaError Value}
    (hr : (formula e (cell e cells fuel waiting) text).run = some r) :
    Circular r := by
  induction h generalizing fuel waiting r with
  | @read text c hc =>
    rcases formula_eq_some hr with ⟨d, _, error, hcell, rfl⟩ | ⟨hall, _⟩
    · obtain ⟨d', rfl⟩ := cell_error hcell
      exact ⟨d', rfl⟩
    · obtain ⟨v, hv⟩ := hall c hc
      rw [cell_of_mem (hback.resolve_right List.not_mem_nil)] at hv
      cases hv
  | @through text text' x c xs hx ht _ ih =>
    rcases formula_eq_some hr with ⟨d, _, error, hcell, rfl⟩ | ⟨hall, _⟩
    · obtain ⟨d', rfl⟩ := cell_error hcell
      exact ⟨d', rfl⟩
    · -- `x` would have a value, though its formula leads back while `x` waits
      obtain ⟨v, hv⟩ := hall x hx
      have hback' : c ∈ x :: waiting ∨ c ∈ xs := by
        rcases hback with hmem | hmem
        · exact .inl (.tail _ hmem)
        · rcases List.mem_cons.1 hmem with rfl | hmem
          · exact .inl (.head _)
          · exact .inr hmem
      rcases cell_eq_some hv with ⟨_, ⟨⟩⟩ | ⟨_, _, hvalue, _⟩ | ⟨_, _, _, r', ht', _, hr', he⟩
      · rw [ht] at hvalue
        cases hvalue
      · rw [ht] at ht'
        cases ht'
        obtain ⟨d, rfl⟩ := ih hback' hr'
        cases he

end Naive

/-! ## Circles in evaluations -/

/-- **Circles are found exactly.** An evaluation that is not too deep ends in a circle if and only
if its formula leads back to its cell, or to a formula cell on the way. -/
theorem Evaluator.circular_iff_leadsBack (e : Evaluator) (cells : Cells) (current : Option Coord)
    (text : String) (h : ¬ TooDeep (e.tryEvaluate cells current text)) :
    Circular (e.tryEvaluate cells current text) ↔
      LeadsBack e.options cells current.toList text := by
  -- whatever is drawn, there is a circle where the naive semantics meets one
  obtain ⟨r, ⟨n, hn⟩, hend⟩ := e.yields_sameEnd cells current text h
  have hr := hn n (Nat.le_refl n)
  rw [hend.circular_iff]
  constructor
  · rintro ⟨c, rfl⟩
    obtain ⟨xs, hxs⟩ := Naive.leads_of_circular hr
    exact ⟨xs, c, hxs⟩
  · rintro ⟨xs, c, hxs, _, _, hback⟩
    exact Naive.circular_of_leads hxs hback hr

/-- A circle through the current cell, met when a cell on the way has been settled. -/
theorem Evaluator.circular_iff_leadsBack_behind :
    let e : Evaluator := { surroundings := ⟨0, 0⟩ }
    let cells : Cells := fun c =>
      if c = ⟨0, 1⟩ then .formula "=D1" else if c = ⟨0, 2⟩ then .formula "=B1+A1"
      else .value (.number 3)
    ¬ TooDeep (e.tryEvaluate cells (some ⟨0, 0⟩) "=B1+C1") ∧
      (Circular (e.tryEvaluate cells (some ⟨0, 0⟩) "=B1+C1") ↔
        LeadsBack e.options cells [⟨0, 0⟩] "=B1+C1") := by
  intro e cells
  have h : ¬ TooDeep (e.tryEvaluate cells (some ⟨0, 0⟩) "=B1+C1") := by decide +kernel
  exact ⟨h, e.circular_iff_leadsBack cells (some ⟨0, 0⟩) _ h⟩

end Spreadsheet
