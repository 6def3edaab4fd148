import Spreadsheet.Proofs.Evaluation.Reads

/-!
# Cells that wait for each other

How a cell is read in the naive semantics: `Naive.cell_eq_some` tells the three ways in which it can
come to an end. A longer clock changes nothing that has come to its end (`Naive.cell_mono`), so a
result is the only one (`Naive.Yields.unique`), and a cell that has a value keeps it when fewer
cells wait (`Naive.cell_of_subset`).
-/

namespace Spreadsheet.Naive

variable {e : Evaluator} {cells : Cells} {fuel : Nat} {waiting waiting' : List Coord} {c : Coord}
  {text : String} {r : Except FormulaError Value}

/-- A cell that waits is a circle. -/
theorem cell_of_mem (h : c ∈ waiting) :
    (cell e cells fuel waiting c).run = some (.error (.circular c)) := by
  rw [cell.eq_def, if_pos h]
  rfl

/-- A plain value is the value of its cell. -/
theorem cell_of_value {v : Value} (h : c ∉ waiting) (hv : cells c = .value v) :
    (cell e cells fuel waiting c).run = some (.ok v) := by
  rw [cell.eq_def, if_neg h, hv]
  rfl

/-- A formula cell has the result of its formula, while it waits itself. -/
theorem cell_of_formula (h : c ∉ waiting) (ht : cells c = .formula text)
    (hr : (formula e (cell e cells fuel (c :: waiting)) text).run = some r) :
    (cell e cells (fuel + 1) waiting c).run = some (cellResult r) := by
  rw [cell.eq_def, if_neg h, ht]
  exact congrArg (Option.map cellResult) hr

/-- How a cell is read: it waits itself, it holds a value, or it holds a formula. -/
theorem cell_eq_some (h : (cell e cells fuel waiting c).run = some r) :
    (c ∈ waiting ∧ r = .error (.circular c)) ∨
      (c ∉ waiting ∧ ∃ v, cells c = .value v ∧ r = .ok v) ∨
      (c ∉ waiting ∧ ∃ text fuel' r', cells c = .formula text ∧ fuel = fuel' + 1 ∧
        (formula e (cell e cells fuel' (c :: waiting)) text).run = some r' ∧
        r = cellResult r') := by
  by_cases hc : c ∈ waiting
  · rw [cell_of_mem hc] at h
    exact .inl ⟨hc, (Option.some.inj h).symm⟩
  · refine .inr ?_
    cases ht : cells c with
    | value v =>
      rw [cell_of_value hc ht] at h
      exact .inl ⟨hc, v, rfl, (Option.some.inj h).symm⟩
    | formula text =>
      refine .inr ⟨hc, text, ?_⟩
      rw [cell.eq_def, if_neg hc, ht] at h
      cases fuel with
      | zero => cases h
      | succ fuel =>
        obtain ⟨r', hr', rfl⟩ := Option.map_eq_some_iff.1 h
        exact ⟨fuel, r', rfl, rfl, hr', rfl⟩

/-- A failure that is no circle shows as an error in the cell. -/
theorem cellResult_of_contained {error : FormulaError} (h : error.isCycle = false) :
    cellResult (.error error) = .ok Sentinel.error.value := by
  simp [cellResult, h]

/-- A circle is passed on. -/
theorem cellResult_of_isCycle {error : FormulaError} (h : error.isCycle = true) :
    cellResult (.error error) = .error error := by
  simp [cellResult, h]

/-- A cell with a value has kept no circle to itself. -/
theorem contained_of_cellResult {v : Value} (h : cellResult r = .ok v) : Contained r := by
  rintro error rfl
  cases hc : error.isCycle with
  | false => rfl
  | true =>
    rw [cellResult_of_isCycle hc] at h
    cases h

/-- A cell fails by a circle alone. -/
theorem cellResult_eq_error {error : FormulaError} (h : cellResult r = .error error) :
    r = .error error ∧ error.isCycle = true := by
  cases r with
  | ok v => cases h
  | error error' =>
    cases hc : error'.isCycle with
    | false =>
      rw [cellResult_of_contained hc] at h
      cases h
    | true =>
      rw [cellResult_of_isCycle hc] at h
      cases h
      exact ⟨rfl, hc⟩

/-- A cell that cannot be read is in a circle. -/
theorem cell_error {error : FormulaError}
    (h : (cell e cells fuel waiting c).run = some (.error error)) :
    ∃ d, error = .circular d := by
  induction fuel generalizing waiting c with
  | zero =>
    rcases cell_eq_some h with ⟨_, ⟨⟩⟩ | ⟨_, _, _, ⟨⟩⟩ | ⟨_, _, _, _, _, ⟨⟩, _⟩
    exact ⟨c, rfl⟩
  | succ n ih =>
    rcases cell_eq_some h with ⟨_, ⟨⟩⟩ | ⟨_, _, _, ⟨⟩⟩ | ⟨_, text, _, r', _, ⟨⟩, hr', he⟩
    · exact ⟨c, rfl⟩
    · obtain ⟨rfl, hcycle⟩ := cellResult_eq_error he.symm
      rcases formula_eq_some hr' with ⟨d, _, _, hd, ⟨⟩⟩ | ⟨_, hr'⟩
      · exact ih hd
      · rw [hr' error rfl] at hcycle
        cases hcycle

/-- The naive evaluation of a formula is never too deep. -/
theorem not_tooDeep_of_formula (h : (formula e (cell e cells fuel waiting) text).run = some r) :
    ¬ TooDeep r := by
  rintro ⟨limit, rfl⟩
  rcases formula_eq_some h with ⟨c, _, error, hc, he⟩ | ⟨_, hcontained⟩
  · cases he
    obtain ⟨d, hd⟩ := cell_error hc
    cases hd
  · cases hcontained _ rfl

/-! ## A longer clock -/

/-- A cell that has been read is read to the same end with more time. -/
theorem cell_mono (h : (cell e cells fuel waiting c).run = some r) {fuel' : Nat}
    (hf : fuel ≤ fuel') : (cell e cells fuel' waiting c).run = some r := by
  induction fuel generalizing waiting c r fuel' with
  | zero =>
    rcases cell_eq_some h with ⟨hc, rfl⟩ | ⟨hc, v, hv, rfl⟩ | ⟨_, _, _, _, _, h0, _⟩
    · exact cell_of_mem hc
    · exact cell_of_value hc hv
    · cases h0
  | succ n ih =>
    rcases cell_eq_some h with ⟨hc, rfl⟩ | ⟨hc, v, hv, rfl⟩ | ⟨hc, text, _, r', ht, ⟨⟩, hr', rfl⟩
    · exact cell_of_mem hc
    · exact cell_of_value hc hv
    · obtain ⟨fuel', rfl⟩ : ∃ k, fuel' = k + 1 := ⟨fuel' - 1, by omega⟩
      refine cell_of_formula hc ht (formula_mono ?_ hr')
      exact fun d _ r hd => ih hd (by omega)

/-- More fuel leaves the result of a formula as it is. -/
theorem formula_fuel_mono (h : (formula e (cell e cells fuel waiting) text).run = some r)
    {fuel' : Nat} (hf : fuel ≤ fuel') :
    (formula e (cell e cells fuel' waiting) text).run = some r :=
  formula_mono (fun _ _ _ hd => cell_mono hd hf) h

/-- An evaluation yields one result. -/
theorem Yields.unique {α : Type} {act : Nat → Option (Except FormulaError α)}
    {r r' : Except FormulaError α} (h : Yields act r) (h' : Yields act r') : r = r' := by
  obtain ⟨n, hn⟩ := h
  obtain ⟨n', hn'⟩ := h'
  have := (hn (max n n') (Nat.le_max_left ..)).symm.trans (hn' _ (Nat.le_max_right ..))
  exact Option.some.inj this

/-! ## Fewer cells that wait -/

/-- A formula whose failures stay with it has read all its cells. -/
theorem reads_of_contained (h : (formula e (cell e cells fuel waiting) text).run = some r)
    (hr : Contained r) :
    ∀ d ∈ formulaReads e.options text, ∃ v, (cell e cells fuel waiting d).run = some (.ok v) := by
  rcases formula_eq_some h with ⟨d, _, error, hd, rfl⟩ | ⟨hall, _⟩
  · have hcycle := hr error rfl
    obtain ⟨d', rfl⟩ := cell_error hd
    cases hcycle
  · exact hall

/-- A cell that has a value has the same value when fewer cells wait. -/
theorem cell_of_subset {v : Value} (h : (cell e cells fuel waiting c).run = some (.ok v))
    (hw : waiting' ⊆ waiting) : (cell e cells fuel waiting' c).run = some (.ok v) := by
  induction fuel generalizing waiting waiting' c v with
  | zero =>
    rcases cell_eq_some h with ⟨_, ⟨⟩⟩ | ⟨hc, _, hv, ⟨⟩⟩ | ⟨_, _, _, _, _, ⟨⟩, _⟩
    exact cell_of_value (fun hc' => hc (hw hc')) hv
  | succ n ih =>
    rcases cell_eq_some h with ⟨_, ⟨⟩⟩ | ⟨hc, _, hv, ⟨⟩⟩ | ⟨hc, text, _, r, ht, ⟨⟩, hr, he⟩
    · exact cell_of_value (fun hc' => hc (hw hc')) hv
    · rw [he]
      refine cell_of_formula (fun hc' => hc (hw hc')) ht (formula_mono ?_ hr)
      intro d hd r' hr'
      obtain ⟨v', hv'⟩ := reads_of_contained hr (contained_of_cellResult he.symm) d hd
      rw [hv'] at hr'
      cases hr'
      exact ih hv' (List.cons_subset_cons c hw)

/-- A formula whose failures stay with it has the same result when fewer cells wait. -/
theorem formula_of_subset (h : (formula e (cell e cells fuel waiting) text).run = some r)
    (hr : Contained r) (hw : waiting' ⊆ waiting) :
    (formula e (cell e cells fuel waiting') text).run = some r := by
  refine formula_mono ?_ h
  intro d hd r' hr'
  obtain ⟨v', hv'⟩ := reads_of_contained h hr d hd
  rw [hv'] at hr'
  cases hr'
  exact cell_of_subset hv' hw

end Spreadsheet.Naive
