import Spreadsheet.Proofs.Sheet.Consistency

/-!
# Calculating again

A calculation never looks at what formula cells display: the contents that formulas are evaluated
over are the same before and after (`Sheet.contents_calculate`). So every formula cell displays what
it comes to by itself, before and after; a second calculation changes nothing; and what formula
cells displayed at first does not matter (`Sheet.calculate_settles`). The statistics are those of
the sheet that is left (`Statistics.count_ofValues`).
-/

namespace Spreadsheet

open Evaluation

/-! ## Results of formulas -/

/-- What a cell displays is never blank. -/
theorem Value.displayed_ne_blank (v : Value) : v.displayed ≠ .blank := by
  cases v <;> exact nofun

/-- What a formula comes to is not blank. -/
theorem formulaValue_ne_blank {e : Evaluator} {lookUp : Coord → Evaluation Value} {text : String}
    {s : Session} {v : Value} (h : ((formulaValue e lookUp text).run s).1 = .ok v) :
    v ≠ .blank := by
  unfold formulaValue at h
  rw [run_bind] at h
  split at h
  · rw [run_bind] at h
    split at h
    · rw [run_bind] at h
      split at h
      · next w _ _ =>
        cases h
        exact w.displayed_ne_blank
      · cases h
    · cases h
  · cases h

/-- What a cell with a formula shows is not blank. -/
theorem Evaluator.evaluate_ne_blank (e : Evaluator) (cells : Cells) (current : Option Coord)
    (text : String) : e.evaluate cells current text ≠ .blank := by
  unfold Evaluator.evaluate
  cases h : e.tryEvaluate cells current text with
  | ok v => exact formulaValue_ne_blank h
  | error error => exact nofun

/-! ## Statistics -/

/-- The number of results that showed a sentinel. -/
def Statistics.count (st : Statistics) : Sentinel → Nat
  | .error => st.errors
  | .name => st.unknown
  | .cycle => st.cycles

/-- A value stands for a sentinel if it is the text of it. -/
theorem Sentinel.ofValue?_eq_some {v : Value} {x : Sentinel} :
    ofValue? v = some x ↔ v = x.value := by
  cases v with
  | blank | number => exact ⟨nofun, nofun⟩
  | text s =>
    constructor
    · intro h
      have hx : x.text = s := by simpa using List.find?_some h
      rw [← hx]
      rfl
    · rintro ⟨⟩
      cases x <;> rfl

namespace Statistics

/-- One more result counts for the sentinel that it shows. -/
theorem count_record (st : Statistics) (v : Value) (x : Sentinel) :
    (st.record v).count x = st.count x + if v = x.value then 1 else 0 := by
  unfold record
  cases h : Sentinel.ofValue? v with
  | none =>
    have hne : v ≠ x.value := fun hv => by
      rw [Sentinel.ofValue?_eq_some.2 hv] at h
      cases h
    rw [if_neg hne]
    cases x <;> rfl
  | some y =>
    have hiff : v = x.value ↔ y = x := by
      rw [← Sentinel.ofValue?_eq_some, h, Option.some_inj]
    simp only [hiff]
    cases x <;> cases y <;> rfl

/-- Every result that is recorded is counted. -/
theorem formulas_record (st : Statistics) (v : Value) :
    (st.record v).formulas = st.formulas + 1 := by
  unfold record
  cases Sentinel.ofValue? v with
  | none => rfl
  | some y => cases y <;> rfl

/-- The statistics count as many results as there are. -/
theorem formulas_ofValues (vs : List Value) : (ofValues vs).formulas = vs.length := by
  have h : ∀ st : Statistics, (vs.foldl record st).formulas = st.formulas + vs.length := by
    induction vs with
    | nil => exact fun st => rfl
    | cons v vs ih =>
      intro st
      rw [List.foldl_cons, ih, formulas_record, List.length_cons, Nat.add_assoc, Nat.add_comm 1]
  exact (h {}).trans (Nat.zero_add _)

/-- The statistics count, for each sentinel, the results that show it. -/
theorem count_ofValues (vs : List Value) (x : Sentinel) :
    (ofValues vs).count x = vs.count x.value := by
  have h : ∀ st : Statistics, (vs.foldl record st).count x = st.count x + vs.count x.value := by
    induction vs with
    | nil => exact fun st => rfl
    | cons v vs ih =>
      intro st
      rw [List.foldl_cons, ih, count_record, List.count_cons]
      simp only [beq_iff_eq]
      omega
  have hzero : count {} x = 0 := by cases x <;> rfl
  rw [ofValues, h, hzero, Nat.zero_add]

end Statistics

/-! ## What a calculation leaves -/

namespace Sheet

/-- The number of formula cells that display a value. -/
def formulasShowing (s : Sheet) (v : Value) : Nat :=
  s.formulas.toList.countP fun p => s.value p.1 = v

/-- Two sheets with the same formulas, and the same values in all other cells. -/
def SameInput (s s' : Sheet) : Prop :=
  (∀ c, s'.formula? c = s.formula? c) ∧ ∀ c, s.formula? c = none → s'.value c = s.value c

/-- Results that are displayed leave the formulas as they are. -/
theorem formulas_foldl_display (results : List (Coord × Value)) (s : Sheet) :
    (results.foldl (fun s (c, v) => s.display c v) s).formulas = s.formulas := by
  induction results generalizing s with
  | nil => rfl
  | cons p results ih => exact ih _

/-- A calculation leaves the formulas as they are. -/
@[simp] theorem formulas_calculate (s : Sheet) (e : Evaluator) :
    (s.calculate e).2.formulas = s.formulas :=
  formulas_foldl_display _ s

/-- A calculation leaves the formula of every cell as it is. -/
@[simp] theorem formula?_calculate (s : Sheet) (e : Evaluator) (c : Coord) :
    (s.calculate e).2.formula? c = s.formula? c := by
  rw [formula?, formulas_calculate]
  rfl

/-- A calculation changes no more than the values of formula cells. -/
theorem sameInput_calculate (s : Sheet) (e : Evaluator) : SameInput s (s.calculate e).2 :=
  ⟨s.formula?_calculate e, fun _ hc => value_calculate_of_none hc e⟩

section
variable {s s' : Sheet}

/-- Sheets with the same input have the same formulas. -/
theorem SameInput.formulas_eq (h : SameInput s s') : s'.formulas = s.formulas :=
  Formulas.ext h.1

/-- What formulas are evaluated over is the input alone. -/
theorem SameInput.contents_eq (h : SameInput s s') : s'.contents = s.contents := by
  funext c
  unfold contents
  rw [h.1 c]
  cases hc : s.formula? c with
  | none => rw [h.2 c hc]
  | some text => rfl

/-- Sheets with the same input have the same results, cell by cell. -/
theorem SameInput.evaluateCell?_eq (h : SameInput s s') (e : Evaluator) (c : Coord) :
    s'.evaluateCell? e c = s.evaluateCell? e c := by
  unfold evaluateCell? evaluate
  rw [h.1 c, h.contents_eq]

/-- Sheets with the same input have the same list of results. -/
theorem SameInput.results_eq (h : SameInput s s') (e : Evaluator) :
    s'.results e = s.results e := by
  unfold results evaluate
  rw [h.formulas_eq, h.contents_eq]

/-- A calculation does not depend on what formula cells display. -/
theorem SameInput.value_calculate_eq (h : SameInput s s') (e : Evaluator) (c : Coord) :
    (s'.calculate e).2.value c = (s.calculate e).2.value c := by
  cases hc : s.formula? c with
  | none => rw [value_calculate_of_none hc, value_calculate_of_none ((h.1 c).trans hc), h.2 c hc]
  | some text =>
    rw [value_calculate_of_formula hc, value_calculate_of_formula ((h.1 c).trans hc), evaluate,
      evaluate, h.contents_eq]

end

section
variable (s : Sheet) (e : Evaluator)

/-- A calculation changes nothing that formulas see. -/
theorem contents_calculate : (s.calculate e).2.contents = s.contents :=
  (s.sameInput_calculate e).contents_eq

/-- After a calculation a formula cell displays its result. -/
theorem evaluateCell?_eq_value {c : Coord} (hc : s.formula? c ≠ none) :
    s.evaluateCell? e c = some ((s.calculate e).2.value c) := by
  obtain ⟨text, hc⟩ := Option.ne_none_iff_exists'.1 hc
  rw [evaluateCell?, hc, value_calculate_of_formula hc]
  rfl

/-- A result is displayed in its cell. -/
theorem value_of_mem_results {c : Coord} {v : Value} (h : (c, v) ∈ s.results e) :
    (s.calculate e).2.value c = v := by
  obtain ⟨text, hc, hv⟩ := mem_results.1 h
  rw [value_calculate_of_formula hc, hv]

/-- The results are what the formula cells display afterwards. -/
theorem map_results :
    (s.results e).map (·.2) = s.formulas.toList.map fun p => (s.calculate e).2.value p.1 := by
  have h : (s.results e).map (·.2) = (s.results e).map fun p => (s.calculate e).2.value p.1 :=
    List.map_congr_left fun _ hp => (s.value_of_mem_results e hp).symm
  rw [h, results, List.map_map]
  rfl

/-- The statistics count the formula cells that display a sentinel afterwards. -/
theorem count_calculate (x : Sentinel) :
    (s.calculate e).1.count x = (s.calculate e).2.formulasShowing x.value := by
  change (Statistics.ofValues ((s.results e).map (·.2))).count x = _
  rw [Statistics.count_ofValues, map_results, formulasShowing, formulas_calculate, List.count,
    List.countP_map]
  rfl

/-- The statistics count the formula cells. -/
theorem formulas_statistics :
    (s.calculate e).1.formulas = (s.calculate e).2.formulas.size := by
  change (Statistics.ofValues ((s.results e).map (·.2))).formulas = _
  rw [Statistics.formulas_ofValues, formulas_calculate, results, List.map_map, List.length_map]
  exact Formulas.length_toList

variable {s} in
/-- To display a value that is displayed already changes nothing. -/
theorem display_of_value {c : Coord} {v : Value} (hv : v ≠ .blank) (h : s.value c = v) :
    s.display c v = s := by
  have hkept : s.values[c]? = some v := by
    rw [value, Std.ExtTreeMap.getD_eq_getD_getElem?] at h
    cases hc : s.values[c]? with
    | none =>
      rw [hc] at h
      exact absurd h.symm hv
    | some w =>
      rw [hc] at h
      exact congrArg some h
  have hvalues : s.values.insert c v = s.values := by
    refine Std.ExtTreeMap.ext_getElem? fun a => ?_
    rw [Std.ExtTreeMap.getElem?_insert]
    split
    · next hca =>
      rw [← hkept, Std.LawfulEqOrd.eq_of_compare hca]
    · rfl
  have hblank : v.isBlank = false := by
    cases v with
    | blank => exact absurd rfl hv
    | number | text => rfl
  rw [display, hblank, if_neg Bool.false_ne_true, hvalues]

variable {s} in
/-- To display values that are displayed already changes nothing. -/
theorem foldl_display_of_value {results : List (Coord × Value)}
    (h : ∀ c v, (c, v) ∈ results → v ≠ .blank ∧ s.value c = v) :
    results.foldl (fun s (c, v) => s.display c v) s = s := by
  induction results with
  | nil => rfl
  | cons p results ih =>
    obtain ⟨c, v⟩ := p
    obtain ⟨hne, hv⟩ := h c v (.head _)
    have hdisplay : s.display c v = s := display_of_value hne hv
    simp only [List.foldl_cons, hdisplay]
    exact ih fun c v hmem => h c v (.tail _ hmem)

/-- A second calculation changes nothing. -/
theorem calculate_calculate : (s.calculate e).2.calculate e = s.calculate e := by
  have hresults : (s.calculate e).2.results e = s.results e :=
    (s.sameInput_calculate e).results_eq e
  have hkept : (s.results e).foldl (fun s (c, v) => s.display c v) (s.calculate e).2 =
      (s.calculate e).2 := by
    refine foldl_display_of_value fun c v hmem => ⟨?_, s.value_of_mem_results e hmem⟩
    obtain ⟨text, -, hv⟩ := mem_results.1 hmem
    rw [hv]
    exact e.evaluate_ne_blank _ _ _
  change (Statistics.ofValues (((s.calculate e).2.results e).map (·.2)),
    ((s.calculate e).2.results e).foldl _ (s.calculate e).2) = _
  rw [hresults, hkept]
  rfl

variable {s e} in
/-- Where no formula draws a number, another evaluator with the same options and the same clock has
the same results. -/
theorem evaluate_alike
    (hrandom : ∀ c text, s.formula? c = some text → ¬ ReachesRandom e.options s.contents text)
    {e' : Evaluator} (ho : e'.options = e.options)
    (hclock : e'.surroundings.clock = e.surroundings.clock) {c : Coord} {text : String}
    (hc : s.formula? c = some text) :
    s.evaluate e' (some c) text = s.evaluate e (some c) text := by
  unfold evaluate Evaluator.evaluate
  rw [Evaluator.tryEvaluate_alike (hrandom c text hc) ho hclock]

variable {s e} in
/-- Where no number is drawn, a formula cell has the same result by every evaluator with the same
options and the same clock. -/
theorem evaluateCell?_alike
    (hrandom : ∀ c text, s.formula? c = some text → ¬ ReachesRandom e.options s.contents text)
    {e' : Evaluator} (ho : e'.options = e.options)
    (hclock : e'.surroundings.clock = e.surroundings.clock) (c : Coord) :
    s.evaluateCell? e' c = s.evaluateCell? e c := by
  unfold evaluateCell?
  cases hc : s.formula? c with
  | none => rw [Option.map_none, Option.map_none]
  | some text => rw [Option.map_some, Option.map_some, evaluate_alike hrandom ho hclock hc]

variable {s e} in
/-- Where no number is drawn, a calculation is the same by every evaluator with the same options and
the same clock. -/
theorem calculate_alike
    (hrandom : ∀ c text, s.formula? c = some text → ¬ ReachesRandom e.options s.contents text)
    {e' : Evaluator} (ho : e'.options = e.options)
    (hclock : e'.surroundings.clock = e.surroundings.clock) : s.calculate e' = s.calculate e := by
  have hresults : s.results e' = s.results e := by
    refine List.map_congr_left fun (c, text) hmem => congrArg (c, ·) ?_
    exact evaluate_alike hrandom ho hclock (Formulas.mem_toList.1 hmem)
  unfold calculate
  rw [hresults]

/-- **A calculation settles a sheet.** Every formula cell displays what it comes to by itself,
before as after; formulas and all other cells are left as they are; the statistics count the
formula cells and those that display a sentinel; a second calculation changes nothing, not even if
it would draw other numbers, as long as no formula draws one; and a sheet that differs only in what
formula cells display comes to the same. -/
theorem calculate_settles :
    (∀ c, s.formula? c ≠ none →
      s.evaluateCell? e c = some ((s.calculate e).2.value c) ∧
      (s.calculate e).2.evaluateCell? e c = some ((s.calculate e).2.value c)) ∧
    (∀ c, (s.calculate e).2.formula? c = s.formula? c) ∧
    (∀ c, s.formula? c = none → (s.calculate e).2.value c = s.value c) ∧
    (s.calculate e).1.formulas = (s.calculate e).2.formulas.size ∧
    (∀ x, (s.calculate e).1.count x = (s.calculate e).2.formulasShowing x.value) ∧
    (s.calculate e).2.calculate e = s.calculate e ∧
    ((∀ c text, s.formula? c = some text → ¬ ReachesRandom e.options s.contents text) →
      ∀ e' : Evaluator, e'.options = e.options → e'.surroundings.clock = e.surroundings.clock →
        (∀ c, s.evaluateCell? e' c = s.evaluateCell? e c ∧
          (s.calculate e).2.evaluateCell? e' c = s.evaluateCell? e c) ∧
        (s.calculate e).2.calculate e' = s.calculate e) ∧
    ∀ s', SameInput s s' → (s'.calculate e).1 = (s.calculate e).1 ∧
      ∀ c, (s'.calculate e).2.formula? c = (s.calculate e).2.formula? c ∧
        (s'.calculate e).2.value c = (s.calculate e).2.value c := by
  have hinput := s.sameInput_calculate e
  refine ⟨fun c hc => ⟨s.evaluateCell?_eq_value e hc, ?_⟩, hinput.1, hinput.2,
    s.formulas_statistics e, s.count_calculate e, s.calculate_calculate e,
    fun hrandom e' ho hclock => ?_, fun s' h => ⟨?_, ?_⟩⟩
  · rw [hinput.evaluateCell?_eq, s.evaluateCell?_eq_value e hc]
  · -- the formulas are the same after the calculation, and so is what they are evaluated over
    have hrandom' : ∀ c text, (s.calculate e).2.formula? c = some text →
        ¬ ReachesRandom e.options (s.calculate e).2.contents text := by
      rwa [contents_calculate, funext (s.formula?_calculate e)]
    refine ⟨fun c => ⟨evaluateCell?_alike hrandom ho hclock c, ?_⟩, ?_⟩
    · rw [evaluateCell?_alike hrandom' ho hclock, hinput.evaluateCell?_eq]
    · rw [calculate_alike hrandom' ho hclock, calculate_calculate]
  · change Statistics.ofValues ((s'.results e).map (·.2)) = _
    rw [h.results_eq]
    rfl
  · intro c
    rw [formula?_calculate, formula?_calculate]
    exact ⟨h.1 c, h.value_calculate_eq e c⟩

end

/-- Two formulas, of which the first reads the second, a value, and an outdated display. -/
theorem calculate_settles_outdated :
    let e : Evaluator := { surroundings := ⟨0, 0⟩ }
    let s := (((empty "").setContent ⟨0, 0⟩ (.formula "=B1&A2")).setContent ⟨0, 1⟩
      (.formula "=NOPE()")).setValue ⟨1, 0⟩ (.text "x")
    let s' := s.display ⟨0, 1⟩ (.number 7)
    s.formula? ⟨0, 0⟩ ≠ none ∧ s.formula? ⟨1, 0⟩ = none ∧ SameInput s s' ∧
      s.evaluateCell? e ⟨0, 0⟩ = some ((s.calculate e).2.value ⟨0, 0⟩) ∧
      (s.calculate e).2.value ⟨1, 0⟩ = s.value ⟨1, 0⟩ ∧
      (s'.calculate e).1 = (s.calculate e).1 ∧
      (s'.calculate e).2.value ⟨0, 0⟩ = (s.calculate e).2.value ⟨0, 0⟩ := by
  intro e s s'
  have ha : s.formula? ⟨0, 0⟩ ≠ none := by decide +kernel
  have hb : s.formula? ⟨1, 0⟩ = none := by decide +kernel
  have hinput : SameInput s s' := by
    refine ⟨fun _ => rfl, fun c hc => ?_⟩
    rw [value_display]
    split
    · next hcell =>
      subst hcell
      exact absurd hc (by decide +kernel)
    · rfl
  obtain ⟨hcells, -, hvalue, -, -, -, -, hsame⟩ := s.calculate_settles e
  exact ⟨ha, hb, hinput, (hcells _ ha).1, hvalue _ hb, (hsame s' hinput).1,
    ((hsame s' hinput).2 _).2⟩

end Sheet

end Spreadsheet
