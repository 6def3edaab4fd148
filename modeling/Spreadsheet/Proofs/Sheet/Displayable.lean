import Spreadsheet.Proofs.Csv.Texts
import Spreadsheet.Proofs.Evaluation.Displayable
import Spreadsheet.Proofs.Sheet.Recalculation

/-!
# Sheets that can be displayed

A sheet that is filled by input, by tables and by calculations (`Sheet.Entered`) keeps nothing but
text and finite numbers, whatever its formulas compute (`Sheet.results_displayable`). For input is
finite where it is a number, and so are then the results of formulas.
-/

namespace Spreadsheet.Sheet

/-- Whether all values that a sheet keeps can be displayed. -/
def Displayable (s : Sheet) : Prop :=
  ∀ (c : Coord) (v : Value), s.values[c]? = some v → v.Displayable

/-- A sheet that is filled without the setting of single values: by input, by tables that are read,
and by calculations that draw finite numbers. -/
inductive Entered : Sheet → Prop
  | empty (name : String) : Entered (empty name)
  | read {o : Csv.Reading} {octets : List UInt8} {s : Sheet} (h : ofCsv o octets = .ok s) :
    Entered s
  | setInput {s : Sheet} (h : Entered s) (c : Coord) (raw : String) : Entered (s.setInput c raw)
  | commit {s : Sheet} (h : Entered s) {e : Evaluator}
    (hrandom : e.surroundings.random.IsFinite) (c : Coord) (raw : String) :
    Entered (s.commit e c raw).2
  | calculate {s : Sheet} (h : Entered s) {e : Evaluator}
    (hrandom : e.surroundings.random.IsFinite) : Entered (s.calculate e).2

variable {s : Sheet} {e : Evaluator}

/-! ## What keeps a sheet displayable -/

/-- A new sheet can be displayed. -/
theorem displayable_empty (name : String) : (empty name).Displayable := by
  intro c v hv
  simp [empty] at hv

/-- The values of a sheet that can be displayed are finite. -/
theorem Displayable.isFinite_value (h : s.Displayable) (c : Coord) : (s.value c).IsFinite := by
  rw [value, Std.ExtTreeMap.getD_eq_getD_getElem?]
  cases hc : s.values[c]? with
  | none => trivial
  | some v => exact (h c v hc).isFinite

/-- What formulas are evaluated over is finite. -/
theorem Displayable.isFinite_contents (h : s.Displayable) (c : Coord) (v : Value)
    (hv : s.contents c = .value v) : v.IsFinite := by
  unfold contents at hv
  split at hv
  · cases hv
  · cases hv
    exact h.isFinite_value c

/-- A formula in a sheet that can be displayed has a result that can be. -/
theorem Displayable.evaluate (h : s.Displayable)
    (hrandom : e.surroundings.random.IsFinite) (current : Option Coord)
    (text : String) : (s.evaluate e current text).Displayable :=
  Evaluator.displayable_evaluate hrandom h.isFinite_contents current text

/-- A finite value may be displayed. -/
theorem Displayable.display (h : s.Displayable) (c : Coord) {v : Value} (hv : v.IsFinite) :
    (s.display c v).Displayable := by
  intro a w hw
  unfold Sheet.display at hw
  dsimp only at hw
  split at hw
  · rw [Std.ExtTreeMap.getElem?_erase] at hw
    split at hw
    · cases hw
    · exact h a w hw
  · next hblank =>
    rw [Std.ExtTreeMap.getElem?_insert] at hw
    split at hw
    · cases hw
      refine hv.displayable ?_
      rintro rfl
      exact hblank rfl
    · exact h a w hw

/-- A content may be set if it is no value that cannot be displayed. -/
theorem Displayable.setContent (h : s.Displayable) (c : Coord) {x : Content}
    (hx : ∀ v, x = .value v → v.IsFinite) : (s.setContent c x).Displayable := by
  cases x with
  | formula text => exact h
  | value v =>
    have herased : Displayable { s with formulas := s.formulas.erase c } := h
    exact herased.display c (hx v rfl)

/-- Input leaves a sheet displayable. -/
theorem Displayable.setInput (h : s.Displayable) (c : Coord) (raw : String) :
    (s.setInput c raw).Displayable := by
  refine h.setContent c fun v hv => ?_
  unfold Content.ofInput at hv
  split at hv
  · cases hv
  · cases hv
    exact Value.isFinite_ofInput raw

/-- Committing input leaves a sheet displayable. -/
theorem Displayable.commit (h : s.Displayable)
    (hrandom : e.surroundings.random.IsFinite) (c : Coord) (raw : String) :
    (s.commit e c raw).2.Displayable := by
  unfold Sheet.commit
  split
  · exact (h.setInput c raw).display c (h.evaluate hrandom (some c) raw).isFinite
  · exact h.setInput c raw

/-- A calculation leaves a sheet displayable. -/
theorem Displayable.calculate (h : s.Displayable)
    (hrandom : e.surroundings.random.IsFinite) : (s.calculate e).2.Displayable := by
  refine List.foldlRecOn (s.results e) _ h fun s' hs' (c, v) hresult => hs'.display c ?_
  obtain ⟨text, -, rfl⟩ := mem_results.1 hresult
  exact (h.evaluate hrandom _ text).isFinite

/-- What a field of a table stands for is finite. -/
theorem isFinite_content {o : Csv.Reading} {row : Nat} {field : String} {v : Value}
    (h : o.content row field = .value v) : v.IsFinite := by
  unfold Csv.Reading.content at h
  split at h
  · cases h
    trivial
  · split at h
    · cases h
    · cases h
      split
      · exact Value.isFinite_ofInput field
      · trivial

/-- A table is read to a sheet that can be displayed. -/
theorem displayable_ofCsv {o : Csv.Reading} {octets : List UInt8} (h : ofCsv o octets = .ok s) :
    s.Displayable :=
  ofCsv_induction (displayable_empty o.name)
    (fun _ c _ hs => hs.setContent c fun _ hv => isFinite_content hv) h

/-- Everything that a sheet comes to keep can be displayed. -/
theorem Entered.displayable (h : s.Entered) : s.Displayable := by
  induction h with
  | empty name => exact displayable_empty name
  | read h => exact displayable_ofCsv h
  | setInput _ c raw ih => exact ih.setInput c raw
  | commit _ hrandom c raw ih => exact ih.commit hrandom c raw
  | calculate _ hrandom ih => exact ih.calculate hrandom

/-- **All results can be displayed.** Where all plain numbers are finite, and all that are drawn,
the result of a formula, if it has one, what a cell shows for it, and the values that formula cells
are settled with on the way are texts and finite numbers, and never blank. So a sheet that is filled
by input, by tables and by calculations keeps nothing but texts and finite numbers, and no formula
cell is blank after a calculation. -/
theorem results_displayable :
    (∀ (e : Evaluator) (cells : Cells) (current : Option Coord) (text : String),
      e.surroundings.random.IsFinite →
      (∀ c n, cells c = .value (.number n) → Number.isFinite n = true) →
      (∀ v, e.tryEvaluate cells current text = .ok v → v.Displayable) ∧
      (e.evaluate cells current text).Displayable ∧
      ∀ (c : Coord) (v : Value),
        (e.session cells current text).2.settled[c]? = some v → v.Displayable) ∧
    ∀ s : Sheet, s.Entered →
      (∀ (c : Coord) (v : Value), s.values[c]? = some v → v.Displayable) ∧
      ∀ (e : Evaluator) (c : Coord), s.formula? c ≠ none → (s.calculate e).2.value c ≠ .blank := by
  refine ⟨fun e cells current text hrandom hnumbers => ?_,
    fun s hs => ⟨hs.displayable, fun e c hc => ?_⟩⟩
  · have hplain : ∀ c v, cells c = .value v → v.IsFinite := by
      intro c v hv
      cases v with
      | blank | text => trivial
      | number n => exact hnumbers c n hv
    obtain ⟨hsettled, hresult⟩ := e.session_gives hrandom hplain current text
    exact ⟨hresult, Evaluator.displayable_evaluate hrandom hplain current text, hsettled⟩
  · obtain ⟨text, hc⟩ := Option.ne_none_iff_exists'.1 hc
    rw [value_calculate_of_formula hc]
    exact e.evaluate_ne_blank _ _ _

/-- A product that overflows, a blank that is handed back, and a sheet that is read from a table and
filled by input. -/
theorem results_displayable_overflow :
    let e : Evaluator := { surroundings := ⟨0, 0.5⟩ }
    let cells : Cells := fun c =>
      if c = ⟨0, 1⟩ then .formula "=1e308*10" else if c = ⟨0, 2⟩ then .value .blank
      else .value (.number 3)
    let text := "=IF(B1,A2,C1)"
    e.surroundings.random.IsFinite ∧
      (∀ c n, cells c = .value (.number n) → Number.isFinite n = true) ∧
      e.tryEvaluate cells none text = .ok (.text "") ∧ (Value.text "").Displayable ∧
      (e.evaluate cells none text).Displayable ∧
      (e.session cells none text).2.settled[(⟨0, 1⟩ : Coord)]? = some (.number 0) ∧
      (Value.number 0).Displayable ∧
      ∃ s, ofCsv {} (Text.Utf8.encode "1e308,=A1*10") = .ok s ∧
        let s' := (s.commit e ⟨1, 0⟩ "=RAND()").2
        s'.Entered ∧ s'.values[(⟨1, 0⟩ : Coord)]? = some (.number 0.5) ∧
          (Value.number 0.5).Displayable ∧
          s'.formula? ⟨0, 1⟩ = some "=A1*10" ∧ (s'.calculate e).2.value ⟨0, 1⟩ ≠ .blank := by
  intro e cells text
  have hrandom : e.surroundings.random.IsFinite := Supply.isFinite_always (by decide +kernel)
  have hplain : ∀ c n, cells c = .value (.number n) → Number.isFinite n = true := by
    intro c n hc
    simp only [cells] at hc
    split at hc
    · cases hc
    · split at hc
      · cases hc
      · cases hc
        decide +kernel
  have hresult : e.tryEvaluate cells none text = .ok (.text "") := by decide +kernel
  have hsettled : (e.session cells none text).2.settled[(⟨0, 1⟩ : Coord)]? = some (.number 0) := by
    decide +kernel
  have hread : (ofCsv {} (Text.Utf8.encode "1e308,=A1*10")).toOption.map (fun s =>
      let s' := (s.commit e ⟨1, 0⟩ "=RAND()").2
      (s'.values[(⟨1, 0⟩ : Coord)]?, s'.formula? ⟨0, 1⟩)) =
        some (some (.number 0.5), some "=A1*10") := by
    decide +kernel
  obtain ⟨hformulas, hsheets⟩ := results_displayable
  obtain ⟨hvalue, hshown, hcells⟩ := hformulas e cells none text hrandom hplain
  refine ⟨hrandom, hplain, hresult, hvalue _ hresult, hshown, hsettled, hcells _ _ hsettled, ?_⟩
  cases hs : ofCsv {} (Text.Utf8.encode "1e308,=A1*10") with
  | error error =>
    rw [hs] at hread
    cases hread
  | ok s =>
    rw [hs] at hread
    obtain ⟨hkept, hformula⟩ := Prod.mk.inj (Option.some.inj hread)
    have hentered : Entered (s.commit e ⟨1, 0⟩ "=RAND()").2 := (Entered.read hs).commit hrandom _ _
    obtain ⟨hdisplayable, hcalculated⟩ := hsheets _ hentered
    refine ⟨s, rfl, hentered, hkept, hdisplayable _ _ hkept, hformula, hcalculated e _ ?_⟩
    rw [hformula]
    exact nofun

end Spreadsheet.Sheet
