import Spreadsheet.Proofs.Sheet.Recalculation
import Spreadsheet.Proofs.Sheet.Used

/-!
# Sheets through edits

A sheet is a pair of maps, of values and of formulas, that every edit changes in one cell only
(`CellEdit.change_of_ne`), but for a calculation, which changes what formula cells display. What the
maps may keep is an invariant of all edits (`Sheet.Proper`). An edit fails for its own sake, not for
the sake of the sheet (`CellEdit.apply_eq`), and the sheet is then left as it is.
-/

namespace Spreadsheet

/-! ## Edits -/

/-- An edit of one cell. -/
inductive CellEdit where
  | setValue (c : Coord) (v : Value)
  | setValueAt (address : String) (v : Value)
  | setFormula (c : Coord) (text : String)
  | setFormulaAt (address text : String)
  | setInput (c : Coord) (raw : String)
  | setInputAt (address raw : String)
  | display (c : Coord) (v : Value)
  | clear (c : Coord)
  | commit (e : Evaluator) (c : Coord) (raw : String)
  | commitAt (e : Evaluator) (address raw : String)

/-- An edit of one cell, or a calculation. -/
inductive Edit where
  | cell (edit : CellEdit)
  | calculate (e : Evaluator)

namespace CellEdit

/-- The sheet after an edit that does not fail. -/
def apply (s : Sheet) : CellEdit → Except GridError Sheet
  | setValue c v => .ok (s.setValue c v)
  | setValueAt address v => s.setValueAt address v
  | setFormula c text => s.setFormula c text
  | setFormulaAt address text => s.setFormulaAt address text
  | setInput c raw => .ok (s.setInput c raw)
  | setInputAt address raw => s.setInputAt address raw
  | display c v => .ok (s.display c v)
  | clear c => .ok (s.clear c)
  | commit e c raw => .ok (s.commit e c raw).2
  | commitAt e address raw => (s.commitAt e address raw).map (·.2)

/-- The cell that is edited. -/
def cell : CellEdit → Except GridError Coord
  | setValue c _ | setFormula c _ | setInput c _ | display c _ | clear c | commit _ c _ => .ok c
  | setValueAt address _ | setFormulaAt address _ | setInputAt address _ | commitAt _ address _ =>
    Coord.parse address

/-- Why a text may not be stored: an edit may want it to be a formula. -/
def textFault? : CellEdit → Option GridError
  | setFormula _ text | setFormulaAt _ text =>
    if text.toList.head? = some '=' then none else some (.notAFormula text)
  | _ => none

/-- Why an edit fails: its address is none, or else its text is no formula. -/
def fault? (edit : CellEdit) : Option GridError :=
  match edit.cell with
  | .ok _ => edit.textFault?
  | .error error => some error

/-- What an edit makes of a sheet in the cell that is edited. -/
def change (s : Sheet) (c : Coord) : CellEdit → Sheet
  | setValue _ v | setValueAt _ v => s.setValue c v
  | setFormula _ text | setFormulaAt _ text => s.setContent c (.formula text)
  | setInput _ raw | setInputAt _ raw => s.setInput c raw
  | display _ v => s.display c v
  | clear _ => s.clear c
  | commit e _ raw | commitAt e _ raw => (s.commit e c raw).2

end CellEdit

namespace Sheet

/-- The sheet after an edit, which is left as it is if the edit fails. -/
def after (s : Sheet) : Edit → Sheet
  | .cell edit =>
    match edit.apply s with
    | .ok s' => s'
    | .error _ => s
  | .calculate e => (s.calculate e).2

/-- Whether a sheet keeps no blank values and no formulas but those that begin with `=`. -/
structure Proper (s : Sheet) : Prop where
  noBlanks : s.NoBlanks
  formula : ∀ c text, s.formula? c = some text → text.toList.head? = some '='

end Sheet

/-! ## What an edit does -/

namespace Sheet

variable {c a : Coord}

/-- Displaying a value changes no other cell. -/
theorem display_of_ne (h : c ≠ a) (s : Sheet) (v : Value) :
    (s.display c v).value a = s.value a ∧ (s.display c v).formula? a = s.formula? a := by
  simp [value_display, h]

/-- Clearing a cell changes no other cell. -/
theorem clear_of_ne (h : c ≠ a) (s : Sheet) :
    (s.clear c).value a = s.value a ∧ (s.clear c).formula? a = s.formula? a := by
  simp [value_clear, formula?_clear, h]

/-- Committing input changes no other cell. -/
theorem commit_of_ne (h : c ≠ a) (s : Sheet) (e : Evaluator) (raw : String) :
    (s.commit e c raw).2.value a = s.value a ∧ (s.commit e c raw).2.formula? a = s.formula? a := by
  obtain ⟨hvalue, hformula⟩ := setContent_of_ne h s (.ofInput raw)
  unfold commit
  split
  · obtain ⟨hvalue', hformula'⟩ := display_of_ne h (s.setInput c raw) (s.evaluate e (some c) raw)
    exact ⟨hvalue'.trans hvalue, hformula'.trans hformula⟩
  · exact ⟨hvalue, hformula⟩

end Sheet

namespace CellEdit

/-- A text is a formula if it begins with `=`. -/
theorem isFormulaText_iff {text : String} :
    Value.isFormulaText text = true ↔ text.toList.head? = some '=' := by
  rw [Value.isFormulaText, beq_iff_eq]

/-- A formula is set if it begins with `=`, and fails to be else. -/
theorem setFormula_eq (s : Sheet) (c : Coord) (text : String) :
    s.setFormula c text = if text.toList.head? = some '=' then .ok (s.setContent c (.formula text))
      else .error (.notAFormula text) := by
  simp only [Sheet.setFormula, isFormulaText_iff]
  rfl

/-- An edit that does not fail changes its cell. -/
theorem apply_eq (edit : CellEdit) (s : Sheet) :
    edit.apply s = match edit.fault? with
      | some error => .error error
      | none => edit.cell.map fun c => edit.change s c := by
  cases edit with
  | setValue c v | setInput c raw | display c v | clear c | commit e c raw => rfl
  | setFormula c text =>
    simp only [apply, fault?, cell, textFault?, setFormula_eq]
    split <;> rfl
  | setValueAt address v =>
    simp only [apply, fault?, cell, textFault?, Sheet.setValueAt]
    cases Coord.parse address <;> rfl
  | setInputAt address raw =>
    simp only [apply, fault?, cell, textFault?, Sheet.setInputAt]
    cases Coord.parse address <;> rfl
  | commitAt e address raw =>
    simp only [apply, fault?, cell, textFault?, Sheet.commitAt]
    cases Coord.parse address <;> rfl
  | setFormulaAt address text =>
    simp only [apply, fault?, cell, textFault?, Sheet.setFormulaAt]
    cases Coord.parse address with
    | error error => rfl
    | ok c =>
      change s.setFormula c text = _
      rw [setFormula_eq]
      split <;> rfl

variable {edit : CellEdit} {s : Sheet} {error : GridError}

/-- An edit fails for its own sake. -/
theorem apply_eq_error : edit.apply s = .error error ↔ edit.fault? = some error := by
  rw [apply_eq]
  cases hfault : edit.fault? with
  | some error' => simp
  | none =>
    have hcell : ∃ c, edit.cell = .ok c := by
      unfold fault? at hfault
      split at hfault
      · next c hc => exact ⟨c, hc⟩
      · cases hfault
    obtain ⟨c, hc⟩ := hcell
    rw [hc]
    exact iff_of_false nofun nofun

/-- The sheet after an edit is the one before, or the cell of the edit is changed in it. -/
theorem after_eq (edit : CellEdit) (s : Sheet) :
    s.after (.cell edit) = s ∨
      ∃ c, edit.cell = .ok c ∧ edit.textFault? = none ∧ s.after (.cell edit) = edit.change s c := by
  rw [Sheet.after, apply_eq, fault?]
  cases edit.cell with
  | error error => exact .inl rfl
  | ok c =>
    cases htext : edit.textFault? with
    | some error => exact .inl rfl
    | none => exact .inr ⟨c, rfl, rfl, rfl⟩

/-- An edit changes neither value nor formula of any other cell. -/
theorem change_of_ne {c a : Coord} (h : c ≠ a) (edit : CellEdit) (s : Sheet) :
    (edit.change s c).value a = s.value a ∧ (edit.change s c).formula? a = s.formula? a := by
  cases edit with
  | setValue _ v | setValueAt _ v => exact Sheet.setContent_of_ne h s (.value v)
  | setFormula _ text | setFormulaAt _ text => exact Sheet.setContent_of_ne h s (.formula text)
  | setInput _ raw | setInputAt _ raw => exact Sheet.setContent_of_ne h s (.ofInput raw)
  | display _ v => exact Sheet.display_of_ne h s v
  | clear _ => exact Sheet.clear_of_ne h s
  | commit e _ raw | commitAt e _ raw => exact Sheet.commit_of_ne h s e raw

end CellEdit

namespace Sheet

variable {s : Sheet}

/-! ## What a sheet keeps -/

/-- A new sheet keeps no blanks and no formulas. -/
theorem proper_empty (name : String) : (empty name).Proper where
  noBlanks := noBlanks_empty name
  formula c text h := by simp [formula?, empty] at h

/-- Displaying a value keeps a sheet proper. -/
theorem Proper.display (h : s.Proper) (c : Coord) (v : Value) : (s.display c v).Proper :=
  ⟨h.noBlanks.display c v, h.formula⟩

/-- Clearing a cell keeps a sheet proper. -/
theorem Proper.clear (h : s.Proper) (c : Coord) : (s.clear c).Proper where
  noBlanks a := by
    change (s.values.erase c)[a]? ≠ _
    rw [Std.ExtTreeMap.getElem?_erase]
    split
    · exact nofun
    · exact h.noBlanks a
  formula a text ha := by
    rw [formula?_clear] at ha
    split at ha
    · cases ha
    · exact h.formula a text ha

/-- A content that is no other text than a formula's keeps a sheet proper. -/
theorem Proper.setContent (h : s.Proper) (c : Coord) {x : Content}
    (hx : ∀ text, x = .formula text → text.toList.head? = some '=') :
    (s.setContent c x).Proper where
  noBlanks := h.noBlanks.setContent c x
  formula a text ha := by
    by_cases hca : c = a
    · subst hca
      cases x with
      | formula text' =>
        rw [formula?_setContent_formula, if_pos rfl] at ha
        cases ha
        exact hx text rfl
      | value v =>
        rw [Sheet.setContent, formula?_setValue, if_pos rfl] at ha
        cases ha
    · rw [(setContent_of_ne hca s x).2] at ha
      exact h.formula a text ha

/-- Input keeps a sheet proper. -/
theorem Proper.setInput (h : s.Proper) (c : Coord) (raw : String) : (s.setInput c raw).Proper := by
  refine h.setContent c fun text htext => ?_
  unfold Content.ofInput at htext
  split at htext
  · next hraw =>
    cases htext
    exact CellEdit.isFormulaText_iff.1 hraw
  · cases htext

/-- Committing input keeps a sheet proper. -/
theorem Proper.commit (h : s.Proper) (e : Evaluator) (c : Coord) (raw : String) :
    (s.commit e c raw).2.Proper := by
  unfold Sheet.commit
  split
  · exact (h.setInput c raw).display c _
  · exact h.setInput c raw

/-- A calculation keeps a sheet proper. -/
theorem Proper.calculate (h : s.Proper) (e : Evaluator) : (s.calculate e).2.Proper :=
  List.foldlRecOn (s.results e) _ h fun _ hs (c, v) _ => hs.display c v

/-- Every edit keeps a sheet proper, whether it fails or not. -/
theorem Proper.after (h : s.Proper) (edit : Edit) : (s.after edit).Proper := by
  cases edit with
  | calculate e => exact h.calculate e
  | cell edit =>
    rcases edit.after_eq s with heq | ⟨c, -, htext, heq⟩
    · rwa [heq]
    rw [heq]
    cases edit with
    | setValue _ v | setValueAt _ v => exact h.setContent c (x := .value v) nofun
    | setFormula _ text | setFormulaAt _ text =>
      have hformula : text.toList.head? = some '=' := by
        simpa [CellEdit.textFault?] using htext
      refine h.setContent c (x := .formula text) fun text' htext' => ?_
      cases htext'
      exact hformula
    | setInput _ raw | setInputAt _ raw => exact h.setInput c raw
    | display _ v => exact h.display c v
    | clear _ => exact h.clear c
    | commit e _ raw | commitAt e _ raw => exact h.commit e c raw

/-- Any edits one after the other keep a sheet proper. -/
theorem Proper.foldl_after (h : s.Proper) (edits : List Edit) :
    (edits.foldl Sheet.after s).Proper := by
  induction edits generalizing s with
  | nil => exact h
  | cons edit edits ih => exact ih (h.after edit)

/-- **A sheet is a pair of maps.** After any edits, whatever they are, no value that is kept is
blank and every formula begins with `=`. An edit fails for its own sake, that is if its address is
none or its text no formula, and then the sheet is left as it is. An edit of one cell changes
neither value nor formula of any other, and a calculation changes no formula and no value but those
of formula cells. There is no used range if no cell displays something or has a formula, and else it
is the least rectangle with all the cells that do. -/
theorem foldl_after_faithful (name : String) (edits : List Edit) :
    let s := edits.foldl after (empty name)
    (∀ c : Coord, s.values[c]? ≠ some .blank) ∧
    (∀ c text, s.formula? c = some text → text.toList.head? = some '=') ∧
    (∀ (edit : CellEdit) error, edit.apply s = .error error ↔ edit.fault? = some error) ∧
    (∀ edit : CellEdit, edit.fault? ≠ none → s.after (.cell edit) = s) ∧
    (∀ (edit : CellEdit) a, edit.cell ≠ .ok a →
      (s.after (.cell edit)).value a = s.value a ∧
      (s.after (.cell edit)).formula? a = s.formula? a) ∧
    (∀ e a, (s.after (.calculate e)).formula? a = s.formula? a ∧
      (s.formula? a = none → (s.after (.calculate e)).value a = s.value a)) ∧
    (s.usedRange? = none ↔ ∀ c, s.value c = .blank ∧ s.formula? c = none) ∧
    ∀ r, s.usedRange? = some r →
      (∀ c, s.value c ≠ .blank ∨ s.formula? c ≠ none → r.contains c = true) ∧
      ∀ r' : Range, (∀ c, s.value c ≠ .blank ∨ s.formula? c ≠ none → r'.contains c = true) →
        ∀ c, r.contains c = true → r'.contains c = true := by
  intro s
  have hs : s.Proper := (proper_empty name).foldl_after edits
  refine ⟨hs.noBlanks, hs.formula, fun edit error => CellEdit.apply_eq_error, fun edit h => ?_,
    fun edit a h => ?_,
    fun e a => ⟨s.formula?_calculate e a, fun ha => value_calculate_of_none ha e⟩,
    hs.noBlanks.usedRange?_eq_none, fun r hr => ⟨?_, fun r' h c hc => ?_⟩⟩
  · obtain ⟨error, herror⟩ := Option.ne_none_iff_exists'.1 h
    rw [after, CellEdit.apply_eq_error.2 herror]
  · rcases edit.after_eq s with heq | ⟨c, hc, -, heq⟩
    · rw [heq]
      exact ⟨rfl, rfl⟩
    · rw [heq]
      refine edit.change_of_ne ?_ s
      rintro rfl
      exact h hc
  · exact (hs.noBlanks.encloses_usedRange hr).1 r.encloses_refl
  · exact ((hs.noBlanks.encloses_usedRange hr).2 h).contains hc

/-- Values, a formula that is calculated, a bad address, a text that is no formula, and a blank
value that takes a cell out of the used range. -/
theorem foldl_after_faithful_shrunk :
    let e : Evaluator := { surroundings := ⟨0, 0⟩ }
    let edits : List Edit :=
      [.cell (.setValueAt "B2" (.number 1)), .cell (.setFormula ⟨4, 3⟩ "=B2+1"),
        .cell (.setInputAt "F9" "x"), .cell (.setInputAt "2B" "x"), .cell (.setFormulaAt "A1" "B2"),
        .calculate e, .cell (.display ⟨8, 5⟩ .blank)]
    let s := edits.foldl after (empty "")
    let r : Range := .ofCorners ⟨1, 1⟩ ⟨4, 3⟩
    s.values[(⟨4, 3⟩ : Coord)]? = some (.number 2) ∧ s.formula? ⟨4, 3⟩ = some "=B2+1" ∧
      "=B2+1".toList.head? = some '=' ∧
      (CellEdit.setFormulaAt "A1" "B2").fault? = some (.notAFormula "B2") ∧
      s.after (.cell (.setFormulaAt "A1" "B2")) = s ∧
      (CellEdit.clear ⟨1, 1⟩).cell ≠ .ok ⟨4, 3⟩ ∧
      (s.after (.cell (.clear ⟨1, 1⟩))).value ⟨4, 3⟩ = s.value ⟨4, 3⟩ ∧
      s.formula? ⟨1, 1⟩ = none ∧
      (s.after (.calculate e)).value ⟨1, 1⟩ = s.value ⟨1, 1⟩ ∧
      s.usedRange? = some r ∧ (s.value ⟨1, 1⟩ ≠ .blank ∨ s.formula? ⟨1, 1⟩ ≠ none) ∧
      r.contains ⟨1, 1⟩ = true := by
  intro e edits s r
  obtain ⟨-, hformula, -, hleft, hother, hcalculate, -, hused⟩ :=
    foldl_after_faithful "" edits
  have hcell : s.formula? ⟨4, 3⟩ = some "=B2+1" := by decide +kernel
  have hfault : (CellEdit.setFormulaAt "A1" "B2").fault? = some (.notAFormula "B2") := by
    decide +kernel
  have hne : (CellEdit.clear ⟨1, 1⟩).cell ≠ .ok ⟨4, 3⟩ := by
    decide +kernel
  have hnone : s.formula? ⟨1, 1⟩ = none := by decide +kernel
  have hrange : s.usedRange? = some r := by decide +kernel
  have hvalue : s.value ⟨1, 1⟩ ≠ .blank ∨ s.formula? ⟨1, 1⟩ ≠ none := by decide +kernel
  exact ⟨by decide +kernel, hcell, hformula _ _ hcell, hfault,
    hleft _ (by rw [hfault]; exact nofun), hne, (hother _ _ hne).1, hnone,
    (hcalculate e _).2 hnone, hrange, hvalue, (hused r hrange).1 _ hvalue⟩

end Sheet

end Spreadsheet
