import Spreadsheet.Proofs.Grid.Range
import Spreadsheet.Proofs.Sheet.Formulas
import Spreadsheet.Sheet.Basic

/-!
# What sheets keep

A sheet keeps no blank values (`Sheet.NoBlanks`). So it is the same as another one as soon as every
cell holds the same, and the cells that it keeps something for are those that display something or
have a formula (`Sheet.NoBlanks.mem_usedCells`). The used range is the least rectangle with these
cells (`Sheet.NoBlanks.encloses_usedRange`).
-/

namespace Spreadsheet.Sheet

/-! ## Contents of cells -/

/-- A formula that is set is that of its cell. -/
theorem formula?_setContent_formula (s : Sheet) (c a : Coord) (text : String) :
    (s.setContent c (.formula text)).formula? a = if c = a then some text else s.formula? a :=
  s.formulas.get?_insert c a text

/-- Content that a cell is given is no other cell's. -/
theorem setContent_of_ne {c a : Coord} (h : c ≠ a) (s : Sheet) (x : Content) :
    (s.setContent c x).value a = s.value a ∧ (s.setContent c x).formula? a = s.formula? a := by
  cases x with
  | formula text => exact ⟨rfl, (formula?_setContent_formula s c a text).trans (if_neg h)⟩
  | value v =>
    refine ⟨?_, ?_⟩
    · exact (value_setValue s c a v).trans (if_neg h)
    · exact (formula?_setValue s c a v).trans (if_neg h)

/-! ## Sheets without blank values -/

/-- Whether all values that a sheet keeps are others than blank. -/
def NoBlanks (s : Sheet) : Prop :=
  ∀ c : Coord, s.values[c]? ≠ some .blank

/-- A new sheet keeps no blanks. -/
theorem noBlanks_empty (name : String) : (empty name).NoBlanks := by
  intro c
  simp [empty]

/-- Displaying a value keeps no blank, as a blank is left out. -/
theorem NoBlanks.display {s : Sheet} (h : s.NoBlanks) (c : Coord) (v : Value) :
    (s.display c v).NoBlanks := by
  intro a
  cases v with
  | blank =>
    simp only [Sheet.display, Value.isBlank, if_true, Std.ExtTreeMap.getElem?_erase]
    split
    · rintro ⟨⟩
    · exact h a
  | number | text =>
    simp only [Sheet.display, Value.isBlank, Bool.false_eq_true, if_false,
      Std.ExtTreeMap.getElem?_insert]
    split
    · rintro ⟨⟩
    · exact h a

/-- Setting a content keeps no blank, as a blank is left out. -/
theorem NoBlanks.setContent {s : Sheet} (h : s.NoBlanks) (c : Coord) (x : Content) :
    (s.setContent c x).NoBlanks := by
  cases x with
  | formula text => exact h
  | value v => exact NoBlanks.display (s := { s with formulas := s.formulas.erase c }) h c v

/-- A value that is kept is the value of its cell, and without blank ones no other value is. -/
theorem NoBlanks.getElem?_values {s : Sheet} (h : s.NoBlanks) (c : Coord) :
    s.values[c]? = if s.value c = .blank then none else some (s.value c) := by
  rw [value, Std.ExtTreeMap.getD_eq_getD_getElem?]
  cases hc : s.values[c]? with
  | none => rfl
  | some v =>
    have hv : v ≠ .blank := fun hv => h c (by rw [hc, hv])
    rw [Option.getD_some, if_neg hv]

/-- Two sheets of one name whose cells hold the same are the same. -/
theorem NoBlanks.ext {s s' : Sheet} (h : s.NoBlanks) (h' : s'.NoBlanks) (hname : s.name = s'.name)
    (hvalue : ∀ c, s.value c = s'.value c) (hformula : ∀ c, s.formula? c = s'.formula? c) :
    s = s' := by
  have hvalues : s.values = s'.values := Std.ExtTreeMap.ext_getElem? fun c => by
    rw [h.getElem?_values, h'.getElem?_values, hvalue]
  have hformulas : s.formulas = s'.formulas :=
    Formulas.ext hformula
  obtain ⟨name, values, formulas⟩ := s
  cases hname
  cases hvalues
  cases hformulas
  rfl

/-! ## Used cells -/

/-- The cells that are listed are those in use. -/
theorem mem_usedCells {s : Sheet} {c : Coord} : c ∈ s.usedCells ↔ s.isUsed c = true := by
  rw [usedCells, isUsed, Bool.or_eq_true, List.mem_append, Std.ExtTreeMap.mem_keys,
    Formulas.mem_cells]
  exact Iff.rfl

/-- A cell that is not used has neither a value nor a formula. -/
theorem eq_of_not_isUsed {s : Sheet} {c : Coord} (h : s.isUsed c = false) :
    s.value c = .blank ∧ s.formula? c = none := by
  rw [isUsed, Bool.or_eq_false_iff, Formulas.contains_eq, Option.isSome_eq_false_iff,
    Option.isNone_iff_eq_none] at h
  exact ⟨Std.ExtTreeMap.getD_eq_fallback_of_contains_eq_false h.1, h.2⟩

/-- The cells that a sheet keeps something for display something or have a formula. -/
theorem NoBlanks.mem_usedCells {s : Sheet} (h : s.NoBlanks) {c : Coord} :
    c ∈ s.usedCells ↔ s.value c ≠ .blank ∨ s.formula? c ≠ none := by
  rw [Sheet.mem_usedCells, isUsed, Bool.or_eq_true, Formulas.contains_eq,
    ← Std.ExtTreeMap.isSome_getElem?_eq_contains, h.getElem?_values]
  by_cases hv : s.value c = .blank <;> simp [hv, formula?, Option.isSome_iff_ne_none]

/-- There is no used range if no cell displays something or has a formula. -/
theorem NoBlanks.usedRange?_eq_none {s : Sheet} (h : s.NoBlanks) :
    s.usedRange? = none ↔ ∀ c, s.value c = .blank ∧ s.formula? c = none := by
  rw [usedRange?, Range.around?_eq_none, List.eq_nil_iff_forall_not_mem]
  simp [h.mem_usedCells]

/-- The used range lies in those rectangles that have all cells that display something or have a
formula. -/
theorem NoBlanks.encloses_usedRange {s : Sheet} (h : s.NoBlanks) {r r' : Range}
    (hr : s.usedRange? = some r) :
    r'.Encloses r ↔ ∀ c, s.value c ≠ .blank ∨ s.formula? c ≠ none → r'.contains c = true := by
  rw [Range.encloses_around? hr]
  simp only [h.mem_usedCells]

end Spreadsheet.Sheet
