import Spreadsheet.Proofs.Csv.Layout

/-!
# Texts kept in tables

A sheet of texts that is written as a table, and read again without looking for numbers and
formulas, is the same sheet (`Sheet.ofCsv_toCsv_texts`), whatever the texts look like. A sheet that
is read keeps no blank values (`Sheet.noBlanks_ofCsv`).
-/

namespace Spreadsheet

open Csv

/-! ## Reading texts -/

namespace Csv.Reading

variable {o : Reading} {s s' : Sheet}

variable {I : Sheet → Prop}

/-- What holds of a sheet however a field is put into it holds after all fields of a row. -/
theorem placeFields_induction
    (hfield : ∀ s c field, I s → I (s.setContent c (o.content c.row field))) {row col : Nat}
    {fields : List String} (h : I s) (hplace : o.placeFields row col s fields = .ok s') : I s' := by
  induction fields generalizing s col with
  | nil =>
    cases hplace
    exact h
  | cons field fields ih =>
    rw [placeFields] at hplace
    split at hplace
    · exact ih h hplace
    · split at hplace
      · cases hplace
      · exact ih (hfield s ⟨row, col⟩ field h) hplace

/-- What holds of a sheet however a field is put into it holds after all records. -/
theorem placeRecords_induction
    (hfield : ∀ s c field, I s → I (s.setContent c (o.content c.row field))) {row : Nat}
    {rs : List Record} (h : I s) (hplace : o.placeRecords row s rs = .ok s') : I s' := by
  induction rs generalizing s row with
  | nil =>
    cases hplace
    exact h
  | cons r rs ih =>
    rw [placeRecords] at hplace
    obtain ⟨texts, -, hplace⟩ := exists_of_bind_eq_ok hplace
    obtain ⟨s₁, hfields, hplace⟩ := exists_of_bind_eq_ok hplace
    exact ih (placeFields_induction hfield h hfields) hplace

/-- Without numbers and formulas every field is the text that it is, in the header and below. -/
theorem content_of_texts (hnumbers : o.numbers = false) (hformulas : o.formulas = false)
    (row : Nat) (field : String) : o.content row field = .value (.text field) := by
  rw [content, hnumbers, hformulas, Bool.false_and, if_neg Bool.false_ne_true,
    if_neg Bool.false_ne_true, ite_self]

end Csv.Reading

namespace Sheet

/-- What holds of an empty sheet, and of a sheet however a field is put into it, holds of every
sheet that is read. -/
theorem ofCsv_induction {I : Sheet → Prop} {o : Csv.Reading} (hempty : I (empty o.name))
    (hfield : ∀ s c field, I s → I (s.setContent c (o.content c.row field)))
    {octets : List UInt8} {s : Sheet} (h : ofCsv o octets = .ok s) : I s :=
  Reading.placeRecords_induction hfield hempty h

/-- A sheet that is read keeps no blank values. -/
theorem noBlanks_ofCsv {o : Csv.Reading} {octets : List UInt8} {s : Sheet}
    (h : ofCsv o octets = .ok s) : s.NoBlanks :=
  ofCsv_induction (noBlanks_empty o.name) (fun _ c _ hs => hs.setContent c _) h

/-! ## Round trip -/

/-- Whether a sheet has no formulas and keeps nothing but texts that are not empty. -/
structure OnlyTexts (s : Sheet) : Prop where
  formula : ∀ c, s.formula? c = none
  text : ∀ (c : Coord) (v : Value), s.values[c]? = some v → ∃ t, t ≠ "" ∧ v = .text t

theorem onlyTexts_empty (name : String) : (empty name).OnlyTexts where
  formula c := Formulas.get?_empty c
  text c v h := by simp [empty] at h

/-- A text that is not empty may be put into any cell. -/
theorem OnlyTexts.setValue {s : Sheet} (h : s.OnlyTexts) (c : Coord) {t : String} (ht : t ≠ "") :
    (s.setValue c (.text t)).OnlyTexts where
  formula a := by rw [formula?_setValue, h.formula a, ite_self]
  text a v hv := by
    change (s.values.insert c (.text t))[a]? = some v at hv
    rw [Std.ExtTreeMap.getElem?_insert] at hv
    split at hv
    · cases hv
      exact ⟨t, ht, rfl⟩
    · exact h.text a v hv

theorem OnlyTexts.noBlanks {s : Sheet} (h : s.OnlyTexts) : s.NoBlanks := by
  intro c hc
  obtain ⟨t, -, ⟨⟩⟩ := h.text c _ hc

/-- What is written for a cell is its text, which stands for itself. -/
theorem OnlyTexts.cell_fieldText {s : Sheet} (h : s.OnlyTexts) {o : Csv.Reading}
    (hnumbers : o.numbers = false) (hformulas : o.formulas = false) (f : Csv.Format) (c : Coord) :
    o.cell (s.fieldText f) c = .value (s.value c) := by
  have hfield : s.fieldText f c = (s.value c).toText := by
    rw [fieldText, h.formula c, ite_self]
  rw [Reading.cell, hfield, Reading.content_of_texts hnumbers hformulas]
  cases hc : s.values[c]? with
  | none =>
    have hv : s.value c = .blank := by
      rw [value, Std.ExtTreeMap.getD_eq_getD_getElem?, hc, Option.getD_none]
    rw [hv]
    rfl
  | some v =>
    obtain ⟨t, ht, rfl⟩ := h.text c v hc
    have hv : s.value c = .text t := by
      rw [value, Std.ExtTreeMap.getD_eq_getD_getElem?, hc, Option.getD_some]
    rw [hv]
    exact if_neg ht

/-- **A table keeps texts.** A sheet that has no formulas and keeps nothing but texts, in cells of
the grid, is read from its table as the sheet that it is, if numbers and formulas are not looked
for. The table must not begin with a byte order mark. -/
theorem ofCsv_toCsv_texts {s : Sheet} {o : Csv.Reading} {f : Csv.Format} (hd : o.dialect.Proper)
    (hsame : f.dialect = o.dialect) (hnumbers : o.numbers = false) (hformulas : o.formulas = false)
    (hgrid : ∀ c, s.isUsed c = true → c.InGrid) (hs : s.OnlyTexts)
    (hmark : (s.fieldText f ⟨0, 0⟩).toList.head? ≠ some '\uFEFF') :
    ofCsv o (s.toCsv f) = .ok { s with name := o.name } := by
  obtain ⟨s', hread, hname, hholds⟩ := holds_ofCsv_toCsv hd hsame hgrid hmark
  have hcell : ∀ c, s'.formula? c = none ∧ s'.value c = s.value c := fun c => by
    have hc := hholds c
    rwa [hs.cell_fieldText hnumbers hformulas f c] at hc
  have heq : s' = { s with name := o.name } :=
    (noBlanks_ofCsv hread).ext hs.noBlanks hname (fun c => (hcell c).2)
      fun c => (hcell c).1.trans (hs.formula c).symm
  rw [hread, heq]

/-- A header, an empty row, and texts that look like a formula, a number, blanks and ends of lines
or have quotes and delimiters, between apostrophes. -/
theorem ofCsv_toCsv_texts_header :
    let s := ((((empty "").setValue ⟨0, 1⟩ (.text "=A1")).setValue ⟨0, 2⟩ (.text "12")).setValue
      ⟨2, 0⟩ (.text " \r\n")).setValue ⟨2, 1⟩ (.text "'it''s';")
    let d : Csv.Dialect := { delimiter := 0x3B, quote := 0x27 }
    let o : Csv.Reading := { dialect := d, hasHeader := true, numbers := false, formulas := false }
    let f : Csv.Format := { dialect := d, lineEnd := .crlf }
    o.dialect.Proper ∧ (∀ c, s.isUsed c = true → c.InGrid) ∧ s.OnlyTexts ∧
      (s.fieldText f ⟨0, 0⟩).toList.head? ≠ some '\uFEFF' ∧
      ofCsv o (s.toCsv f) = .ok { s with name := "Sheet1" } := by
  intro s d o f
  have hd : o.dialect.Proper := by constructor <;> decide
  have hs : s.OnlyTexts :=
    ((((onlyTexts_empty "").setValue _ (by decide)).setValue _ (by decide)).setValue _
      (by decide)).setValue _ (by decide)
  have hgrid : ∀ c, s.isUsed c = true → c.InGrid := by
    have hkeys : s.usedCells =
        [⟨0, 1⟩, ⟨0, 2⟩, ⟨2, 0⟩, ⟨2, 1⟩] := by decide +kernel
    intro c hc
    have hmem := mem_usedCells.2 hc
    rw [hkeys] at hmem
    have hcases : c = ⟨0, 1⟩ ∨ c = ⟨0, 2⟩ ∨ c = ⟨2, 0⟩ ∨ c = ⟨2, 1⟩ := by simpa using hmem
    rcases hcases with rfl | rfl | rfl | rfl <;> decide
  have hmark : (s.fieldText f ⟨0, 0⟩).toList.head? ≠ some '\uFEFF' := by decide +kernel
  exact ⟨hd, hgrid, hs, hmark, ofCsv_toCsv_texts hd rfl rfl rfl hgrid hs hmark⟩

end Sheet

end Spreadsheet
