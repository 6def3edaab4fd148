import Spreadsheet.Proofs.Csv.Layout
import Spreadsheet.Proofs.Number.Display

/-!
# Sheets read back from tables

A sheet whose cells hold what was put into them, written with its formulas and read again, has the
same formulas and the same plain values, and nothing else (`Sheet.ofCsv_toCsv`). What is displayed
by cells with formulas is not written.
-/

namespace Spreadsheet

open Text

/-! ## Values read back from their texts -/

namespace Value

/-- A text that input stands for is the input itself. -/
theorem eq_of_ofInput_eq_text {raw s : String} (h : ofInput raw = .text s) : raw = s := by
  unfold ofInput at h
  split at h
  · cases h
  · split at h <;> cases h
    rfl

/-- What plain input stands for is what its text stands for, and its text is no formula. A number is
read back as an equal one if its text is a numeral of such a number. -/
theorem same_ofInput_toText {v : Value} {raw : String} (hraw : isFormulaText raw = false)
    (hv : v = ofInput raw) (hnumber : ∀ n, v = .number n → Number.ReadsBack n) :
    isFormulaText v.toText = false ∧ (ofInput v.toText).same v = true := by
  cases v with
  | blank => exact ⟨rfl, rfl⟩
  | number n =>
    obtain ⟨m, hread, hsame⟩ := hnumber n rfl
    obtain ⟨hplain, hinput⟩ := ofInput_of_ofText? hread
    refine ⟨hplain, ?_⟩
    rw [toText, hinput]
    exact hsame
  | text s =>
    obtain rfl := eq_of_ofInput_eq_text hv.symm
    refine ⟨hraw, ?_⟩
    rw [toText, ← hv]
    exact beq_self_eq_true raw

end Value

/-! ## Cells read as input -/

namespace Csv.Reading

variable {o : Reading} {text : Coord → String} {c : Coord}

theorem cell_of_isFormulaText (hheader : o.hasHeader = false) (hformulas : o.formulas = true)
    (h : Value.isFormulaText (text c) = true) : o.cell text c = .formula (text c) := by
  have hne : text c ≠ "" := fun hempty => by
    rw [hempty] at h
    cases h
  rw [cell, if_neg hne, content, hheader, hformulas, h]
  rfl

theorem cell_of_not_isFormulaText (hheader : o.hasHeader = false) (hnumbers : o.numbers = true)
    (h : Value.isFormulaText (text c) = false) : o.cell text c = .value (.ofInput (text c)) := by
  unfold cell
  split
  · next hempty =>
    rw [hempty]
    rfl
  · rw [content, hheader, hnumbers, h, Bool.and_false]
    rfl

end Csv.Reading

/-! ## Sheets that input makes -/

namespace Sheet

/-- A sheet as input leaves it: formulas begin with `=`, and cells without one have what plain input
stands for. -/
structure AsInput (s : Sheet) : Prop where
  formula : ∀ c text, s.formula? c = some text → Value.isFormulaText text = true
  plain : ∀ c, s.formula? c = none →
    ∃ raw, Value.isFormulaText raw = false ∧ s.value c = .ofInput raw

theorem asInput_empty (name : String) : (empty name).AsInput where
  formula c text h := by cases (Formulas.get?_empty c).symm.trans h
  plain c _ := ⟨"", rfl, value_empty name c⟩

/-- Input leaves a sheet as input leaves it. -/
theorem AsInput.setInput {s : Sheet} (h : s.AsInput) (c : Coord) (raw : String) :
    (s.setInput c raw).AsInput := by
  unfold Sheet.setInput Content.ofInput
  split
  · next hraw =>
    refine ⟨fun a text ha => ?_, fun a ha => ?_⟩
    · rw [formula?_setContent_formula] at ha
      split at ha
      · cases ha
        exact hraw
      · exact h.formula a text ha
    · rw [formula?_setContent_formula] at ha
      split at ha
      · cases ha
      · exact h.plain a ha
  · next hraw =>
    refine ⟨fun a text ha => ?_, fun a ha => ?_⟩
    · rw [setContent, formula?_setValue] at ha
      split at ha
      · cases ha
      · exact h.formula a text ha
    · rw [setContent, formula?_setValue] at ha
      rw [setContent, value_setValue]
      split at ha
      · next hc =>
        rw [if_pos hc]
        exact ⟨raw, Bool.eq_false_iff.2 hraw, rfl⟩
      · next hc =>
        rw [if_neg hc]
        exact h.plain a ha

/-! ## Round trip -/

/-- **A table keeps what was put into a sheet.** A sheet with all cells in the grid that is written
with its formulas is read as a sheet with the same formulas and the same plain values, and nothing
else. The table must not begin with a byte order mark, and numbers that are not shown as integers
must be shown as numerals of themselves. -/
theorem ofCsv_toCsv {s : Sheet} {d : Csv.Dialect} (hd : d.Proper) (lineEnd : Csv.LineEnd)
    (name : String) (hgrid : ∀ c, s.isUsed c = true → c.InGrid) (hinput : s.AsInput)
    (hmark : (s.fieldText { formulas := true } ⟨0, 0⟩).toList.head? ≠ some '\uFEFF')
    (hdisplay : ∀ c n, s.formula? c = none → s.value c = .number n →
      Number.showsInteger n = false → Number.ReadsBack n) :
    ∃ s', ofCsv { dialect := d, name } (s.toCsv { dialect := d, formulas := true, lineEnd }) =
        .ok s' ∧
      ∀ c, s'.formula? c = s.formula? c ∧
        (s.formula? c = none → (s'.value c).same (s.value c) = true) ∧
        (s.formula? c ≠ none → s'.value c = .blank) := by
  obtain ⟨s', hread, -, hholds⟩ := holds_ofCsv_toCsv (o := { dialect := d, name })
    (f := { dialect := d, formulas := true, lineEnd }) hd rfl hgrid hmark
  refine ⟨s', hread, fun c => ?_⟩
  have hc := hholds c
  cases hformula : s.formula? c with
  | some text =>
    have htext : s.fieldText { dialect := d, formulas := true, lineEnd } c = text := by
      rw [fieldText, if_pos rfl, hformula]
    have hbegins := hinput.formula c text hformula
    rw [Csv.Reading.cell_of_isFormulaText rfl rfl (by rwa [htext]), htext] at hc
    exact ⟨hc.1, fun h => absurd h (Option.some_ne_none _), fun _ => hc.2⟩
  | none =>
    have htext :
        s.fieldText { dialect := d, formulas := true, lineEnd } c = (s.value c).toText := by
      rw [fieldText, if_pos rfl, hformula]
    have hnumber : ∀ n, s.value c = .number n → Number.ReadsBack n := fun n hn => by
      cases hinteger : Number.showsInteger n with
      | false => exact hdisplay c n hformula hn hinteger
      | true => exact Number.readsBack_of_showsInteger hinteger
    obtain ⟨raw, hraw, hvalue⟩ := hinput.plain c hformula
    obtain ⟨hplain, hsame⟩ := Value.same_ofInput_toText hraw hvalue hnumber
    rw [Csv.Reading.cell_of_not_isFormulaText rfl rfl (by rwa [htext]), htext] at hc
    refine ⟨hc.1, fun _ => ?_, fun h => absurd rfl h⟩
    rw [hc.2]
    exact hsame

/-- A formula with a delimiter and quotes, an empty row, text with blanks around a line feed, and
two numbers, one of which is not shown as an integer. -/
theorem ofCsv_toCsv_input :
    let s := ((((empty "").setInput ⟨0, 1⟩ "=SUM(A3,\"1\")").setInput ⟨2, 0⟩ " a\n ").setInput
      ⟨2, 1⟩ "-7").setInput ⟨2, 3⟩ "2.5"
    ∃ s', ofCsv {} (s.toCsv { formulas := true, lineEnd := .crlf }) = .ok s' ∧
      s'.formula? ⟨0, 1⟩ = some "=SUM(A3,\"1\")" ∧ s'.value ⟨0, 1⟩ = .blank ∧
      (s'.value ⟨2, 0⟩).same (.text " a\n ") = true ∧
      (s'.value ⟨2, 3⟩).same (.number 2.5) = true := by
  intro s
  have hd : ({} : Csv.Dialect).Proper := by constructor <;> decide
  have hinput : s.AsInput :=
    ((((asInput_empty "").setInput _ _).setInput _ _).setInput _ _).setInput _ _
  have hkeys : s.usedCells =
      [⟨2, 0⟩, ⟨2, 1⟩, ⟨2, 3⟩, ⟨0, 1⟩] := by decide +kernel
  have hused : ∀ c, s.isUsed c = true → c = ⟨2, 0⟩ ∨ c = ⟨2, 1⟩ ∨ c = ⟨2, 3⟩ ∨ c = ⟨0, 1⟩ := by
    intro c hc
    have hmem := mem_usedCells.2 hc
    rw [hkeys] at hmem
    simpa using hmem
  have hgrid : ∀ c, s.isUsed c = true → c.InGrid := by
    intro c hc
    rcases hused c hc with rfl | rfl | rfl | rfl <;> decide
  have hmark : (s.fieldText { formulas := true } ⟨0, 0⟩).toList.head? ≠ some '\uFEFF' := by
    decide +kernel
  have hdisplay : ∀ c n, s.formula? c = none → s.value c = .number n →
      Number.showsInteger n = false → Number.ReadsBack n := by
    intro c n hformula hvalue hinteger
    have hc : s.isUsed c = true := eq_true_of_ne_false fun h => by
      rw [(eq_of_not_isUsed h).1] at hvalue
      cases hvalue
    rcases hused c hc with rfl | rfl | rfl | rfl
    · rw [show s.value ⟨2, 0⟩ = .text " a\n " by decide +kernel] at hvalue
      cases hvalue
    · rw [show s.value ⟨2, 1⟩ = .number (-7) by decide +kernel] at hvalue
      cases hvalue
      exact absurd hinteger (by decide +kernel)
    · rw [show s.value ⟨2, 3⟩ = .number 2.5 by decide +kernel] at hvalue
      cases hvalue
      exact ⟨2.5, by decide +kernel, by decide +kernel⟩
    · exact absurd hformula (by decide +kernel)
  obtain ⟨s', hread, hcells⟩ := ofCsv_toCsv hd .crlf "Sheet1" hgrid hinput hmark hdisplay
  have hformula : s.formula? ⟨0, 1⟩ = some "=SUM(A3,\"1\")" := by decide +kernel
  have htext : s.formula? ⟨2, 0⟩ = none := by decide +kernel
  have hnumber : s.formula? ⟨2, 3⟩ = none := by decide +kernel
  refine ⟨s', hread, (hcells _).1.trans hformula, ?_, ?_, ?_⟩
  · exact (hcells _).2.2 (by rw [hformula]; exact Option.some_ne_none _)
  · have hsame := (hcells _).2.1 htext
    rwa [show s.value ⟨2, 0⟩ = .text " a\n " by decide +kernel] at hsame
  · have hsame := (hcells _).2.1 hnumber
    rwa [show s.value ⟨2, 3⟩ = .number 2.5 by decide +kernel] at hsame

end Sheet

end Spreadsheet
