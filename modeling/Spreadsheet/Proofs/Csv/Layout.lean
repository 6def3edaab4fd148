import Spreadsheet.Csv.Sheet
import Spreadsheet.Proofs.Csv.Table
import Spreadsheet.Proofs.Sheet.Used
import Spreadsheet.Proofs.Text.Utf8

/-!
# Sheets read back cell by cell

A sheet that is written as a table and read again has in every cell what the text written for that
cell stands for, and nothing where no text was written (`holds_ofCsv_toCsv`). Fields are put into
the sheet row by row: the invariant is that the cells before a place hold what they will hold at the
end and all others are empty (`ReadUpTo`).
-/

namespace Spreadsheet

open Csv

/-! ## What a cell holds -/

/-- Whether a cell of a sheet holds some content and nothing else: a plain value and no formula, or
a formula that displays nothing yet. -/
def Sheet.Holds (s : Sheet) (c : Coord) : Content → Prop
  | .value v => s.formula? c = none ∧ s.value c = v
  | .formula text => s.formula? c = some text ∧ s.value c = .blank

namespace Sheet

theorem holds_empty (name : String) (c : Coord) : (empty name).Holds c (.value .blank) :=
  ⟨Formulas.get?_empty c, value_empty name c⟩

/-- A cell that holds nothing holds the content that it is given. -/
theorem Holds.setContent_self {s : Sheet} {c : Coord} (h : s.Holds c (.value .blank))
    (x : Content) : (s.setContent c x).Holds c x := by
  cases x with
  | formula text => exact ⟨by rw [formula?_setContent_formula, if_pos rfl], h.2⟩
  | value v =>
    refine ⟨?_, ?_⟩
    · exact (formula?_setValue s c c v).trans (if_pos rfl)
    · exact (value_setValue s c c v).trans (if_pos rfl)

/-- The other cells hold what they held. -/
theorem Holds.setContent_of_ne {s : Sheet} {c a : Coord} {y : Content} (h : s.Holds a y)
    (hne : c ≠ a) (x : Content) : (s.setContent c x).Holds a y := by
  obtain ⟨hvalue, hformula⟩ := Sheet.setContent_of_ne hne s x
  cases y <;> exact ⟨hformula.trans h.1, hvalue.trans h.2⟩

end Sheet

/-! ## Reading rows -/

namespace Csv

/-- What the text of a cell stands for. -/
def Reading.cell (o : Reading) (text : Coord → String) (c : Coord) : Content :=
  if text c = "" then .value .blank else o.content c.row (text c)

/-- Whether the cells before a place, row by row, are read and the others hold nothing. -/
def Reading.ReadUpTo (o : Reading) (text : Coord → String) (s : Sheet) (place : Coord) : Prop :=
  ∀ c, s.Holds c (if Ord.compare c place = .lt then o.cell text c else .value .blank)

variable {o : Reading} {text : Coord → String} {s : Sheet} {row col : Nat}

namespace Reading

theorem readUpTo_empty : o.ReadUpTo text (.empty o.name) ⟨0, 0⟩ := by
  intro c
  have hfirst : ¬ Ord.compare c ⟨0, 0⟩ = .lt := by
    rw [Coord.compare_lt_iff]
    dsimp only
    omega
  rw [if_neg hfirst]
  exact Sheet.holds_empty _ _

/-- One more cell is read: it is given what its text stands for, if it has text. -/
theorem ReadUpTo.next (h : o.ReadUpTo text s ⟨row, col⟩) :
    o.ReadUpTo text
      (if text ⟨row, col⟩ = "" then s
        else s.setContent ⟨row, col⟩ (o.content row (text ⟨row, col⟩)))
      ⟨row, col + 1⟩ := by
  intro c
  have hc := h c
  by_cases heq : ⟨row, col⟩ = c
  · subst heq
    have hbefore : Ord.compare (Coord.mk row col) ⟨row, col + 1⟩ = .lt := by
      rw [Coord.compare_lt_iff]
      dsimp only
      omega
    have hself : ¬ Ord.compare (Coord.mk row col) ⟨row, col⟩ = .lt := by
      rw [Coord.compare_lt_iff]
      omega
    rw [if_neg hself] at hc
    rw [if_pos hbefore, cell]
    by_cases htext : text ⟨row, col⟩ = ""
    · rw [if_pos htext, if_pos htext]
      exact hc
    · rw [if_neg htext, if_neg htext]
      exact hc.setContent_self _
  · have hsame : Ord.compare c ⟨row, col + 1⟩ = .lt ↔ Ord.compare c ⟨row, col⟩ = .lt := by
      have hne : ¬ (row = c.row ∧ col = c.col) := fun ⟨hrow, hcol⟩ => heq (by rw [hrow, hcol])
      rw [Coord.compare_lt_iff, Coord.compare_lt_iff]
      dsimp only
      omega
    simp only [hsame]
    split
    · exact hc
    · exact hc.setContent_of_ne heq _

/-- A row is read as soon as no text is left in it. -/
theorem ReadUpTo.nextRow {cols : Nat} (h : o.ReadUpTo text s ⟨row, cols⟩)
    (hcols : ∀ c, text c ≠ "" → c.col < cols) : o.ReadUpTo text s ⟨row + 1, 0⟩ := by
  intro c
  have hc := h c
  by_cases htext : text c = ""
  · rw [cell, if_pos htext, ite_self] at hc ⊢
    exact hc
  · have hsame : Ord.compare c ⟨row + 1, 0⟩ = .lt ↔ Ord.compare c ⟨row, cols⟩ = .lt := by
      have hcol := hcols c htext
      rw [Coord.compare_lt_iff, Coord.compare_lt_iff]
      dsimp only
      omega
    simp only [hsame]
    exact hc

/-- All cells are read as soon as no text is left below. -/
theorem ReadUpTo.holds {rows : Nat} (h : o.ReadUpTo text s ⟨rows, 0⟩)
    (hrows : ∀ c, text c ≠ "" → c.row < rows) (c : Coord) : s.Holds c (o.cell text c) := by
  have hc := h c
  by_cases htext : text c = ""
  · rw [cell, if_pos htext] at hc ⊢
    rwa [ite_self] at hc
  · rwa [if_pos (Coord.compare_lt_iff.2 (.inl (hrows c htext)))] at hc

/-- The fields of a row are put into the cells of the row, one after the other. -/
theorem placeFields_range (hgrid : ∀ c, text c ≠ "" → c.InGrid)
    (h : o.ReadUpTo text s ⟨row, col⟩) (n : Nat) :
    ∃ s', o.placeFields row col s ((List.range' col n).map fun col => text ⟨row, col⟩) = .ok s' ∧
      o.ReadUpTo text s' ⟨row, col + n⟩ ∧ s'.name = s.name := by
  induction n generalizing s col with
  | zero => exact ⟨s, rfl, h, rfl⟩
  | succ n ih =>
    obtain ⟨s', hplace, hread, hname⟩ := ih h.next
    rw [List.range'_succ, List.map_cons, placeFields]
    rw [Nat.add_right_comm] at hread
    by_cases hempty : text ⟨row, col⟩ = ""
    · rw [if_pos hempty] at hplace hname ⊢
      exact ⟨s', hplace, hread, hname⟩
    · have hin : ¬ (maxRows ≤ row ∨ maxCols ≤ col) := by
        obtain ⟨hrow, hcol⟩ := hgrid _ hempty
        dsimp only at hrow hcol
        omega
      rw [if_neg hempty] at hplace hname
      rw [if_neg hempty, if_neg hin]
      refine ⟨s', hplace, hread, hname.trans ?_⟩
      cases o.content row (text ⟨row, col⟩) <;> rfl

end Reading

/-- Numbered fields that are written for some texts are read one by one as these texts. -/
theorem mapM_zipIdx_encode {read : List UInt8 × Nat → Except CsvError String}
    (hread : ∀ text n, read (Text.Utf8.encode text, n) = .ok text) (written : List String)
    (n : Nat) : ((written.map Text.Utf8.encode).zipIdx n).mapM read = .ok written := by
  induction written generalizing n with
  | nil => rfl
  | cons text written ih =>
    rw [List.map_cons, List.zipIdx_cons, List.mapM_cons, hread, ih]
    rfl

/-- The fields of a record that is written for some texts are these texts. -/
theorem Record.texts_eq {r : Record} {written : List String}
    (h : r.fields = written.map Text.Utf8.encode) : r.texts = .ok written := by
  rw [texts, h]
  refine mapM_zipIdx_encode (fun text n => ?_) written 0
  dsimp only
  rw [Text.Utf8.decode_encode]
  rfl

/-- The records of rows are put into the rows, one after the other. -/
theorem Reading.placeRecords_range {cols : Nat} {rs : List Record}
    (hgrid : ∀ c, text c ≠ "" → c.InGrid) (hcols : ∀ c, text c ≠ "" → c.col < cols)
    (h : o.ReadUpTo text s ⟨row, 0⟩) {rows : Nat}
    (hrs : rs.map (·.fields) = (List.range' row rows).map fun row =>
      (List.range cols).map fun col => Text.Utf8.encode (text ⟨row, col⟩)) :
    ∃ s', o.placeRecords row s rs = .ok s' ∧ o.ReadUpTo text s' ⟨row + rows, 0⟩ ∧
      s'.name = s.name := by
  induction rows generalizing s row rs with
  | zero =>
    rw [List.range'_zero, List.map_nil, List.map_eq_nil_iff] at hrs
    subst hrs
    exact ⟨s, rfl, h, rfl⟩
  | succ rows ih =>
    rw [List.range'_succ, List.map_cons, List.map_eq_cons_iff] at hrs
    obtain ⟨r, rs, rfl, hr, hrs⟩ := hrs
    obtain ⟨s₁, hplace₁, hread₁, hname₁⟩ := Reading.placeFields_range hgrid h cols
    rw [Nat.zero_add] at hread₁
    obtain ⟨s', hplace, hread, hname⟩ := ih (hread₁.nextRow hcols) hrs
    have htexts : r.texts = .ok ((List.range' 0 cols).map fun col => text ⟨row, col⟩) := by
      apply Record.texts_eq
      rw [hr, List.map_map, List.range_eq_range']
      rfl
    refine ⟨s', ?_, ?_, hname.trans hname₁⟩
    · rw [Reading.placeRecords, htexts]
      change (o.placeFields row 0 s _ >>= _) = _
      rw [hplace₁]
      exact hplace
    · rwa [Nat.add_right_comm] at hread

end Csv

namespace Sheet

/-- A cell that is written as some text is used. -/
theorem isUsed_of_fieldText {s : Sheet} {f : Csv.Format} {c : Coord} (h : s.fieldText f c ≠ "") :
    s.isUsed c = true :=
  eq_true_of_ne_false fun hunused => h <| by
    rw [fieldText, (eq_of_not_isUsed hunused).1, (eq_of_not_isUsed hunused).2, ite_self]
    rfl

/-! ## The first octets -/

/-- The first field of several is followed by a delimiter. -/
theorem intercalate_fields (d : Dialect) (bytes : List UInt8) (rest : List (List UInt8)) :
    ∃ more, (more = [] ∧ rest = [] ∨ more.head? = some d.delimiter) ∧
      [d.delimiter].intercalate ((bytes :: rest).map d.field) = d.field bytes ++ more := by
  cases rest with
  | nil => exact ⟨[], .inl ⟨rfl, rfl⟩, by simp⟩
  | cons bytes' rest =>
    refine ⟨d.delimiter :: [d.delimiter].intercalate ((bytes' :: rest).map d.field), .inr rfl, ?_⟩
    rw [List.map_cons, List.map_cons, List.intercalate_cons_cons, List.append_assoc]
    rfl

/-- A record begins with a quote, a delimiter or the first character of its first field. -/
theorem first_of_record (d : Dialect) (text : String) (rest : List (List UInt8)) :
    (∃ b after, (b = d.quote ∨ b = d.delimiter) ∧
      d.record (Text.Utf8.encode text :: rest) = b :: after) ∨
    ∃ c after, text.toList.head? = some c ∧
      d.record (Text.Utf8.encode text :: rest) = Text.Utf8.encodeChar c ++ after := by
  unfold Dialect.record
  split
  · exact .inl ⟨d.quote, _, .inl rfl, rfl⟩
  · next hempty =>
    obtain ⟨more, hmore, hfields⟩ := intercalate_fields d (Text.Utf8.encode text) rest
    rw [hfields, Dialect.field]
    split
    · exact .inl ⟨d.quote, _, .inl rfl, rfl⟩
    · cases htext : text.toList with
      | nil =>
        have hnone : Text.Utf8.encode text = [] := by rw [Text.Utf8.encode, htext]; rfl
        rcases hmore with ⟨-, hrest⟩ | hmore
        · exact absurd (by rw [hnone, hrest]) hempty
        · obtain ⟨after, hafter⟩ := List.head?_eq_some_iff.1 hmore
          exact .inl ⟨d.delimiter, after, .inr rfl, by rw [hnone, hafter]; rfl⟩
      | cons c cs =>
        refine .inr ⟨c, cs.flatMap Text.Utf8.encodeChar ++ more, rfl, ?_⟩
        rw [Text.Utf8.encode, htext, List.flatMap_cons, List.append_assoc]

/-- A table does not begin with a byte order mark unless the text of its first field does. -/
theorem not_isPrefixOf_write {d : Dialect} (hd : d.Proper) (lineEnd : LineEnd) {text : String}
    (htext : text.toList.head? ≠ some '\uFEFF') (rest : List (List UInt8))
    (table : List (List (List UInt8))) :
    byteOrderMark.isPrefixOf (Csv.write d lineEnd ((Text.Utf8.encode text :: rest) :: table)) =
      false := by
  refine Bool.eq_false_iff.2 fun hmark => ?_
  obtain ⟨octets, hmark⟩ := List.isPrefixOf_iff_prefix.1 hmark
  rw [Csv.write, List.flatMap_cons, List.append_assoc] at hmark
  rcases first_of_record d text rest with ⟨b, after, hb, hrecord⟩ | ⟨c, after, hc, hrecord⟩
  · rw [hrecord] at hmark
    have hfirst : 0xEF = b := (List.cons.inj hmark).1
    subst hfirst
    rcases hb with hb | hb
    · exact absurd (hb ▸ hd.quote_lt) (by decide)
    · exact absurd (hb ▸ hd.delimiter_lt) (by decide)
  · rw [hrecord, List.append_assoc] at hmark
    have hfirst := Text.Utf8.eq_of_encodeChar_append hmark.symm
    exact htext (hc.trans (congrArg some hfirst))

/-! ## Round trip -/

/-- The records of a sheet are its rows, which have fields. -/
theorem toRecords_eq {s : Sheet} {r : Range} (h : s.usedRange? = some r) (f : Csv.Format) :
    s.toRecords f = (List.range' 0 (r.bottomRight.row + 1)).map fun row =>
      (List.range (r.bottomRight.col + 1)).map fun col =>
        Text.Utf8.encode (s.fieldText f ⟨row, col⟩) := by
  rw [toRecords, h, ← List.range_eq_range']
  rfl

theorem ne_nil_of_mem_toRecords {s : Sheet} {f : Csv.Format} {fields : List (List UInt8)}
    (h : fields ∈ s.toRecords f) : fields ≠ [] := by
  cases hrange : s.usedRange? with
  | none =>
    rw [toRecords, hrange] at h
    cases h
  | some r =>
    rw [toRecords_eq hrange] at h
    obtain ⟨row, -, rfl⟩ := List.mem_map.1 h
    simp

/-- The records of the written table are those of the sheet, if it does not begin with a byte order
mark. -/
theorem fields_records_toCsv {s : Sheet} {f : Csv.Format} (hd : f.dialect.Proper)
    (hmark : (s.fieldText f ⟨0, 0⟩).toList.head? ≠ some '\uFEFF') :
    (records f.dialect (s.toCsv f)).map (·.fields) = s.toRecords f := by
  refine fields_records hd f.lineEnd (fun fields => ne_nil_of_mem_toRecords) ?_
  cases hrange : s.usedRange? with
  | none =>
    rw [toRecords, hrange]
    rfl
  | some r =>
    rw [toRecords_eq hrange, List.range'_succ, List.map_cons, List.range_succ_eq_map,
      List.map_cons]
    exact not_isPrefixOf_write hd f.lineEnd hmark _ _

/-- A sheet that is written and read again has in each cell what the text written for it stands
for. -/
theorem holds_ofCsv_toCsv {s : Sheet} {o : Csv.Reading} {f : Csv.Format} (hd : o.dialect.Proper)
    (hsame : f.dialect = o.dialect) (hgrid : ∀ c, s.isUsed c = true → c.InGrid)
    (hmark : (s.fieldText f ⟨0, 0⟩).toList.head? ≠ some '\uFEFF') :
    ∃ s', ofCsv o (s.toCsv f) = .ok s' ∧ s'.name = o.name ∧
      ∀ c, s'.Holds c (o.cell (s.fieldText f) c) := by
  have hread := fields_records_toCsv (hsame ▸ hd) hmark
  have hused : ∀ c, s.fieldText f c ≠ "" → c ∈ s.usedCells :=
    fun c h => mem_usedCells.2 (isUsed_of_fieldText h)
  rw [ofCsv, ← hsame]
  generalize records f.dialect (s.toCsv f) = table at hread
  cases hrange : s.usedRange? with
  | none =>
    rw [toRecords, hrange, List.map_eq_nil_iff] at hread
    subst hread
    refine ⟨.empty o.name, rfl, rfl, Reading.readUpTo_empty.holds fun c h => ?_⟩
    have hc := hused c h
    rw [Range.around?_eq_none.1 hrange] at hc
    cases hc
  | some r =>
    have hlast : ∀ c, s.fieldText f c ≠ "" →
        c.row ≤ r.bottomRight.row ∧ c.col ≤ r.bottomRight.col := by
      intro c h
      have hc := Range.contains_iff.1 (Range.contains_around? hrange (hused c h))
      exact ⟨hc.1.2, hc.2.2⟩
    obtain ⟨s', hplace, hread', hname⟩ := Reading.placeRecords_range (s := .empty o.name)
      (fun c h => hgrid c (isUsed_of_fieldText h)) (fun c h => Nat.lt_succ_of_le (hlast c h).2)
      Reading.readUpTo_empty (hread.trans (toRecords_eq hrange f))
    rw [Nat.zero_add] at hread'
    exact ⟨s', hplace, hname, hread'.holds fun c h => Nat.lt_succ_of_le (hlast c h).1⟩

end Sheet

end Spreadsheet
