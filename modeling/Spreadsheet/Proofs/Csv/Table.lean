import Spreadsheet.Csv.Record
import Spreadsheet.Csv.Writing

/-!
# Tables read back

What is written as a table is read as the same records with the same fields (`fields_records`). One
octet brings a reader from one place to another (the lemmas of `Reader.At`); from these follows what
a field, a record and a line do. Where in the table a record was found plays no part.
-/

namespace Spreadsheet.Csv

/-- The octets of a dialect are ASCII and are taken neither for each other nor for an end of a
line. -/
structure Dialect.Proper (d : Dialect) : Prop where
  delimiter_lt : d.delimiter < 0x80
  quote_lt : d.quote < 0x80
  delimiter_ne_quote : d.delimiter ≠ d.quote
  delimiter_inLine : isLineEnd d.delimiter = false
  quote_inLine : isLineEnd d.quote = false

namespace Reader

/-- Where a reader stands, but for its position: at a place, with a field so far, fields before it
and records before these, each with the last first. -/
structure At (r : Reader) (place : Place) (field : List UInt8) (fields : List (List UInt8))
    (records : List (List (List UInt8))) : Prop where
  place_eq : r.place = place
  field_eq : r.field = field
  fields_eq : r.fields = fields
  records_eq : r.records.map (·.fields) = records

variable {d : Dialect} {r : Reader} {b : UInt8} {place : Place} {bytes field : List UInt8}
  {fields rest : List (List UInt8)} {records : List (List (List UInt8))}

/-! ## One octet -/

namespace At

/-- Going on to the next octet reads nothing. -/
theorem advance (h : r.At place field fields records) :
    (r.advance b).At place field fields records :=
  ⟨h.place_eq, h.field_eq, h.fields_eq, h.records_eq⟩

/-- A copied octet belongs to the field. -/
theorem copy (h : r.At place field fields records) (place' : Place) :
    (r.copy place' b).At place' (b :: field) fields records :=
  ⟨rfl, congrArg (b :: ·) h.field_eq, h.fields_eq, h.records_eq⟩

/-- The end of a field puts it behind those before it. -/
theorem endField (h : r.At place field fields records) :
    r.endField.At .fieldStart [] (field.reverse :: fields) records :=
  ⟨rfl, rfl, by rw [Reader.endField, h.field_eq, h.fields_eq], h.records_eq⟩

/-- The end of a record puts it behind those before it, with its last field. -/
theorem endRecord (h : r.At place field fields records) :
    r.endRecord.At .recordStart [] [] ((field.reverse :: fields).reverse :: records) := by
  refine ⟨rfl, rfl, rfl, ?_⟩
  rw [Reader.endRecord, List.map_cons, finishedFields, h.field_eq, h.fields_eq, h.records_eq]

/-- Outside of quotes every octet but a quote is read in one way, if it is not the end of a line
that has no other octet. -/
theorem step_eq (h : r.At place field fields records) (hp : place ≠ .quoted) (hb : b ≠ d.quote)
    (hend : place = .recordStart → isLineEnd b = false) :
    r.step d b = (r.advance b).plainStep d b := by
  have hplace := h.advance (b := b) |>.place_eq
  unfold step
  dsimp only
  rw [hplace]
  cases place with
  | recordStart =>
    dsimp only
    rw [hend rfl, if_neg Bool.false_ne_true, fieldStep, if_neg hb]
  | fieldStart => exact if_neg hb
  | plain => rfl
  | quoted => exact absurd rfl hp
  | quoteSeen => exact if_neg hb

/-- A delimiter outside of quotes ends a field. -/
theorem step_delimiter (hd : d.Proper) (h : r.At place field fields records)
    (hp : place ≠ .quoted) :
    (r.step d d.delimiter).At .fieldStart [] (field.reverse :: fields) records := by
  rw [h.step_eq hp hd.delimiter_ne_quote fun _ => hd.delimiter_inLine, plainStep, if_pos rfl]
  exact h.advance.endField

/-- An end of a line outside of quotes ends a record that has begun. -/
theorem step_lineEnd (hd : d.Proper) (h : r.At place field fields records)
    (hp : place ≠ .quoted) (hp' : place ≠ .recordStart) (hb : isLineEnd b = true) :
    (r.step d b).At .recordStart [] [] ((field.reverse :: fields).reverse :: records) := by
  have hquote : b ≠ d.quote := by
    rintro rfl
    rw [hd.quote_inLine] at hb
    cases hb
  have hdelimiter : b ≠ d.delimiter := by
    rintro rfl
    rw [hd.delimiter_inLine] at hb
    cases hb
  rw [h.step_eq hp hquote fun h => absurd h hp', plainStep, if_neg hdelimiter, if_pos hb]
  exact h.advance.endRecord

/-- A line without an octet is no record. -/
theorem step_emptyLine (h : r.At .recordStart field fields records) (hb : isLineEnd b = true) :
    (r.step d b).At .recordStart field fields records := by
  have hstep : r.step d b = r.advance b := by simp only [step, h.advance.place_eq, if_pos hb]
  rw [hstep]
  exact h.advance

/-- An octet without a meaning belongs to the field. -/
theorem step_plain (h : r.At place field fields records)
    (hp : place ≠ .quoted) (hb : d.isSpecial b = false) :
    (r.step d b).At .plain (b :: field) fields records := by
  simp only [Dialect.isSpecial, Bool.or_eq_false_iff, beq_eq_false_iff_ne] at hb
  obtain ⟨⟨hdelimiter, hquote⟩, hend⟩ := hb
  rw [h.step_eq hp hquote fun _ => hend, plainStep, if_neg hdelimiter, hend,
    if_neg Bool.false_ne_true]
  exact h.advance.copy _

/-- A quote at the start of a field opens quotes. -/
theorem step_open (hd : d.Proper) (h : r.At place [] fields records)
    (hp : place = .recordStart ∨ place = .fieldStart) :
    (r.step d d.quote).At .quoted [] fields records := by
  have hstep : r.step d d.quote = { r.advance d.quote with place := .quoted } := by
    rcases hp with rfl | rfl <;>
      simp only [step, h.advance.place_eq, hd.quote_inLine, Bool.false_eq_true, if_false, fieldStep,
        if_true]
  rw [hstep]
  exact ⟨rfl, h.field_eq, h.fields_eq, h.records_eq⟩

/-- In quotes every octet but a quote belongs to the field. -/
theorem step_quoted (h : r.At .quoted field fields records) (hb : b ≠ d.quote) :
    (r.step d b).At .quoted (b :: field) fields records := by
  have hstep : r.step d b = (r.advance b).copy .quoted b := by
    simp only [step, h.advance.place_eq, if_neg hb]
  rw [hstep]
  exact h.advance.copy _

/-- A quote in quotes may close them. -/
theorem step_quote (h : r.At .quoted field fields records) :
    (r.step d d.quote).At .quoteSeen field fields records := by
  have hstep : r.step d d.quote = { r.advance d.quote with place := .quoteSeen } := by
    simp only [step, h.advance.place_eq, if_true]
  rw [hstep]
  exact ⟨rfl, h.field_eq, h.fields_eq, h.records_eq⟩

/-- A quote after a quote stands for one quote. -/
theorem step_doubled (h : r.At .quoteSeen field fields records) :
    (r.step d d.quote).At .quoted (d.quote :: field) fields records := by
  have hstep : r.step d d.quote = (r.advance d.quote).copy .quoted d.quote := by
    simp only [step, h.advance.place_eq, if_true]
  rw [hstep]
  exact h.advance.copy _

/-! ## Fields -/

/-- Octets without a special one are read as they stand. -/
theorem foldl_plain (h : r.At place field fields records) (hp : place ≠ .quoted)
    (hbytes : ∀ b ∈ bytes, d.isSpecial b = false) (hne : bytes ≠ []) :
    (bytes.foldl (·.step d) r).At .plain (bytes.reverse ++ field) fields records := by
  induction bytes generalizing r place field with
  | nil => exact absurd rfl hne
  | cons b bytes ih =>
    have hb := h.step_plain hp (hbytes b (.head _))
    rw [List.foldl_cons, List.reverse_cons, List.append_assoc]
    cases bytes with
    | nil => exact hb
    | cons b' bytes =>
      exact ih hb (by decide) (fun b hb => hbytes b (.tail _ hb)) (List.cons_ne_nil _ _)

/-- Inside of quotes, doubled quotes are read as the octets that they were doubled in. -/
theorem foldl_doubled (h : r.At .quoted field fields records) (bytes : List UInt8) :
    ((d.doubled bytes).foldl (·.step d) r).At .quoted (bytes.reverse ++ field) fields records := by
  induction bytes generalizing r field with
  | nil => exact h
  | cons b bytes ih =>
    rw [Dialect.doubled, List.flatMap_cons, List.foldl_append, List.reverse_cons,
      List.append_assoc]
    refine ih ?_
    split
    · next hb =>
      subst hb
      exact h.step_quote.step_doubled
    · next hb => exact h.step_quoted hb

/-- A quoted field is read up to its closing quote. -/
theorem foldl_quoted (hd : d.Proper) (h : r.At place [] fields records)
    (hp : place = .recordStart ∨ place = .fieldStart) (bytes : List UInt8) :
    ((d.quoted bytes).foldl (·.step d) r).At .quoteSeen bytes.reverse fields records := by
  have hbytes := ((h.step_open hd hp).foldl_doubled (d := d) bytes).step_quote (d := d)
  rw [List.append_nil] at hbytes
  rw [Dialect.quoted, List.cons_append, List.foldl_cons, List.foldl_append]
  exact hbytes

/-- A written field is read where a field may begin. Where nothing of a record is read before, an
empty field leaves it so. -/
theorem foldl_field (hd : d.Proper) (h : r.At place [] fields records)
    (hp : place = .recordStart ∨ place = .fieldStart) (bytes : List UInt8) :
    ∃ place', ((d.field bytes).foldl (·.step d) r).At place' bytes.reverse fields records ∧
      place' ≠ .quoted ∧ (place' = .recordStart → place = .recordStart ∧ bytes = []) := by
  have hp' : place ≠ .quoted := by rcases hp with rfl | rfl <;> decide
  unfold Dialect.field
  split
  · exact ⟨_, h.foldl_quoted hd hp bytes, by decide, nofun⟩
  · next hspecial =>
    rw [List.any_eq_true, not_exists] at hspecial
    have hplain : ∀ b ∈ bytes, d.isSpecial b = false := fun b hb =>
      Bool.eq_false_iff.2 fun h => hspecial b ⟨hb, h⟩
    cases bytes with
    | nil => exact ⟨place, h, hp', fun h => ⟨h, rfl⟩⟩
    | cons b bytes =>
      have hread := h.foldl_plain hp' hplain (List.cons_ne_nil _ _)
      rw [List.append_nil] at hread
      exact ⟨_, hread, by decide, nofun⟩

end At

/-! ## Records -/

/-- A reader that has read the octets of a record, which the end of a line may follow. -/
def Ended (r : Reader) (fields : List (List UInt8)) (records : List (List (List UInt8))) : Prop :=
  ∃ place field before, r.At place field before records ∧ place ≠ .quoted ∧ place ≠ .recordStart ∧
    (field.reverse :: before).reverse = fields

/-- Written fields, with delimiters between, are read where a field may begin. -/
theorem At.foldl_fields (hd : d.Proper) (h : r.At place [] fields records)
    (hp : place = .recordStart ∨ place = .fieldStart)
    (hne : place = .recordStart → rest = [] → bytes ≠ []) :
    (([d.delimiter].intercalate ((bytes :: rest).map d.field)).foldl (·.step d) r).Ended
      (fields.reverse ++ bytes :: rest) records := by
  induction rest generalizing r place fields bytes with
  | nil =>
    obtain ⟨place', hfield, hplace', hstart⟩ := h.foldl_field hd hp bytes
    refine ⟨place', bytes.reverse, fields, ?_, hplace', ?_, ?_⟩
    · simpa using hfield
    · intro hrecord
      exact hne (hstart hrecord).1 rfl (hstart hrecord).2
    · simp
  | cons bytes' rest ih =>
    obtain ⟨place', hfield, hplace', -⟩ := h.foldl_field hd hp bytes
    have hnext := hfield.step_delimiter hd hplace'
    have hfields : fields.reverse ++ bytes :: bytes' :: rest =
        (bytes :: fields).reverse ++ bytes' :: rest := by
      rw [List.reverse_cons, List.append_assoc, List.singleton_append]
    rw [List.reverse_reverse] at hnext
    rw [List.map_cons, List.map_cons, List.intercalate_cons_cons, List.foldl_append,
      List.foldl_append, hfields]
    exact ih hnext (.inr rfl) nofun

/-- A written record is read. -/
theorem At.foldl_record (hd : d.Proper) (h : r.At .recordStart [] [] records)
    (hne : fields ≠ []) : ((d.record fields).foldl (·.step d) r).Ended fields records := by
  unfold Dialect.record
  split
  · exact ⟨_, _, _, h.foldl_quoted hd (.inl rfl) [], by decide, by decide, rfl⟩
  · next hempty =>
    obtain ⟨bytes, rest, rfl⟩ := List.exists_cons_of_ne_nil hne
    exact h.foldl_fields hd (.inl rfl) fun _ hrest hbytes => hempty (by rw [hrest, hbytes])

/-- The end of a line ends the record. Of two octets the second one ends a line without octets. -/
theorem Ended.foldl_lineEnd (hd : d.Proper) (h : r.Ended fields records) (lineEnd : LineEnd) :
    (lineEnd.octets.foldl (·.step d) r).At .recordStart [] [] (fields :: records) := by
  obtain ⟨place, field, before, h, hp, hp', rfl⟩ := h
  cases lineEnd with
  | lf => exact h.step_lineEnd hd hp hp' rfl
  | crlf => exact (h.step_lineEnd hd hp hp' rfl).step_emptyLine rfl

/-- A written table is read, record by record. -/
theorem At.foldl_write (hd : d.Proper) (lineEnd : LineEnd) (h : r.At .recordStart [] [] records)
    {table : List (List (List UInt8))} (hne : ∀ fields ∈ table, fields ≠ []) :
    ((write d lineEnd table).foldl (·.step d) r).At .recordStart [] []
      (table.reverse ++ records) := by
  induction table generalizing r records with
  | nil => exact h
  | cons fields table ih =>
    have hrecord := (h.foldl_record hd (hne fields (.head _))).foldl_lineEnd hd lineEnd
    rw [write, List.flatMap_cons, List.foldl_append, List.foldl_append, List.reverse_cons,
      List.append_assoc]
    exact ih hrecord fun fields h => hne fields (.tail _ h)

end Reader

/-- What is written as a table is read as the same records, if none is without fields. The table
must not begin with a byte order mark, which would not be read. -/
theorem fields_records {d : Dialect} (hd : d.Proper) (lineEnd : LineEnd)
    {table : List (List (List UInt8))} (hne : ∀ fields ∈ table, fields ≠ [])
    (hmark : byteOrderMark.isPrefixOf (write d lineEnd table) = false) :
    (records d (write d lineEnd table)).map (·.fields) = table := by
  have hbegin : Reader.begin (write d lineEnd table) = ({}, write d lineEnd table) := by
    rw [Reader.begin, hmark, if_neg Bool.false_ne_true]
  have hread := Reader.At.foldl_write hd lineEnd (r := {}) ⟨rfl, rfl, rfl, rfl⟩ hne
  rw [records, hbegin]
  dsimp only
  rw [Reader.finish, if_pos hread.place_eq, List.map_reverse, hread.records_eq, List.map_nil,
    List.append_nil, List.reverse_reverse]

end Spreadsheet.Csv
