import Spreadsheet.Csv.Dialect

/-!
# Records of a table

A table is read octet by octet (`Reader.step`) into records, which are lists of fields. A field that
begins with a quote is quoted up to the next quote that stands alone; what follows it up to the
delimiter belongs to the field as it stands. Lines without an octet are no records. Every text of
octets is a table: one that ends inside a field ends the field.
-/

namespace Spreadsheet.Csv

/-- A place in a table. -/
structure Position where
  /-- The number of records before. -/
  record : Nat := 0
  /-- The number of the line, from 1. -/
  line : Nat := 1
  /-- The number of octets before. -/
  octet : Nat := 0
  deriving Repr, DecidableEq

/-- A record: its fields, and the place where the record before it ended. -/
structure Record where
  fields : List (List UInt8)
  position : Position
  deriving Repr, DecidableEq

/-- What the octets read last belong to. -/
inductive Place where
  /-- Nothing of a record yet. -/
  | recordStart
  /-- Nothing of a field yet. -/
  | fieldStart
  /-- A field, outside quotes. -/
  | plain
  /-- A field, inside quotes. -/
  | quoted
  /-- A quote inside quotes, which closes them or is the first of two. -/
  | quoteSeen
  deriving Repr, DecidableEq

/-- A reader between two octets. -/
structure Reader where
  place : Place := .recordStart
  /-- The field so far, the last octet first. -/
  field : List UInt8 := []
  /-- The fields before it, the last first. -/
  fields : List (List UInt8) := []
  /-- Where the record before ended. -/
  since : Position := {}
  /-- Where the reader is. -/
  position : Position := {}
  /-- The records before, the last first. -/
  records : List Record := []
  deriving Repr

namespace Reader

/-- Goes past an octet. -/
def advance (r : Reader) (b : UInt8) : Reader :=
  { r with position.octet := r.position.octet + 1
           position.line := if b = 0x0A then r.position.line + 1 else r.position.line }

/-- Adds an octet to the field. -/
def copy (r : Reader) (place : Place) (b : UInt8) : Reader :=
  { r with place, field := b :: r.field }

/-- The fields of the record, if it ends here. -/
def finishedFields (r : Reader) : List (List UInt8) :=
  (r.field.reverse :: r.fields).reverse

/-- Ends the field. -/
def endField (r : Reader) : Reader :=
  { r with place := .fieldStart, field := [], fields := r.field.reverse :: r.fields }

/-- Ends the record. -/
def endRecord (r : Reader) : Reader :=
  let position := { r.position with record := r.position.record + 1 }
  { position, since := position, records := ⟨r.finishedFields, r.since⟩ :: r.records }

/-- Reads an octet outside quotes. -/
def plainStep (d : Dialect) (r : Reader) (b : UInt8) : Reader :=
  if b = d.delimiter then r.endField
  else if isLineEnd b then r.endRecord
  else r.copy .plain b

/-- Reads an octet where a field may begin. -/
def fieldStep (d : Dialect) (r : Reader) (b : UInt8) : Reader :=
  if b = d.quote then { r with place := .quoted } else r.plainStep d b

/-- Reads one octet. -/
def step (d : Dialect) (r : Reader) (b : UInt8) : Reader :=
  let r := r.advance b
  match r.place with
  | .recordStart => if isLineEnd b then r else r.fieldStep d b
  | .fieldStart => r.fieldStep d b
  | .plain => r.plainStep d b
  | .quoted => if b = d.quote then { r with place := .quoteSeen } else r.copy .quoted b
  | .quoteSeen => if b = d.quote then r.copy .quoted b else r.plainStep d b

/-- The records when the octets end. -/
def finish (r : Reader) : List Record :=
  (if r.place = .recordStart then r else r.endRecord).records.reverse

end Reader

/-- The octets that may mark the beginning of a text. -/
def byteOrderMark : List UInt8 :=
  [0xEF, 0xBB, 0xBF]

/-- The reader before the first octet that counts, and the octets from there: a byte order mark does
not count. -/
def Reader.begin (octets : List UInt8) : Reader × List UInt8 :=
  if byteOrderMark.isPrefixOf octets then
    let position : Position := { octet := byteOrderMark.length }
    ({ position }, octets.drop byteOrderMark.length)
  else ({}, octets)

/-- The records of a table. -/
def records (d : Dialect) (octets : List UInt8) : List Record :=
  let (r, octets) := Reader.begin octets
  (octets.foldl (·.step d) r).finish

end Spreadsheet.Csv
