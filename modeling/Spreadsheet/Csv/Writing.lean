import Spreadsheet.Csv.Dialect

/-!
# Writing tables

A field is quoted if it has an octet that would not be read as part of it, and quotes inside are
written twice. A record of one empty field is written quoted, since a line without an octet would be
no record.
-/

namespace Spreadsheet.Csv

/-- Whether a field has to be quoted for the sake of an octet. -/
def Dialect.isSpecial (d : Dialect) (b : UInt8) : Bool :=
  b == d.delimiter || b == d.quote || isLineEnd b

/-- Octets with every quote written twice. -/
def Dialect.doubled (d : Dialect) (octets : List UInt8) : List UInt8 :=
  octets.flatMap fun b => if b = d.quote then [b, b] else [b]

/-- Octets between quotes. -/
def Dialect.quoted (d : Dialect) (octets : List UInt8) : List UInt8 :=
  d.quote :: d.doubled octets ++ [d.quote]

/-- A field as it is written. -/
def Dialect.field (d : Dialect) (octets : List UInt8) : List UInt8 :=
  if octets.any d.isSpecial then d.quoted octets else octets

/-- A record as it is written, without the end of its line. -/
def Dialect.record (d : Dialect) : List (List UInt8) → List UInt8
  | [[]] => d.quoted []
  | fields => [d.delimiter].intercalate (fields.map d.field)

/-- A table as it is written. -/
def write (d : Dialect) (lineEnd : LineEnd) (records : List (List (List UInt8))) : List UInt8 :=
  records.flatMap fun fields => d.record fields ++ lineEnd.octets

end Spreadsheet.Csv
