/-!
# Dialects of CSV

The octets that structure a table of fields. A line ends with a carriage return or a line feed,
whichever way a table is written.
-/

namespace Spreadsheet.Csv

/-- The octets that separate and quote fields. -/
structure Dialect where
  delimiter : UInt8 := 0x2C
  quote : UInt8 := 0x22
  deriving Repr, DecidableEq

/-- How lines end in a table that is written. -/
inductive LineEnd where
  | lf
  | crlf
  deriving Repr, DecidableEq

/-- The octets at the end of a line. -/
def LineEnd.octets : LineEnd → List UInt8
  | .lf => [0x0A]
  | .crlf => [0x0D, 0x0A]

/-- Whether an octet ends a line. -/
def isLineEnd (b : UInt8) : Bool :=
  b == 0x0D || b == 0x0A

end Spreadsheet.Csv
