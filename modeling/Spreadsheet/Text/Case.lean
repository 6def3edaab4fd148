import Spreadsheet.Text.Blank
import Spreadsheet.Text.CaseTable

/-!
# Upper and lower case

Full Unicode case mapping of a text: one character may become several (`ß` has the upper case form
`SS`), and a capital sigma at the end of a word becomes `ς` instead of `σ`. ASCII is mapped without
a look at the tables (`upperChar_of_ascii`).
-/

namespace Spreadsheet.Text

/-- The image of a code point under the first run it belongs to, or itself. -/
def shiftCase (runs : List CaseRun) (code : Nat) : Nat :=
  match runs.find? fun r => r.first ≤ code && code ≤ r.last && (code - r.first) % r.stride == 0 with
  | some r => (code + r.shift).toNat
  | none => code

/-- The characters a character outside ASCII maps to. -/
def mapCase (expansions : List (Nat × List Nat)) (runs : List CaseRun) (c : Char) : List Char :=
  match expansions.lookup c.toNat with
  | some codes => codes.map Char.ofNat
  | none => [Char.ofNat (shiftCase runs c.toNat)]

/-- Whether a character is in ASCII. -/
def isAscii (c : Char) : Bool :=
  c.toNat < 0x80

/-- The upper case form of a character. -/
def upperChar (c : Char) : List Char :=
  if isAscii c then [c.toUpper] else mapCase upperExpansions upperRuns c

/-- The lower case form of a character that stands alone. -/
def lowerChar (c : Char) : List Char :=
  if isAscii c then [c.toLower] else mapCase lowerExpansions lowerRuns c

/-- Whether a character has case: it is a letter in upper, lower or title case. -/
def isCased (c : Char) : Bool :=
  inRanges casedRanges c.toNat

/-- Whether a character is passed over in the search for the end of a word. -/
def isCaseIgnorable (c : Char) : Bool :=
  inRanges caseIgnorableRanges c.toNat

/-- Whether the first character that is not passed over has case. -/
def meetsCased (cs : List Char) : Bool :=
  match cs.dropWhile isCaseIgnorable with
  | [] => false
  | c :: _ => isCased c

/-- Lower case, given the characters before, the nearest first: a capital sigma is final when a
letter comes before it and none after it. -/
def lowerAfter (before : List Char) : List Char → List Char
  | [] => []
  | c :: rest =>
    let here :=
      if c = 'Σ' then [if meetsCased before && !meetsCased rest then 'ς' else 'σ']
      else lowerChar c
    here ++ lowerAfter (c :: before) rest

/-- The characters in upper case. -/
def upperChars (cs : List Char) : List Char :=
  cs.flatMap upperChar

/-- The characters in lower case. -/
def lowerChars (cs : List Char) : List Char :=
  lowerAfter [] cs

/-- The text in upper case. -/
def upper (s : String) : String :=
  String.ofList (upperChars s.toList)

/-- The text in lower case. -/
def lower (s : String) : String :=
  String.ofList (lowerChars s.toList)

/-- The upper case of a character in ASCII. -/
theorem upperChar_of_ascii {c : Char} (h : isAscii c = true) : upperChar c = [c.toUpper] := by
  simp [upperChar, h]

end Spreadsheet.Text
