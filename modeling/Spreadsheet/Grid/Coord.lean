import Spreadsheet.Grid.Column
import Spreadsheet.Text.Blank

/-!
# Coordinates

A cell is known by its row and column, both counted from 0, and is written as an *address*, the
letters of its column and its row counted from 1 (`B3`), or as a *key*, row and column with a colon
between (`2:1`). Coordinates are ordered by row and then by column. They are not bounded by the
grid, but an address that is read names a cell of the grid.
-/

namespace Spreadsheet

open Spreadsheet.Text

/-- The place of a cell. -/
structure Coord where
  row : Nat
  col : Nat
  deriving Repr, DecidableEq, Inhabited

namespace Coord

/-! ## Order -/

/-- Rows first, then columns. -/
def compare (a b : Coord) : Ordering :=
  (Ord.compare a.row b.row).then (Ord.compare a.col b.col)

instance : Ord Coord := ⟨Coord.compare⟩

theorem compare_def (a b : Coord) :
    Ord.compare a b = (Ord.compare a.row b.row).then (Ord.compare a.col b.col) := rfl

theorem compare_eq_iff {a b : Coord} : Ord.compare a b = .eq ↔ a = b := by
  cases a; cases b
  simp [compare_def, Ordering.then_eq_eq]

theorem compare_lt_iff {a b : Coord} :
    Ord.compare a b = .lt ↔ a.row < b.row ∨ a.row = b.row ∧ a.col < b.col := by
  simp [compare_def, Ordering.then_eq_lt, Nat.compare_eq_lt]

instance : Std.TransOrd Coord where
  eq_swap {a b} := by
    simp only [compare_def, Ordering.swap_then, ← Nat.compare_swap b.row a.row,
      ← Nat.compare_swap b.col a.col]
  isLE_trans {a b c} h₁ h₂ := by
    simp only [Ordering.isLE_iff_eq_lt_or_eq_eq, compare_lt_iff, compare_eq_iff] at *
    rcases h₁ with h₁ | rfl <;> rcases h₂ with h₂ | rfl
    · left; omega
    · exact .inl h₁
    · exact .inl h₂
    · exact .inr rfl

instance : Std.LawfulEqOrd Coord where
  eq_of_compare := compare_eq_iff.mp

/-! ## Addresses -/

/-- The address of a cell. -/
def address (c : Coord) : List Char :=
  Column.letters c.col ++ digits (c.row + 1)

/-- The address of a cell, as text. -/
def toText (c : Coord) : String :=
  String.ofList c.address

instance : ToString Coord := ⟨toText⟩

/-- Splits letters followed by digits. -/
def splitAddress? (cs : List Char) : Option (List Char × List Char) :=
  let letters := cs.takeWhile isLetter
  let ds := cs.dropWhile isLetter
  if letters.isEmpty || ds.isEmpty || !ds.all isDigit then none else some (letters, ds)

/-- Whether a text has the shape of an address, be it inside the grid or not. -/
def isAddressShaped (s : String) : Bool :=
  (splitAddress? s.toList).isSome

/-- Numbers in addresses and keys are below this. -/
def numberLimit : Nat := Nat.pow 2 32

/-- Reads an address that has no blanks around it. -/
def ofChars (cs : List Char) : Except GridError Coord :=
  match splitAddress? cs with
  | none => .error (.notAnAddress (String.ofList cs))
  | some (letters, ds) => do
    let col ← Column.index letters
    let row := ofDigits ds
    if numberLimit ≤ row then .error (.rowTooLong (String.ofList cs))
    else if row = 0 then .error (.rowZero (String.ofList cs))
    else if maxRows < row then .error (.rowOutOfBounds (row - 1))
    else .ok ⟨row - 1, col⟩

/-- Reads an address; blanks around it are passed over. -/
def parse (s : String) : Except GridError Coord :=
  ofChars (trimChars s.toList)

/-- The cell that a word of a formula names: an address with nothing around it. -/
def ofWord? (s : String) : Option Coord :=
  if isAddressShaped s then (parse s).toOption else none

/-! ## Keys -/

/-- The key of a cell. -/
def key (c : Coord) : List Char :=
  digits c.row ++ ':' :: digits c.col

/-- The key of a cell, as text. -/
def keyText (c : Coord) : String :=
  String.ofList c.key

/-- The cell that a key names. -/
def ofKey? (s : String) : Option Coord :=
  match s.toList.span (· != ':') with
  | (row, _ :: col) => do some ⟨← naturalBelow? numberLimit row, ← naturalBelow? numberLimit col⟩
  | (_, []) => none

theorem bne_colon_of_mem_digits {n : Nat} {d : Char} (h : d ∈ digits n) : (d != ':') = true := by
  have hd := List.all_eq_true.1 (all_isDigit_digits n) d h
  rw [bne_iff_ne]
  rintro rfl
  cases hd

/-- The row of a key ends at the first colon. -/
theorem takeWhile_key (c : Coord) : c.key.takeWhile (· != ':') = digits c.row := by
  rw [key, List.takeWhile_append_of_pos fun _ => bne_colon_of_mem_digits]
  simp

/-- The column of a key follows the first colon. -/
theorem dropWhile_key (c : Coord) : c.key.dropWhile (· != ':') = ':' :: digits c.col := by
  rw [key, List.dropWhile_append_of_pos fun _ => bne_colon_of_mem_digits]
  simp

/-- Different cells have different keys. -/
theorem keyText_inj {c d : Coord} : c.keyText = d.keyText ↔ c = d := by
  constructor
  · intro h
    have hkey : c.key = d.key := String.ofList_injective h
    have hrow : c.row = d.row := by
      rw [← digits_inj, ← takeWhile_key, ← takeWhile_key, hkey]
    have hcol : ':' :: digits c.col = ':' :: digits d.col := by
      rw [← dropWhile_key, ← dropWhile_key, hkey]
    cases c
    cases d
    rw [mk.injEq]
    exact ⟨hrow, digits_inj.1 (List.cons.inj hcol).2⟩
  · rintro rfl
    rfl

end Coord

end Spreadsheet
