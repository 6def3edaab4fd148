import Std.Data.ExtTreeMap
import Spreadsheet.Grid.Coord

/-!
# Formulas by key

The texts of the formulas of a sheet. Each is kept in an entry with its cell, under the key that is
written for the cell, and is found under the cell or under the key. The formulas are listed row by
row, which is not the order of their keys (`10:0` comes before `2:0`).
-/

namespace Spreadsheet

namespace Formulas

/-- A formula as it is kept: its cell and its text. -/
structure Entry where
  cell : Coord
  text : String
  deriving Repr, DecidableEq

end Formulas

/-- The texts of formulas by the keys of their cells. -/
structure Formulas where
  byKey : Std.ExtTreeMap String Formulas.Entry
  /-- Every entry is kept under the key of its cell. -/
  keyed : ∀ (key : String) (entry : Formulas.Entry),
    byKey[key]? = some entry → entry.cell.keyText = key

namespace Formulas

/-- No formulas. -/
def empty : Formulas where
  byKey := ∅
  keyed key entry h := by simp at h

/-- The formula whose cell has a key, spelled as the key is written. -/
def getByKey? (fs : Formulas) (key : String) : Option String :=
  fs.byKey[key]?.map (·.text)

/-- The formula of a cell. -/
def get? (fs : Formulas) (c : Coord) : Option String :=
  fs.getByKey? c.keyText

/-- Whether a cell has a formula. -/
def contains (fs : Formulas) (c : Coord) : Bool :=
  fs.byKey.contains c.keyText

/-- The number of formulas. -/
def size (fs : Formulas) : Nat :=
  fs.byKey.size

/-- Whether there are no formulas. -/
def isEmpty (fs : Formulas) : Bool :=
  fs.byKey.isEmpty

/-- Gives a cell a formula in place of the one it has. -/
def insert (fs : Formulas) (c : Coord) (text : String) : Formulas where
  byKey := fs.byKey.insert c.keyText ⟨c, text⟩
  keyed key entry h := by
    rw [Std.ExtTreeMap.getElem?_insert] at h
    split at h
    · next hkey =>
      cases h
      exact Std.LawfulEqOrd.eq_of_compare hkey
    · exact fs.keyed key entry h

/-- Takes the formula of a cell away. -/
def erase (fs : Formulas) (c : Coord) : Formulas where
  byKey := fs.byKey.erase c.keyText
  keyed key entry h := by
    rw [Std.ExtTreeMap.getElem?_erase] at h
    split at h
    · cases h
    · exact fs.keyed key entry h

/-- Gives a cell a formula, and returns the one that it replaces. -/
def replace (fs : Formulas) (c : Coord) (text : String) : Option String × Formulas :=
  (fs.get? c, fs.insert c text)

/-- Takes the formula of a cell away and returns it. -/
def take (fs : Formulas) (c : Coord) : Option String × Formulas :=
  (fs.get? c, fs.erase c)

/-- The entries as they are kept, key by key. -/
def entries (fs : Formulas) : List Entry :=
  fs.byKey.toList.map (·.2)

/-- Whether a cell comes before another one or is the same. -/
def atMost (a b : Entry) : Bool :=
  (Ord.compare a.cell b.cell).isLE

/-- The cells with their formulas, row by row. -/
def toList (fs : Formulas) : List (Coord × String) :=
  (fs.entries.mergeSort atMost).map fun entry => (entry.cell, entry.text)

/-- The cells that have formulas, row by row. -/
def cells (fs : Formulas) : List Coord :=
  fs.toList.map (·.1)

/-! ## What is found after a change -/

/-- The keys of two cells are compared as equal if the cells are. -/
theorem compare_keyText_iff {c d : Coord} : Ord.compare c.keyText d.keyText = .eq ↔ c = d := by
  rw [Std.LawfulEqOrd.compare_eq_iff_eq, Coord.keyText_inj]

@[simp]
theorem get?_empty (c : Coord) : empty.get? c = none := by
  simp [get?, getByKey?, empty]

theorem get?_insert (fs : Formulas) (c a : Coord) (text : String) :
    (fs.insert c text).get? a = if c = a then some text else fs.get? a := by
  simp only [get?, getByKey?, insert, Std.ExtTreeMap.getElem?_insert, compare_keyText_iff]
  split <;> rfl

theorem get?_erase (fs : Formulas) (c a : Coord) :
    (fs.erase c).get? a = if c = a then none else fs.get? a := by
  simp only [get?, getByKey?, erase, Std.ExtTreeMap.getElem?_erase, compare_keyText_iff]
  split <;> rfl

theorem contains_eq (fs : Formulas) (c : Coord) : fs.contains c = (fs.get? c).isSome := by
  simp [get?, getByKey?, contains, Std.ExtTreeMap.isSome_getElem?_eq_contains]

end Formulas

end Spreadsheet
