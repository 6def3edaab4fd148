import Spreadsheet.Grid.Range

/-!
# Least rectangles

The rectangle around some cells lies in every rectangle that has these cells, and in no other
(`Range.encloses_around?`). So it has them itself, and it is the least one that does.
-/

namespace Spreadsheet.Range

variable {r r' : Range} {c : Coord} {cs : List Coord}

/-- A range contains the cells between its corners. -/
theorem contains_iff :
    r.contains c = true ↔ (r.topLeft.row ≤ c.row ∧ c.row ≤ r.bottomRight.row) ∧
      r.topLeft.col ≤ c.col ∧ c.col ≤ r.bottomRight.col := by
  simp [contains, and_assoc]

/-- Whether a rectangle lies in another one, as both its corners do. -/
def Encloses (r' r : Range) : Prop :=
  r'.contains r.topLeft = true ∧ r'.contains r.bottomRight = true

theorem encloses_refl (r : Range) : r.Encloses r := by
  have hrow := r.row_le
  have hcol := r.col_le
  simp only [Encloses, contains_iff]
  omega

/-- A range encloses a single cell if it contains it. -/
theorem encloses_single : r'.Encloses (single c) ↔ r'.contains c = true :=
  and_self_iff

/-- All cells of a rectangle are cells of those that it lies in. -/
theorem Encloses.contains (h : r'.Encloses r) (hc : r.contains c = true) :
    r'.contains c = true := by
  simp only [Encloses, contains_iff] at *
  omega

/-- A range encloses one that is extended if it encloses it and contains the new cell. -/
theorem encloses_extend : r'.Encloses (r.extend c) ↔ r'.Encloses r ∧ r'.contains c = true := by
  have hrow := r.row_le
  have hcol := r.col_le
  simp only [Encloses, contains_iff, extend]
  omega

/-- A range encloses one extended by cells if it encloses it and contains them all. -/
theorem encloses_foldl_extend :
    r'.Encloses (cs.foldl extend r) ↔ r'.Encloses r ∧ ∀ c ∈ cs, r'.contains c = true := by
  induction cs generalizing r with
  | nil => simp
  | cons c cs ih => simp [ih, encloses_extend, and_assoc]

/-- The rectangle around some cells lies in those rectangles that have the cells. -/
theorem encloses_around? (h : around? cs = some r) :
    r'.Encloses r ↔ ∀ c ∈ cs, r'.contains c = true := by
  cases cs with
  | nil => cases h
  | cons c cs =>
    cases h
    rw [encloses_foldl_extend, encloses_single, List.forall_mem_cons]

/-- The range around cells contains them. -/
theorem contains_around? (h : around? cs = some r) (hc : c ∈ cs) : r.contains c = true :=
  (encloses_around? h).1 r.encloses_refl c hc

/-- There is no range around no cells. -/
theorem around?_eq_none : around? cs = none ↔ cs = [] := by
  cases cs with
  | nil => exact iff_of_true rfl rfl
  | cons c cs => exact iff_of_false nofun nofun

end Spreadsheet.Range
