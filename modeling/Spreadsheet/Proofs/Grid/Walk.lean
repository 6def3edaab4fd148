import Spreadsheet.Grid.Walk
import Spreadsheet.Proofs.Grid.Range

/-!
# The cells of a range

The cells of a range are those that it contains, each once and in their order (`Range.mem_cells`,
`Range.pairwise_cells`), row by row (`Range.cells_eq_rowByRow`). A walk through the range comes to
them one after another, and then to no other (`Walk.nexts_after`), without an overflow as long as
the range ends before the greatest word. So whichever two corners a range is made from, it is walked
through cell by cell (`Range.walk_cells`).
-/

namespace Spreadsheet

namespace Range

variable {r : Range} {c : Coord} {i j : Nat}

/-! ## Cells by their numbers -/

/-- A range has at least one column. -/
theorem cols_pos (r : Range) : 0 < r.cols :=
  Nat.succ_pos _

/-- The first column after a range. -/
theorem left_add_cols (r : Range) : r.topLeft.col + r.cols = r.bottomRight.col + 1 := by
  have hle := r.col_le
  unfold cols
  omega

/-- The first row after a range. -/
theorem top_add_rows (r : Range) : r.topLeft.row + r.rows = r.bottomRight.row + 1 := by
  have hle := r.row_le
  unfold rows
  omega

/-- The cells of a range are as many as it counts. -/
theorem length_cells (r : Range) : r.cells.length = r.count := by
  rw [cells, List.length_map, List.length_range]

/-- The cell at a place, row by row, if there is one. -/
theorem getElem?_cells (r : Range) (i : Nat) :
    r.cells[i]? = if i < r.count then some (r.cellAt i) else none := by
  rw [cells, List.getElem?_map]
  split
  · next h => rw [List.getElem?_range h, Option.map_some]
  · next h => rw [List.getElem?_eq_none (by simpa using h), Option.map_none]

/-- The row of a cell of the range lies in the range. -/
theorem row_cellAt_le (h : i < r.count) : (r.cellAt i).row ≤ r.bottomRight.row := by
  have hrow : i / r.cols < r.rows := Nat.div_lt_of_lt_mul (by rwa [Nat.mul_comm])
  have hend := r.top_add_rows
  change r.topLeft.row + i / r.cols ≤ _
  omega

/-- The column of each cell lies in the range. -/
theorem col_cellAt_le (r : Range) (i : Nat) : (r.cellAt i).col ≤ r.bottomRight.col := by
  have hcol : i % r.cols < r.cols := Nat.mod_lt _ r.cols_pos
  have hend := r.left_add_cols
  change r.topLeft.col + i % r.cols ≤ _
  omega

/-- The cell in a row and a column, both counted from the top left. -/
theorem cellAt_mul_add {row col : Nat} (h : col < r.cols) :
    r.cellAt (row * r.cols + col) = ⟨r.topLeft.row + row, r.topLeft.col + col⟩ := by
  have hrow : (row * r.cols + col) / r.cols = row := by
    rw [Nat.add_comm, Nat.add_mul_div_right _ _ r.cols_pos, Nat.div_eq_of_lt h, Nat.zero_add]
  have hcol : (row * r.cols + col) % r.cols = col := by
    rw [Nat.add_comm, Nat.add_mul_mod_self_right, Nat.mod_eq_of_lt h]
  rw [cellAt, hrow, hcol]

/-- A range has the cells that it contains. -/
theorem mem_cells : c ∈ r.cells ↔ r.contains c = true := by
  rw [cells, List.mem_map, contains_iff]
  constructor
  · rintro ⟨i, hi, rfl⟩
    have hrow := row_cellAt_le (List.mem_range.1 hi)
    have hcol := r.col_cellAt_le i
    exact ⟨⟨Nat.le_add_right .., hrow⟩, Nat.le_add_right .., hcol⟩
  · rintro ⟨⟨hrow, hrow'⟩, hcol, hcol'⟩
    have hbottom := r.top_add_rows
    have hright := r.left_add_cols
    have hr : c.row - r.topLeft.row < r.rows := by omega
    have hc : c.col - r.topLeft.col < r.cols := by omega
    refine ⟨(c.row - r.topLeft.row) * r.cols + (c.col - r.topLeft.col), List.mem_range.2 ?_, ?_⟩
    · have hle := Nat.mul_le_mul_right r.cols (Nat.succ_le_of_lt hr)
      rw [Nat.succ_mul] at hle
      unfold count
      omega
    · rw [cellAt_mul_add hc, Nat.add_sub_cancel' hrow, Nat.add_sub_cancel' hcol]

/-- The cells of a range come in their order, so each comes once. -/
theorem pairwise_cells (r : Range) : r.cells.Pairwise fun c d => compare c d = .lt := by
  rw [cells, List.pairwise_map]
  refine List.pairwise_lt_range.imp fun {i j} h => Coord.compare_lt_iff.2 ?_
  change r.topLeft.row + i / r.cols < r.topLeft.row + j / r.cols ∨
    r.topLeft.row + i / r.cols = r.topLeft.row + j / r.cols ∧
      r.topLeft.col + i % r.cols < r.topLeft.col + j % r.cols
  have hi := Nat.div_add_mod i r.cols
  have hj := Nat.div_add_mod j r.cols
  rcases Nat.lt_or_eq_of_le (Nat.div_le_div_right (c := r.cols) (Nat.le_of_lt h)) with hlt | heq
  · omega
  · rw [heq] at hi ⊢
    omega

/-- The cells of a range, one row after the other, and in a row one column after the other. -/
def rowByRow (r : Range) : List Coord :=
  (List.range' r.topLeft.row r.rows).flatMap fun row =>
    (List.range' r.topLeft.col r.cols).map fun col => ⟨row, col⟩

/-- The first rows of a range. -/
theorem map_cellAt_range (r : Range) (n : Nat) :
    (List.range (n * r.cols)).map r.cellAt =
      (List.range' r.topLeft.row n).flatMap fun row =>
        (List.range' r.topLeft.col r.cols).map fun col => ⟨row, col⟩ := by
  induction n with
  | zero => simp
  | succ n ih =>
    have hrow : ((List.range r.cols).map (n * r.cols + ·)).map r.cellAt =
        (List.range' r.topLeft.col r.cols).map fun col => ⟨r.topLeft.row + n, col⟩ := by
      rw [List.range'_eq_map_range, List.map_map, List.map_map]
      exact List.map_congr_left fun col hcol => cellAt_mul_add (List.mem_range.1 hcol)
    rw [Nat.succ_mul, List.range_add, List.map_append, ih, hrow, List.range'_1_concat,
      List.flatMap_append, List.flatMap_singleton]

/-- The cells of a range go row by row. -/
theorem cells_eq_rowByRow (r : Range) : r.cells = r.rowByRow :=
  r.map_cellAt_range r.rows

/-! ## In words -/

/-- Whether a range ends before the greatest word of 32 bits, in rows and in columns. -/
def FitsWords (r : Range) : Prop :=
  r.bottomRight.row < Word.limit 32 - 1 ∧ r.bottomRight.col < Word.limit 32 - 1

/-- The cells of a range that ends before the greatest word are counted by a word of 64 bits. -/
theorem FitsWords.count_lt (h : r.FitsWords) : r.count < Word.limit 64 := by
  obtain ⟨hrow, hcol⟩ := h
  have hbottom := r.top_add_rows
  have hright := r.left_add_cols
  have hrows : r.rows < Word.limit 32 := by omega
  have hcols : r.cols < Word.limit 32 := by omega
  have hsquare : Word.limit 64 = Word.limit 32 * Word.limit 32 := rfl
  rw [hsquare]
  exact Nat.mul_lt_mul'' hrows hcols

/-- The rows of such a range are counted in words. -/
theorem FitsWords.rowsInWords_eq (h : r.FitsWords) : r.rowsInWords = .ok r.rows := by
  have hrow := h.1
  rw [rowsInWords, Word.sub_of_le r.row_le]
  exact Word.add_of_lt (by omega)

/-- The columns of such a range are counted in words. -/
theorem FitsWords.colsInWords_eq (h : r.FitsWords) : r.colsInWords = .ok r.cols := by
  have hcol := h.2
  rw [colsInWords, Word.sub_of_le r.col_le]
  exact Word.add_of_lt (by omega)

/-- The cells of such a range are counted in words. -/
theorem FitsWords.countInWords_eq (h : r.FitsWords) : r.countInWords = .ok r.count := by
  rw [countInWords, h.rowsInWords_eq, h.colsInWords_eq]
  exact Word.mul_of_lt h.count_lt

end Range

/-! ## Walks -/

namespace Walk

variable {r : Range} {i : Nat}

/-- The walk after so many cells. -/
def after (r : Range) (i : Nat) : Walk :=
  ⟨r, (r.cellAt i).row, (r.cellAt i).col, r.count - i⟩

/-- A walk begins before the first cell. -/
theorem start_eq (h : r.FitsWords) : start r = .ok (after r 0) := by
  have hfirst : r.cellAt 0 = r.topLeft := by
    rw [Range.cellAt, Nat.zero_div, Nat.zero_mod]
    rfl
  rw [start, h.countInWords_eq, after, hfirst]
  rfl

/-- A walk that is not done goes on in the row, or to the row below after the last column. -/
theorem next_eq {w : Walk} (hremaining : w.remaining ≠ 0) (hrow : w.row + 1 < Word.limit 32)
    (hcol : w.col + 1 < Word.limit 32) :
    w.next = .ok (some ⟨w.row, w.col⟩,
      if w.range.bottomRight.col < w.col + 1 then
        ⟨w.range, w.row + 1, w.range.topLeft.col, w.remaining - 1⟩
      else ⟨w.range, w.row, w.col + 1, w.remaining - 1⟩) := by
  rw [next, if_neg hremaining, Word.sub_of_le (Nat.pos_of_ne_zero hremaining),
    Word.add_of_lt hcol, Word.add_of_lt hrow]
  dsimp only [bind, Except.bind]
  split <;> rfl

/-- A step of a walk comes to the next cell. -/
theorem next_after (hr : r.FitsWords) (h : i < r.count) :
    (after r i).next = .ok (some (r.cellAt i), after r (i + 1)) := by
  have hrow : (r.cellAt i).row + 1 < Word.limit 32 := by
    have hle := Range.row_cellAt_le h
    have hlt := hr.1
    omega
  have hcol : (r.cellAt i).col + 1 < Word.limit 32 := by
    have hle := r.col_cellAt_le i
    have hlt := hr.2
    omega
  rw [next_eq (w := after r i) (Nat.sub_ne_zero_of_lt h) hrow hcol]
  -- The number of the cell is told by its row and its column in the range.
  obtain ⟨row, col, hlt, rfl⟩ : ∃ row col, col < r.cols ∧ i = row * r.cols + col :=
    ⟨i / r.cols, i % r.cols, Nat.mod_lt _ r.cols_pos, (Nat.div_add_mod' ..).symm⟩
  have hend := r.left_add_cols
  by_cases hlast : col + 1 = r.cols
  · have hnumber : row * r.cols + col + 1 = (row + 1) * r.cols + 0 := by
      rw [Nat.succ_mul]
      omega
    have hbelow : r.bottomRight.col < r.topLeft.col + col + 1 := by omega
    simp only [after, hnumber, Range.cellAt_mul_add r.cols_pos, Range.cellAt_mul_add hlt]
    rw [if_pos hbelow, Nat.sub_sub, hnumber]
    rfl
  · have hnumber : row * r.cols + col + 1 = row * r.cols + (col + 1) := Nat.add_assoc ..
    have hright : ¬r.bottomRight.col < r.topLeft.col + col + 1 := by omega
    have hnext : col + 1 < r.cols := by omega
    simp only [after, hnumber, Range.cellAt_mul_add hnext, Range.cellAt_mul_add hlt]
    rw [if_neg hright, Nat.sub_sub]
    rfl

/-- A walk that is done stays where it is. -/
theorem next_done {w : Walk} (h : w.remaining = 0) : w.next = .ok (none, w) := by
  rw [next, if_pos h]
  rfl

/-- One answer more is the next one and those of the walk after it. -/
theorem nexts_of_next {w w' : Walk} {answer : Option Coord} (h : w.next = .ok (answer, w'))
    (n : Nat) : w.nexts (n + 1) = (do
      let (answers, w) ← w'.nexts n
      return (answer :: answers, w)) := by
  rw [nexts, h]
  rfl

/-- **A walk comes to the cells of its range.** So many requests are answered with the cells from
the one that is next, and with none when no cell is left. -/
theorem nexts_after (hr : r.FitsWords) (n i : Nat) :
    (after r (min i r.count)).nexts n =
      .ok ((List.range' i n).map (r.cells[·]?), after r (min (i + n) r.count)) := by
  induction n generalizing i with
  | zero => rfl
  | succ n ih =>
    have hnext : (after r (min i r.count)).next =
        .ok (r.cells[i]?, after r (min (i + 1) r.count)) := by
      rw [r.getElem?_cells]
      split
      · next h =>
        rw [Nat.min_eq_left (Nat.le_of_lt h), Nat.min_eq_left h]
        exact next_after hr h
      · next h =>
        rw [Nat.min_eq_right (Nat.le_of_not_lt h),
          Nat.min_eq_right (Nat.le_succ_of_le (Nat.le_of_not_lt h))]
        exact next_done (Nat.sub_self _)
    rw [nexts_of_next hnext, ih, List.range'_succ, List.map_cons, Nat.add_right_comm]
    rfl

/-- The size hint of a walk is the number of cells that are left. -/
theorem sizeHint_after (hr : r.FitsWords) (i : Nat) :
    (after r i).sizeHint = (r.count - i, some (r.count - i)) := by
  have hlt := hr.count_lt
  have hmin : min (r.count - i) (Word.limit 64 - 1) = r.count - i := Nat.min_eq_left (by omega)
  rw [sizeHint, after, hmin]

end Walk

/-- **A range is walked through cell by cell.** It is the same for all four choices of two opposite
corners. Its cells are those that it contains, each once, row by row, and as many as its rows and
columns make. If the corners lie before the greatest word of 32 bits, then no operation overflows in
a walk through the range: it answers each request with the next cell, or with none after the last
one, and its size hint is always the number of cells that are to come. -/
theorem Range.walk_cells {a b : Coord}
    (hrow : a.row < Word.limit 32 - 1 ∧ b.row < Word.limit 32 - 1)
    (hcol : a.col < Word.limit 32 - 1 ∧ b.col < Word.limit 32 - 1) :
    let r := ofCorners a b
    (ofCorners b a = r ∧ ofCorners ⟨a.row, b.col⟩ ⟨b.row, a.col⟩ = r ∧
        ofCorners ⟨b.row, a.col⟩ ⟨a.row, b.col⟩ = r) ∧
      (∀ c, c ∈ r.cells ↔ r.contains c = true) ∧
      (r.cells.Pairwise fun c d => compare c d = .lt) ∧
      r.cells.length = r.rows * r.cols ∧
      r.rowsInWords = .ok r.rows ∧ r.colsInWords = .ok r.cols ∧
      r.countInWords = .ok r.cells.length ∧
      ∃ w, Walk.start r = .ok w ∧ ∀ n, ∃ w',
        w.nexts n = .ok ((List.range n).map (r.cells[·]?), w') ∧
          w'.sizeHint = ((r.cells.drop n).length, some (r.cells.drop n).length) := by
  intro r
  have hr : r.FitsWords := ⟨Nat.max_lt.2 hrow, Nat.max_lt.2 hcol⟩
  refine ⟨⟨?_, ?_, ?_⟩, fun c => mem_cells, r.pairwise_cells, r.length_cells, hr.rowsInWords_eq,
    hr.colsInWords_eq, ?_, Walk.after r 0, Walk.start_eq hr, fun n => ?_⟩
  · simp [r, ofCorners, Nat.min_comm, Nat.max_comm]
  · simp [r, ofCorners, Nat.min_comm b.col, Nat.max_comm b.col]
  · simp [r, ofCorners, Nat.min_comm b.row, Nat.max_comm b.row]
  · rw [hr.countInWords_eq, r.length_cells]
  · have hwalk := Walk.nexts_after hr n 0
    rw [Nat.zero_min, Nat.zero_add, ← List.range_eq_range'] at hwalk
    have hmin : r.count - min n r.count = r.count - n := by omega
    refine ⟨_, hwalk, ?_⟩
    rw [Walk.sizeHint_after hr, List.length_drop, r.length_cells, hmin]

/-- Two rows and three columns that end as late as they may, from the bottom left. -/
theorem Range.walk_cells_greatest :
    let a : Coord := ⟨4294967294, 4294967292⟩
    let b : Coord := ⟨4294967293, 4294967294⟩
    (a.row < Word.limit 32 - 1 ∧ b.row < Word.limit 32 - 1) ∧
      (a.col < Word.limit 32 - 1 ∧ b.col < Word.limit 32 - 1) ∧
      ∃ w w', Walk.start (ofCorners a b) = .ok w ∧
        w.nexts 7 = .ok ([some ⟨4294967293, 4294967292⟩, some ⟨4294967293, 4294967293⟩,
          some ⟨4294967293, 4294967294⟩, some ⟨4294967294, 4294967292⟩,
          some ⟨4294967294, 4294967293⟩, some ⟨4294967294, 4294967294⟩, none], w') ∧
        w'.sizeHint = (0, some 0) := by
  intro a b
  have hrow : a.row < Word.limit 32 - 1 ∧ b.row < Word.limit 32 - 1 := by decide
  have hcol : a.col < Word.limit 32 - 1 ∧ b.col < Word.limit 32 - 1 := by decide
  have hcells : (ofCorners a b).cells = [⟨4294967293, 4294967292⟩, ⟨4294967293, 4294967293⟩,
      ⟨4294967293, 4294967294⟩, ⟨4294967294, 4294967292⟩, ⟨4294967294, 4294967293⟩,
      ⟨4294967294, 4294967294⟩] := by
    decide
  obtain ⟨-, -, -, -, -, -, -, w, hw, hwalk⟩ := walk_cells hrow hcol
  obtain ⟨w', hnexts, hsize⟩ := hwalk 7
  rw [hcells] at hnexts hsize
  exact ⟨hrow, hcol, w, w', hw, hnexts, hsize⟩

end Spreadsheet
