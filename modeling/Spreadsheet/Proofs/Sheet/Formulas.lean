import Spreadsheet.Proofs.Grid.Address
import Spreadsheet.Sheet.Formulas

/-!
# Formulas are a finite map

Formulas are kept under keys that are written for their cells, and the keys order them otherwise
than their cells do. Nevertheless they are a finite map from cells to texts, through whatever
changes they come about (`Formulas.refines_map`): different cells have different keys, every entry
is kept under the key of its own cell, and the listing is sorted by cells.
-/

namespace Spreadsheet.Formulas

variable {fs fs' : Formulas}

/-! ## The listing -/

/-- The entries are those that are found by the key of their cell. -/
theorem mem_entries {entry : Entry} :
    entry ∈ fs.entries ↔ fs.byKey[entry.cell.keyText]? = some entry := by
  unfold entries
  rw [List.mem_map]
  constructor
  · rintro ⟨⟨key, entry⟩, hmem, rfl⟩
    have hentry := Std.ExtTreeMap.mem_toList_iff_getElem?_eq_some.1 hmem
    rwa [fs.keyed key entry hentry]
  · intro h
    exact ⟨_, Std.ExtTreeMap.mem_toList_iff_getElem?_eq_some.2 h, rfl⟩

/-- An entry is found by the key of a cell if the cell has its text. -/
theorem getElem?_byKey {c : Coord} {text : String} :
    fs.byKey[c.keyText]? = some ⟨c, text⟩ ↔ fs.get? c = some text := by
  unfold get? getByKey?
  rw [Option.map_eq_some_iff]
  constructor
  · intro h
    exact ⟨_, h, rfl⟩
  · rintro ⟨⟨d, text⟩, h, rfl⟩
    obtain rfl := Coord.keyText_inj.1 (fs.keyed _ _ h)
    exact h

/-- A formula is listed with its cell. -/
theorem mem_toList {c : Coord} {text : String} :
    (c, text) ∈ fs.toList ↔ fs.get? c = some text := by
  rw [← getElem?_byKey, toList, List.mem_map]
  constructor
  · rintro ⟨⟨c, text⟩, hmem, ⟨⟩⟩
    exact mem_entries.1 (List.mem_mergeSort.1 hmem)
  · intro h
    exact ⟨⟨c, text⟩, List.mem_mergeSort.2 (mem_entries.2 h), rfl⟩

/-- The cells are those that have a formula. -/
theorem mem_cells {c : Coord} : c ∈ fs.cells ↔ fs.contains c = true := by
  rw [contains_eq, Option.isSome_iff_exists, cells, List.mem_map]
  constructor
  · rintro ⟨⟨c, text⟩, hmem, rfl⟩
    exact ⟨text, mem_toList.1 hmem⟩
  · rintro ⟨text, h⟩
    exact ⟨(c, text), mem_toList.2 h, rfl⟩

/-- There are as many formulas as are listed. -/
theorem length_toList : fs.toList.length = fs.size := by
  rw [toList, List.length_map, List.length_mergeSort, entries, List.length_map]
  exact Std.ExtTreeMap.length_toList

/-- No cell has two entries. -/
theorem pairwise_entries : fs.entries.Pairwise fun a b => a.cell ≠ b.cell := by
  unfold entries
  rw [List.pairwise_map]
  refine Std.ExtTreeMap.distinct_keys_toList.imp_of_mem fun {a b} ha hb hne heq => hne ?_
  have ha := fs.keyed _ _ (Std.ExtTreeMap.mem_toList_iff_getElem?_eq_some.1 ha)
  have hb := fs.keyed _ _ (Std.ExtTreeMap.mem_toList_iff_getElem?_eq_some.1 hb)
  rw [← ha, ← hb, heq]
  exact Std.ReflCmp.compare_self

/-- The formulas are listed row by row, each cell once. -/
theorem pairwise_toList : fs.toList.Pairwise fun a b => Ord.compare a.1 b.1 = .lt := by
  have hsorted : (fs.entries.mergeSort atMost).Pairwise fun a b => atMost a b = true := by
    refine List.pairwise_mergeSort (fun a b c h h' => ?_) (fun a b => ?_) _
    · exact Std.TransCmp.isLE_trans h h'
    · have hswap : Ord.compare b.cell a.cell = (Ord.compare a.cell b.cell).swap :=
        Std.OrientedCmp.eq_swap
      rw [atMost, atMost, hswap]
      cases Ord.compare a.cell b.cell <;> rfl
  have hdistinct : (fs.entries.mergeSort atMost).Pairwise fun a b => a.cell ≠ b.cell :=
    (List.mergeSort_perm _ _).symm.pairwise pairwise_entries Ne.symm
  unfold toList
  rw [List.pairwise_map]
  refine (hsorted.and hdistinct).imp fun {a b} ⟨hle, hne⟩ => ?_
  rcases Ordering.isLE_iff_eq_lt_or_eq_eq.1 hle with hlt | heq
  · exact hlt
  · exact absurd (Coord.compare_eq_iff.1 heq) hne

/-- Formulas are the same if every cell has the same. -/
theorem ext (h : ∀ c, fs.get? c = fs'.get? c) : fs = fs' := by
  have hbyKey : fs.byKey = fs'.byKey := by
    refine Std.ExtTreeMap.ext_getElem? fun key => Option.ext fun entry => ?_
    obtain ⟨c, text⟩ := entry
    have hiff : fs.byKey[c.keyText]? = some ⟨c, text⟩ ↔ fs'.byKey[c.keyText]? = some ⟨c, text⟩ := by
      rw [getElem?_byKey, getElem?_byKey, h]
    constructor
    · intro hentry
      obtain rfl := fs.keyed key _ hentry
      exact hiff.1 hentry
    · intro hentry
      obtain rfl := fs'.keyed key _ hentry
      exact hiff.2 hentry
  cases fs
  cases fs'
  cases hbyKey
  rfl

/-! ## Changes -/

/-- A change of formulas. -/
inductive Change where
  /-- A cell is given a formula. -/
  | insert (c : Coord) (text : String)
  /-- The formula of a cell is taken away. -/
  | remove (c : Coord)
  deriving Repr, DecidableEq

namespace Change

/-- What a change returns, and the formulas it leaves. -/
def apply (fs : Formulas) : Change → Option String × Formulas
  | insert c text => fs.replace c text
  | remove c => fs.take c

/-- What the same change of a map returns, and the map it leaves. -/
def applyMap (m : Std.ExtTreeMap Coord String) : Change →
    Option String × Std.ExtTreeMap Coord String
  | insert c text => (m[c]?, m.insert c text)
  | remove c => (m[c]?, m.erase c)

/-- What some changes return, one after the other, and what they leave. -/
def run {σ : Type} (change : σ → Change → Option String × σ) :
    σ → List Change → List (Option String) × σ
  | s, [] => ([], s)
  | s, c :: cs =>
    let (answers, s') := run change (change s c).2 cs
    ((change s c).1 :: answers, s')

end Change

/-- Whether formulas are those of a map. -/
def Refines (fs : Formulas) (m : Std.ExtTreeMap Coord String) : Prop :=
  ∀ c : Coord, fs.get? c = m[c]?

variable {m : Std.ExtTreeMap Coord String}

/-- No formulas are the empty map. -/
theorem refines_empty : empty.Refines ∅ := by
  intro c
  simp

/-- A change returns what the same change of the map does, and leaves the formulas of that map. -/
theorem Refines.apply (h : fs.Refines m) (change : Change) :
    (change.apply fs).1 = (change.applyMap m).1 ∧
      (change.apply fs).2.Refines (change.applyMap m).2 := by
  cases change with
  | insert c text =>
    refine ⟨h c, fun a => ?_⟩
    change (fs.insert c text).get? a = (m.insert c text)[a]?
    simp only [get?_insert, Std.ExtTreeMap.getElem?_insert, Coord.compare_eq_iff, h a]
  | remove c =>
    refine ⟨h c, fun a => ?_⟩
    change (fs.erase c).get? a = (m.erase c)[a]?
    simp only [get?_erase, Std.ExtTreeMap.getElem?_erase, Coord.compare_eq_iff, h a]

/-- Through all changes the same is returned, and the formulas stay those of the map. -/
theorem Refines.run (h : fs.Refines m) (changes : List Change) :
    (Change.run Change.apply fs changes).1 = (Change.run Change.applyMap m changes).1 ∧
      (Change.run Change.apply fs changes).2.Refines (Change.run Change.applyMap m changes).2 := by
  induction changes generalizing fs m with
  | nil => exact ⟨rfl, h⟩
  | cons change changes ih =>
    obtain ⟨hanswer, hafter⟩ := h.apply change
    obtain ⟨hanswers, hrefines⟩ := ih hafter
    exact ⟨List.cons_eq_cons.2 ⟨hanswer, hanswers⟩, hrefines⟩

/-- The formulas are listed as the map lists its entries. -/
theorem Refines.toList_eq (h : fs.Refines m) : fs.toList = m.toList := by
  have hless : ∀ l : List (Coord × String), (l.Pairwise fun a b => Ord.compare a.1 b.1 = .lt) →
      l.Nodup := by
    intro l hl
    refine hl.imp fun {a b} hlt heq => ?_
    rw [heq, Coord.compare_lt_iff] at hlt
    omega
  have hperm : fs.toList.Perm m.toList := by
    rw [List.perm_ext_iff_of_nodup (hless _ pairwise_toList)
      (hless _ Std.ExtTreeMap.ordered_keys_toList)]
    rintro ⟨c, text⟩
    rw [mem_toList, Std.ExtTreeMap.mem_toList_iff_getElem?_eq_some, h c]
  refine hperm.eq_of_pairwise (fun a b _ _ hab hba => ?_) pairwise_toList
    Std.ExtTreeMap.ordered_keys_toList
  rw [Coord.compare_lt_iff] at hab hba
  omega

/-- There are as many formulas as entries in the map. -/
theorem Refines.size_eq (h : fs.Refines m) : fs.size = m.size := by
  rw [← length_toList, h.toList_eq, Std.ExtTreeMap.length_toList]

/-- The text under a key is that of the cell whose key it is. -/
theorem Refines.getByKey?_eq_some (h : fs.Refines m) {key text : String} :
    fs.getByKey? key = some text ↔ ∃ c : Coord, c.keyText = key ∧ m[c]? = some text := by
  constructor
  · intro hkey
    obtain ⟨⟨c, text⟩, hentry, rfl⟩ := Option.map_eq_some_iff.1 hkey
    obtain rfl := fs.keyed _ _ hentry
    exact ⟨c, rfl, (h c).symm.trans (getElem?_byKey.1 hentry)⟩
  · rintro ⟨c, rfl, hc⟩
    exact (h c).trans hc

/-- **Formulas are a finite map from cells to texts.** After any changes, which return what they
replace or take away, formulas are found, counted and listed as those of a map that has been changed
alike. A key finds the formula of the cell that it is the key of, and of no other one. -/
theorem refines_map (changes : List Change) :
    let out := Change.run Change.apply empty changes
    let out' := Change.run Change.applyMap ∅ changes
    let fs := out.2
    let m := out'.2
    out.1 = out'.1 ∧ (∀ c, fs.get? c = m[c]?) ∧ (∀ c, fs.contains c = m.contains c) ∧
      fs.size = m.size ∧ fs.isEmpty = m.isEmpty ∧
      (∀ key text,
        fs.getByKey? key = some text ↔ ∃ c : Coord, c.keyText = key ∧ m[c]? = some text) ∧
      (∀ c : Coord, c.HasKey → Coord.ofKey? c.keyText = some c) ∧
      (∀ c d : Coord, c.keyText = d.keyText ↔ c = d) ∧
      (∀ c text, (c, text) ∈ fs.toList ↔ m[c]? = some text) ∧
      fs.toList.Pairwise fun a b => a.1.row < b.1.row ∨ a.1.row = b.1.row ∧ a.1.col < b.1.col := by
  intro out out' fs m
  obtain ⟨hanswers, hrefines⟩ := refines_empty.run changes
  refine ⟨hanswers, hrefines, fun c => ?_, hrefines.size_eq, ?_,
    fun key text => hrefines.getByKey?_eq_some, fun c hc => Coord.ofKey?_keyText hc,
    fun c d => Coord.keyText_inj, fun c text => ?_, ?_⟩
  · rw [contains_eq, hrefines c, Std.ExtTreeMap.isSome_getElem?_eq_contains]
  · have hsize := hrefines.size_eq
    rw [isEmpty, Std.ExtTreeMap.isEmpty_eq_size_beq_zero, Std.ExtTreeMap.isEmpty_eq_size_beq_zero]
    exact congrArg (· == 0) hsize
  · rw [mem_toList, hrefines c]
  · exact pairwise_toList.imp Coord.compare_lt_iff.1

/-- Three cells whose keys are ordered otherwise than they are, one of them at the limit of numbers,
with a formula that is replaced and one that is taken away. -/
theorem refines_map_unordered :
    let last : Coord := ⟨4294967295, 4294967295⟩
    let changes : List Change :=
      [.insert ⟨10, 0⟩ "=A1", .insert last "=B1", .insert ⟨2, 11⟩ "=C1", .insert ⟨10, 0⟩ "=D1",
        .insert ⟨2, 1⟩ "=E1", .remove ⟨2, 11⟩]
    let out := Change.run Change.apply empty changes
    last.HasKey ∧ Coord.ofKey? last.keyText = some last ∧
      out.1 = [none, none, none, some "=A1", none, some "=C1"] ∧ out.2.size = 3 ∧
      out.2.toList = [(⟨2, 1⟩, "=E1"), (⟨10, 0⟩, "=D1"), (last, "=B1")] := by
  intro last changes out
  have hkey : last.HasKey := by decide
  obtain ⟨-, -, -, -, -, -, hofKey?, -⟩ := refines_map changes
  have htoList : out.2.toList = (Change.run Change.applyMap ∅ changes).2.toList :=
    (refines_empty.run changes).2.toList_eq
  rw [htoList]
  exact ⟨hkey, hofKey? last hkey, by decide +kernel, by decide +kernel, by decide +kernel⟩

end Spreadsheet.Formulas
