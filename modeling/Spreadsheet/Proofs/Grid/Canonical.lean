import Spreadsheet.Proofs.Grid.Columns
import Spreadsheet.Proofs.Text.Digits

/-!
# Addresses in every spelling

An address is letters and then digits (`Coord.Shaped`), with blanks around it passed over. It is
read if its letters have a value that lies in the grid and its digits are a row from 1 on that does,
however many leading zeros they have, and the cell that it names has the address in upper case and
without these zeros as its own (`Coord.parse_canonical`). So the address of a cell and the text of a
range are read back.
-/

namespace Spreadsheet

open Text

namespace Coord

/-! ## Shapes -/

/-- Whether characters have the shape of an address: they are letters and then digits. -/
structure Shaped (cs letters ds : List Char) : Prop where
  chars : cs = letters ++ ds
  letters_ne_nil : letters ≠ []
  all_isLetter : letters.all isLetter = true
  digits_ne_nil : ds ≠ []
  all_isDigit : ds.all isDigit = true

variable {cs letters ds : List Char} {c : Coord} {s : String}

theorem splitAddress?_eq_some_iff :
    splitAddress? cs = some (letters, ds) ↔ Shaped cs letters ds := by
  constructor
  · intro h
    unfold splitAddress? at h
    dsimp only at h
    split at h
    · cases h
    · next hshape =>
      cases h
      rw [Bool.or_eq_true, Bool.or_eq_true, not_or, not_or, List.isEmpty_iff, List.isEmpty_iff,
        Bool.not_eq_true', Bool.not_eq_false] at hshape
      exact ⟨List.takeWhile_append_dropWhile.symm, hshape.1.1, List.all_takeWhile, hshape.1.2,
        hshape.2⟩
  · rintro ⟨rfl, hletters, hall, hdigits, hall'⟩
    exact splitAddress?_append hall hletters hall' hdigits

theorem isAddressShaped_iff :
    isAddressShaped s = true ↔ ∃ letters ds, Shaped s.toList letters ds := by
  simp only [isAddressShaped, Option.isSome_iff_exists, Prod.exists, splitAddress?_eq_some_iff]

/-! ## Reading -/

/-- Characters of this shape are read if letters and digits lie in the grid. -/
theorem Shaped.ofChars_eq_ok_iff (h : Shaped cs letters ds) :
    ofChars cs = .ok c ↔
      (Column.value letters ≤ maxCols ∧ 1 ≤ ofDigits ds ∧ ofDigits ds ≤ maxRows) ∧
      c = ⟨ofDigits ds - 1, Column.value letters - 1⟩ := by
  have hpos := Column.value_pos h.letters_ne_nil
  have hlimit : maxRows < numberLimit := by decide
  have hcol : ∀ i, Column.index letters = .ok i ↔
      i = Column.value letters - 1 ∧ Column.value letters ≤ maxCols := by
    intro i
    rw [Column.index_eq_ok_iff, and_iff_right ⟨h.letters_ne_nil, h.all_isLetter⟩]
    omega
  rw [ofChars, splitAddress?_eq_some_iff.2 h]
  dsimp only
  cases hindex : Column.index letters with
  | error error =>
    refine iff_of_false (by rintro ⟨⟩) fun hc => ?_
    rw [(hcol _).2 ⟨rfl, hc.1.1⟩] at hindex
    cases hindex
  | ok col =>
    obtain ⟨rfl, hle⟩ := (hcol col).1 hindex
    change (if _ then _ else _ : Except GridError Coord) = _ ↔ _
    split
    · exact iff_of_false (by rintro ⟨⟩) (by omega)
    · split
      · exact iff_of_false (by rintro ⟨⟩) (by omega)
      · split
        · exact iff_of_false (by rintro ⟨⟩) (by omega)
        · rw [Except.ok.injEq, and_iff_right (by omega), eq_comm]

/-- Only what has the shape of an address is read as one. -/
theorem shaped_of_ofChars (h : ofChars cs = .ok c) : ∃ letters ds, Shaped cs letters ds := by
  unfold ofChars at h
  split at h
  · cases h
  · next letters ds hsplit => exact ⟨letters, ds, splitAddress?_eq_some_iff.1 hsplit⟩

/-- An address that is read names a cell of the grid. -/
theorem inGrid_of_parse (h : parse s = .ok c) : c.InGrid := by
  obtain ⟨letters, ds, hshape⟩ := shaped_of_ofChars h
  obtain ⟨⟨hcol, hrow, hrow'⟩, rfl⟩ := hshape.ofChars_eq_ok_iff.1 h
  have hpos := Column.value_pos hshape.letters_ne_nil
  simp only [InGrid]
  omega

/-- The address of the cell that letters and digits name. -/
theorem Shaped.address_eq (h : Shaped cs letters ds) (hrow : 1 ≤ ofDigits ds) :
    address ⟨ofDigits ds - 1, Column.value letters - 1⟩ =
      letters.map Char.toUpper ++ ds.dropWhile (· == '0') := by
  rw [address, Column.letters_of_value h.letters_ne_nil h.all_isLetter,
    Column.upperChars_of_isLetter h.all_isLetter, Nat.sub_add_cancel hrow,
    digits_ofDigits h.all_isDigit (by omega)]

end Coord

/-! ## Ranges -/

namespace Range

/-- What stands before the first colon. -/
theorem span_colon {a b : List Char} (h : ∀ c ∈ a, (c != ':') = true) :
    (a ++ ':' :: b).span (· != ':') = (a, ':' :: b) := by
  rw [List.span_eq_takeWhile_dropWhile, List.takeWhile_append_of_pos h,
    List.dropWhile_append_of_pos h]
  simp

/-- Where there is no colon. -/
theorem span_of_forall {a : List Char} (h : ∀ c ∈ a, (c != ':') = true) :
    a.span (· != ':') = (a, []) := by
  rw [List.span_eq_takeWhile_dropWhile, List.takeWhile_eq_self_iff.2 h,
    List.dropWhile_eq_nil_iff.2 h]

/-- There is no colon in an address. -/
theorem bne_colon_address (c : Coord) : ∀ d ∈ c.address, (d != ':') = true := by
  intro d h
  rw [bne_iff_ne]
  rintro rfl
  rcases List.mem_append.1 h with h | h
  · exact absurd (List.all_eq_true.1 (Column.all_isLetter_letters _) _ h) (by decide)
  · exact absurd (List.all_eq_true.1 (all_isDigit_digits _) _ h) (by decide)

/-- The text of a range of the grid names it. -/
theorem parse_toText {r : Range} (htop : r.topLeft.InGrid) (hbottom : r.bottomRight.InGrid) :
    parse r.toText = .ok r := by
  have hread : ∀ c : Coord, c.InGrid → Coord.parse (String.ofList c.address) = .ok c :=
    fun _ => Coord.parse_toText
  unfold toText
  split
  · next hsingle =>
    have hr : single r.topLeft = r := by
      obtain ⟨topLeft, bottomRight, _, _⟩ := r
      cases hsingle
      rfl
    rw [parse, Coord.toText, String.toList_ofList,
      trimChars_of_forall fun _ => Coord.not_isBlank_of_mem_address]
    dsimp only
    rw [span_of_forall (bne_colon_address _)]
    dsimp only
    rw [hread _ htop, Except.map, hr]
  · have hchars : (r.topLeft.toText ++ ":" ++ r.bottomRight.toText).toList =
        r.topLeft.address ++ ':' :: r.bottomRight.address := by
      simp [Coord.toText]
    have hblank : ∀ c ∈ r.topLeft.address ++ ':' :: r.bottomRight.address, isBlank c = false := by
      simp only [List.mem_append, List.mem_cons]
      rintro c (hc | rfl | hc)
      · exact Coord.not_isBlank_of_mem_address hc
      · rfl
      · exact Coord.not_isBlank_of_mem_address hc
    rw [parse, hchars, trimChars_of_forall hblank]
    dsimp only
    rw [span_colon (bne_colon_address _)]
    dsimp only
    rw [hread _ htop, hread _ hbottom]
    exact congrArg Except.ok r.ofCorners_self

end Range

/-! ## Canonical forms -/

namespace Coord

/-- **Addresses are read in every spelling and written in one.** A text is read as an address when,
without the blanks around it, it is letters and then digits whose column and whose row, counted from
1, lie in the grid. The address of the cell that it names is the text in upper case and without the
zeros that its row begins with. The addresses of all cells of the grid are read as the cells, and
the texts of all ranges of the grid as the ranges. -/
theorem parse_canonical :
    (∀ s : String, (∃ c, parse s = .ok c) ↔ ∃ letters ds, Shaped (trimChars s.toList) letters ds ∧
        Column.value letters ≤ maxCols ∧ 1 ≤ ofDigits ds ∧ ofDigits ds ≤ maxRows) ∧
      (∀ (s : String) (c : Coord) (letters ds : List Char), parse s = .ok c →
        Shaped (trimChars s.toList) letters ds →
          c = ⟨ofDigits ds - 1, Column.value letters - 1⟩ ∧
          c.toText = String.ofList (letters.map Char.toUpper ++ ds.dropWhile (· == '0'))) ∧
      (∀ c : Coord, c.InGrid → parse c.toText = .ok c) ∧
      ∀ r : Range, r.topLeft.InGrid → r.bottomRight.InGrid → Range.parse r.toText = .ok r := by
  refine ⟨fun s => ⟨?_, ?_⟩, fun s c letters ds h hshape => ?_, fun c => parse_toText,
    fun r => Range.parse_toText⟩
  · rintro ⟨c, h⟩
    obtain ⟨letters, ds, hshape⟩ := shaped_of_ofChars h
    exact ⟨letters, ds, hshape, (hshape.ofChars_eq_ok_iff.1 h).1⟩
  · rintro ⟨letters, ds, hshape, hgrid⟩
    exact ⟨_, hshape.ofChars_eq_ok_iff.2 ⟨hgrid, rfl⟩⟩
  · obtain ⟨⟨-, hrow, -⟩, rfl⟩ := hshape.ofChars_eq_ok_iff.1 h
    exact ⟨rfl, congrArg String.ofList (hshape.address_eq hrow)⟩

/-- The last cell of the grid, with small letters, zeros and blanks. -/
theorem parse_canonical_greatest :
    parse " xFd0001048576 " = .ok ⟨1048575, 16383⟩ ∧
      Shaped (trimChars " xFd0001048576 ".toList) "xFd".toList "0001048576".toList ∧
      toText ⟨1048575, 16383⟩ = "XFD1048576" := by
  have hread : parse " xFd0001048576 " = .ok ⟨1048575, 16383⟩ := by decide +kernel
  have hshape : Shaped (trimChars " xFd0001048576 ".toList) "xFd".toList "0001048576".toList :=
    ⟨by decide +kernel, by decide +kernel, by decide +kernel, by decide +kernel, by decide +kernel⟩
  obtain ⟨-, hcanonical, -⟩ := parse_canonical
  exact ⟨hread, hshape, (hcanonical _ _ _ _ hread hshape).2⟩

end Coord

end Spreadsheet
