import Mathlib.Data.List.TakeDrop
import Spreadsheet.Grid.Range

/-!
# Addresses read back

Column letters, addresses and keys are read back as what they were written for
(`Column.index_letters`, `Coord.parse_toText`, `Coord.ofKey?_keyText`): column letters and addresses
as long as they name a column or a cell of the grid, keys as long as their numbers are below the
limit.
-/

namespace Spreadsheet

/-! ## Letters and blanks -/

namespace Text

/-- A letter is a character of one of the two ASCII alphabets, by its code point. -/
theorem isLetter_iff {c : Char} :
    isLetter c = true ↔ 97 ≤ c.toNat ∧ c.toNat ≤ 122 ∨ 65 ≤ c.toNat ∧ c.toNat ≤ 90 := by
  rw [isLetter, Bool.or_eq_true]
  simp only [Bool.and_eq_true, decide_eq_true_eq, Char.le_def, UInt32.le_iff_toNat_le]
  exact Iff.rfl

/-- A digit is no letter. -/
theorem not_isLetter_of_isDigit {c : Char} (h : isDigit c = true) : isLetter c = false := by
  have h := isDigit_iff.1 h
  rw [← Bool.not_eq_true, isLetter_iff]
  omega

/-- A digit is no blank. -/
theorem not_isBlank_of_isDigit {c : Char} (h : isDigit c = true) : isBlank c = false := by
  have h := isDigit_iff.1 h
  simp [isBlank, inRanges, blankRanges]
  omega

/-- A letter is no blank. -/
theorem not_isBlank_of_isLetter {c : Char} (h : isLetter c = true) : isBlank c = false := by
  have h := isLetter_iff.1 h
  simp [isBlank, inRanges, blankRanges]
  omega

/-- Characters without blanks at the ends are not trimmed. -/
theorem trimChars_of_ends {cs : List Char} (hfirst : ∀ c ∈ cs.head?, isBlank c = false)
    (hlast : ∀ c ∈ cs.getLast?, isBlank c = false) : trimChars cs = cs := by
  have hdrop : ∀ cs : List Char, (∀ c ∈ cs.head?, isBlank c = false) →
      cs.dropWhile isBlank = cs := by
    intro cs h
    cases cs with
    | nil => rfl
    | cons c cs => rw [List.dropWhile_cons_of_neg (by simp [h c rfl])]
  rw [← List.head?_reverse] at hlast
  rw [trimChars, hdrop cs hfirst, hdrop cs.reverse hlast, List.reverse_reverse]

/-- Characters without blanks among them are not trimmed. -/
theorem trimChars_of_forall {cs : List Char} (h : ∀ c ∈ cs, isBlank c = false) :
    trimChars cs = cs :=
  trimChars_of_ends (fun c hc => h c (List.mem_of_head? hc))
    fun c hc => h c (List.mem_of_getLast? hc)

end Text

/-! ## Column letters -/

namespace Column

open Text

/-- The letter of a number has this number as its value. -/
theorem letterValue_letter {n : Nat} (h : n < 26) : letterValue (letter n) = n + 1 := by
  revert n
  decide

/-- The letter of a number is a letter. -/
theorem isLetter_letter {n : Nat} (h : n < 26) : isLetter (letter n) = true := by
  revert n
  decide

/-- A positive number is made up of its last letter and the letters before it. -/
theorem mul_add_letterValue {n : Nat} (h : n ≠ 0) :
    (n - 1) / 26 * 26 + letterValue (letter ((n - 1) % 26)) = n := by
  rw [letterValue_letter (Nat.mod_lt _ (by omega))]
  omega

/-- Reading on after the letters of a number is reading on after the number. -/
theorem readFrom_lettersOnto (n : Nat) (after : List Char) (h : n ≤ maxCols) :
    readFrom 0 (lettersOnto n after) = readFrom n after := by
  induction n, after using lettersOnto.induct with
  | case1 after => rw [lettersOnto, dif_pos rfl]
  | case2 n after hn ih =>
    have hmod : (n - 1) % 26 < 26 := Nat.mod_lt _ (by omega)
    rw [lettersOnto, dif_neg hn, ih (by omega), readFrom, isLetter_letter hmod]
    dsimp only
    rw [mul_add_letterValue hn, if_neg (by decide), if_neg (by omega)]

/-- In front of other characters a column puts nothing but letters. -/
theorem all_lettersOnto {p : Char → Bool} (hp : ∀ {m : Nat}, m < 26 → p (letter m) = true)
    (n : Nat) (after : List Char) : (lettersOnto n after).all p = after.all p := by
  induction n, after using lettersOnto.induct with
  | case1 after => rw [lettersOnto, dif_pos rfl]
  | case2 n after h ih =>
    rw [lettersOnto, dif_neg h, ih, List.all_cons, hp (Nat.mod_lt _ (by omega)), Bool.true_and]

/-- The name of a column is made of letters. -/
theorem all_isLetter_letters (index : Nat) : (letters index).all isLetter = true :=
  all_lettersOnto isLetter_letter (index + 1) []

/-- Putting letters in front makes no text shorter. -/
theorem length_lettersOnto (n : Nat) (after : List Char) :
    after.length ≤ (lettersOnto n after).length := by
  induction n, after using lettersOnto.induct with
  | case1 after => exact Nat.le_of_eq (by rw [lettersOnto, dif_pos rfl])
  | case2 n after h ih =>
    rw [lettersOnto, dif_neg h]
    exact Nat.le_trans (Nat.le_succ _) ih

/-- Every column has at least one letter. -/
theorem letters_ne_nil (index : Nat) : letters index ≠ [] := by
  intro h
  have hlen := length_lettersOnto (index / 26) [letter (index % 26)]
  rw [letters, lettersOnto, dif_neg (Nat.succ_ne_zero index)] at h
  rw [Nat.add_sub_cancel] at h
  rw [h] at hlen
  cases hlen

/-- The letters of a column of the grid name it. -/
theorem index_letters {index : Nat} (h : index < maxCols) :
    Column.index (letters index) = .ok index := by
  rw [Column.index, if_neg (by simpa using letters_ne_nil index), letters,
    readFrom_lettersOnto _ _ h]
  rfl

end Column

/-! ## Addresses -/

namespace Coord

open Text

/-- Whether a cell lies in the grid. -/
def InGrid (c : Coord) : Prop :=
  c.row < maxRows ∧ c.col < maxCols

instance (c : Coord) : Decidable c.InGrid :=
  inferInstanceAs (Decidable (_ ∧ _))

/-- Letters and digits behind them are split where the digits begin. -/
theorem splitAddress?_append {letters ds : List Char} (hl : letters.all isLetter = true)
    (hl' : letters ≠ []) (hd : ds.all isDigit = true) (hd' : ds ≠ []) :
    splitAddress? (letters ++ ds) = some (letters, ds) := by
  obtain ⟨d, ds', rfl⟩ := List.exists_cons_of_ne_nil hd'
  have hletter : ¬ isLetter d = true := by
    rw [List.all_cons, Bool.and_eq_true] at hd
    rw [not_isLetter_of_isDigit hd.1]
    decide
  have htake : (letters ++ d :: ds').takeWhile isLetter = letters := by
    rw [List.takeWhile_append_of_pos (List.all_eq_true.1 hl), List.takeWhile_cons_of_neg hletter,
      List.append_nil]
  have hdrop : (letters ++ d :: ds').dropWhile isLetter = d :: ds' := by
    rw [List.dropWhile_append_of_pos (List.all_eq_true.1 hl), List.dropWhile_cons_of_neg hletter]
  unfold splitAddress?
  rw [htake, hdrop]
  simp [hl', hd]

/-- The address of a cell is split into its column and its row. -/
theorem splitAddress?_address (c : Coord) :
    splitAddress? c.address = some (Column.letters c.col, digits (c.row + 1)) :=
  splitAddress?_append (Column.all_isLetter_letters _) (Column.letters_ne_nil _)
    (all_isDigit_digits _) (digits_ne_nil _)

/-- There are no blanks in the address of a cell. -/
theorem not_isBlank_of_mem_address {c : Coord} {d : Char} (h : d ∈ c.address) :
    isBlank d = false := by
  rcases List.mem_append.1 h with h | h
  · exact not_isBlank_of_isLetter (List.all_eq_true.1 (Column.all_isLetter_letters _) d h)
  · exact not_isBlank_of_isDigit (List.all_eq_true.1 (all_isDigit_digits _) d h)

/-- The text of a cell has the shape of an address. -/
theorem isAddressShaped_toText (c : Coord) : isAddressShaped c.toText = true := by
  rw [isAddressShaped, toText, String.toList_ofList, splitAddress?_address]
  rfl

/-- The address of a cell of the grid names it. -/
theorem parse_toText {c : Coord} (h : c.InGrid) : parse c.toText = .ok c := by
  have hrow := h.1
  rw [parse, toText, String.toList_ofList, trimChars_of_forall fun _ => not_isBlank_of_mem_address,
    ofChars, splitAddress?_address]
  dsimp only
  rw [Column.index_letters h.2, ofDigits_digits]
  have hlimit : ¬ numberLimit ≤ c.row + 1 := by
    have hrows : maxRows < numberLimit := by decide
    omega
  change (if numberLimit ≤ c.row + 1 then _ else _ : Except GridError Coord) = _
  rw [if_neg hlimit, if_neg (Nat.succ_ne_zero c.row), if_neg (by omega)]
  rfl

/-! ## Keys -/

/-- Whether both numbers of a coordinate are below the limit of numbers in keys. -/
def HasKey (c : Coord) : Prop :=
  c.row < numberLimit ∧ c.col < numberLimit

instance (c : Coord) : Decidable c.HasKey :=
  inferInstanceAs (Decidable (_ ∧ _))

/-- The digits of a number below a limit are read as the number. -/
theorem naturalBelow?_digits {limit n : Nat} (h : n < limit) :
    naturalBelow? limit (digits n) = some n := by
  unfold naturalBelow?
  extract_lets ds
  have hds : ds = digits n := by
    unfold ds
    split
    · next ds hsign =>
      have hall := all_isDigit_digits n
      rw [hsign] at hall
      cases hall
    · rfl
  rw [hds, if_neg (by simp [digits_ne_nil, all_isDigit_digits]), ofDigits_digits, if_pos h]

/-- The key of a cell names it. -/
theorem ofKey?_keyText {c : Coord} (h : c.HasKey) : ofKey? c.keyText = some c := by
  rw [ofKey?, keyText, String.toList_ofList, List.span_eq_takeWhile_dropWhile, takeWhile_key,
    dropWhile_key]
  dsimp only
  rw [naturalBelow?_digits h.1, naturalBelow?_digits h.2]
  rfl

end Coord

/-- A range is the one between its own corners. -/
theorem Range.ofCorners_self (r : Range) : Range.ofCorners r.topLeft r.bottomRight = r := by
  obtain ⟨⟨row, col⟩, ⟨row', col'⟩, hrow, hcol⟩ := r
  simp only at hrow hcol
  simp [Range.ofCorners, Nat.min_eq_left hrow, Nat.min_eq_left hcol, Nat.max_eq_right hrow,
    Nat.max_eq_right hcol]

end Spreadsheet
