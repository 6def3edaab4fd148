import Mathlib.Data.List.Basic
import Mathlib.Data.Nat.Digits.Defs
import Spreadsheet.Proofs.Grid.Address
import Spreadsheet.Text.Case

/-!
# Column letters as numerals

Column letters are numerals of the bijective system of base 26, whose digits run from 1 to 26. Each
word of letters has a value (`Column.value`), and the column before it is named by the word in upper
case (`Column.letters_of_value`); the letters of a column have the value after the column
(`Column.value_letters`). So columns and words in upper case name each other
(`Column.letters_bijective`). Reading ends at the first letter that leads out of the grid, so no
operation overflows, however long the word is.
-/

namespace Spreadsheet.Column

open Text

variable {n m i : Nat} {c : Char} {cs after : List Char}

/-! ## Letters -/

/-- The letters that are made are capitals. -/
theorem isUpper_letter {n : Nat} (h : n < 26) : (letter n).isUpper = true := by
  revert n
  decide

/-- A letter in upper case is the one for its value. -/
theorem toUpper_eq_letter (h : isLetter c = true) :
    letterValue c ≤ 26 ∧ c.toUpper = letter (letterValue c - 1) := by
  have hcodes : ∀ code < 123, isLetter (Char.ofNat code) = true →
      letterValue (Char.ofNat code) ≤ 26 ∧
        (Char.ofNat code).toUpper = letter (letterValue (Char.ofNat code) - 1) := by
    decide
  have hlt : c.toNat < 123 := by
    have hcode := isLetter_iff.1 h
    omega
  have hc := hcodes c.toNat hlt
  rw [Char.ofNat_toNat] at hc
  exact hc h

/-- Letters in upper case, each by itself. -/
theorem upperChars_of_isLetter (h : cs.all isLetter = true) :
    upperChars cs = cs.map Char.toUpper := by
  have hupper : ∀ c ∈ cs, upperChar c = [c.toUpper] := by
    intro c hc
    have hcode := isLetter_iff.1 (List.all_eq_true.1 h c hc)
    refine upperChar_of_ascii (decide_eq_true ?_)
    omega
  rw [upperChars, List.map_eq_flatMap]
  exact List.flatMap_congr hupper

/-! ## Values -/

/-- The value of letters as a numeral of the bijective system of base 26. -/
def value (cs : List Char) : Nat :=
  Nat.ofDigits 26 (cs.reverse.map letterValue)

/-- The value of letters that come after a number. -/
def valueFrom (n : Nat) (cs : List Char) : Nat :=
  cs.foldl (fun n c => n * 26 + letterValue c) n

/-- The value of letters is what is read onto zero. -/
theorem value_eq_valueFrom (cs : List Char) : value cs = valueFrom 0 cs := by
  rw [value, valueFrom, Nat.ofDigits_eq_foldr, List.foldl_eq_foldr_reverse, List.foldr_map]
  simp only [Nat.cast_id, Nat.mul_comm 26, Nat.add_comm]

/-- Each letter that is read adds at least one. -/
theorem le_valueFrom (n : Nat) (cs : List Char) : n + cs.length ≤ valueFrom n cs := by
  induction cs generalizing n with
  | nil => exact Nat.le_refl n
  | cons c cs ih =>
    have hrest := ih (n * 26 + letterValue c)
    have hdigit : 1 ≤ letterValue c := Nat.succ_pos _
    change n + (cs.length + 1) ≤ valueFrom (n * 26 + letterValue c) cs
    omega

/-- The value of letters is positive if there are any. -/
theorem value_pos (h : cs ≠ []) : 0 < value cs := by
  have hle := le_valueFrom 0 cs
  have hlen := List.length_pos_iff.2 h
  rw [value_eq_valueFrom]
  omega

/-! ## Letters of values -/

/-- The letters of a number have it as their value. -/
theorem valueFrom_lettersOnto (n : Nat) (after : List Char) :
    valueFrom 0 (lettersOnto n after) = valueFrom n after := by
  induction n, after using lettersOnto.induct with
  | case1 after => rw [lettersOnto, dif_pos rfl]
  | case2 n after hn ih =>
    rw [lettersOnto, dif_neg hn, ih, valueFrom, List.foldl_cons, mul_add_letterValue hn]
    rfl

/-- The letters of a column have its number, counted from one, as their value. -/
theorem value_letters (i : Nat) : value (letters i) = i + 1 := by
  rw [value_eq_valueFrom, letters, valueFrom_lettersOnto]
  rfl

/-- Different columns have different letters. -/
theorem letters_injective : Function.Injective letters := by
  intro i j h
  have hvalue := congrArg value h
  rw [value_letters, value_letters] at hvalue
  exact Nat.succ_inj.1 hvalue

/-- The last letter of a number is the one that was put behind the others. -/
theorem lettersOnto_mul_add (h : isLetter c = true) (n : Nat) (after : List Char) :
    lettersOnto (n * 26 + letterValue c) after = lettersOnto n (c.toUpper :: after) := by
  obtain ⟨hle, hupper⟩ := toUpper_eq_letter h
  have hpos : 1 ≤ letterValue c := Nat.succ_pos _
  have hdiv : (n * 26 + letterValue c - 1) / 26 = n := by omega
  have hmod : (n * 26 + letterValue c - 1) % 26 = letterValue c - 1 := by omega
  rw [lettersOnto, dif_neg (by omega), hdiv, hmod, hupper]

/-- The letters of a value are those it is the value of, in upper case. -/
theorem lettersOnto_valueFrom (h : cs.all isLetter = true) (n : Nat) (after : List Char) :
    lettersOnto (valueFrom n cs) after = lettersOnto n (cs.map Char.toUpper ++ after) := by
  induction cs generalizing n with
  | nil => rfl
  | cons c cs ih =>
    rw [List.all_cons, Bool.and_eq_true] at h
    rw [valueFrom, List.foldl_cons, ← valueFrom, ih h.2, lettersOnto_mul_add h.1]
    rfl

/-- Every word of letters names a column, in upper case. -/
theorem letters_of_value (hne : cs ≠ []) (h : cs.all isLetter = true) :
    letters (value cs - 1) = upperChars cs := by
  rw [letters, Nat.sub_add_cancel (value_pos hne), value_eq_valueFrom, lettersOnto_valueFrom h,
    lettersOnto, dif_pos rfl, List.append_nil, upperChars_of_isLetter h]

/-! ## Reading -/

/-- Reading succeeds on letters whose value lies in the grid. The value only grows, so a word that
leaves the grid on the way leaves it for good. -/
theorem readFrom_eq_ok_iff (h : n ≤ maxCols) :
    readFrom n cs = .ok m ↔ cs.all isLetter = true ∧ valueFrom n cs = m ∧ m ≤ maxCols := by
  induction cs generalizing n with
  | nil =>
    rw [readFrom, Except.ok.injEq]
    exact ⟨fun hm => ⟨rfl, hm, hm ▸ h⟩, fun hm => hm.2.1⟩
  | cons c cs ih =>
    have hcons : valueFrom n (c :: cs) = valueFrom (n * 26 + letterValue c) cs := rfl
    rw [readFrom, List.all_cons, hcons]
    cases hc : isLetter c with
    | false => simp
    | true =>
      by_cases hover : maxCols < n * 26 + letterValue c
      · have hle := le_valueFrom (n * 26 + letterValue c) cs
        simp only [Bool.not_true, Bool.false_eq_true, if_false, if_pos hover, reduceCtorEq,
          false_iff]
        omega
      · simp only [Bool.not_true, Bool.false_eq_true, if_false, if_neg hover, Bool.true_and]
        exact ih (Nat.le_of_not_lt hover)

/-- A text is read as a column when it is a word of letters whose value lies in the grid. -/
theorem index_eq_ok_iff :
    index cs = .ok i ↔ (cs ≠ [] ∧ cs.all isLetter = true) ∧ i = value cs - 1 ∧ i < maxCols := by
  by_cases hne : cs = []
  · simp [index, hne]
  · have hpos := value_pos hne
    have hread : index cs = .ok i ↔ ∃ n, readFrom 0 cs = .ok n ∧ n - 1 = i := by
      rw [index, if_neg (by simpa using hne)]
      cases readFrom 0 cs <;> simp [Except.map]
    simp only [hread, readFrom_eq_ok_iff (Nat.zero_le _), ← value_eq_valueFrom]
    constructor
    · rintro ⟨n, ⟨hletters, rfl, hle⟩, rfl⟩
      exact ⟨⟨hne, hletters⟩, rfl, by omega⟩
    · rintro ⟨⟨-, hletters⟩, rfl, hlt⟩
      exact ⟨_, ⟨hletters, rfl, by omega⟩, rfl⟩

/-! ## In words -/

/-- The value of a letter does not leave its word. -/
theorem letterValueInWords_eq (h : isLetter c = true) :
    letterValueInWords c = .ok (letterValue c) := by
  obtain ⟨hle, hupper⟩ := toUpper_eq_letter h
  have hletter : ∀ m < 26, 'A'.toNat ≤ (letter m).toNat := by decide
  have hA : 'A'.toNat ≤ c.toUpper.toNat := by
    rw [hupper]
    exact hletter _ (by omega)
  have hlimit : 26 < Word.limit 32 := by decide
  rw [letterValueInWords, Word.sub_of_le hA]
  exact Word.add_of_lt (Nat.lt_of_le_of_lt hle hlimit)

/-- Reading does not overflow: what it goes on with lies in the grid. -/
theorem readFromInWords_eq (h : n ≤ maxCols) (cs : List Char) :
    readFromInWords n cs = .ok (readFrom n cs) := by
  induction cs generalizing n with
  | nil => rfl
  | cons c cs ih =>
    rw [readFromInWords, readFrom]
    cases hc : isLetter c with
    | false => rfl
    | true =>
      have hle := (toUpper_eq_letter hc).1
      have hlimit : maxCols * 26 + 26 < Word.limit 32 := by decide
      have hmul : n * 26 < Word.limit 32 := by omega
      have hadd : n * 26 + letterValue c < Word.limit 32 := by omega
      rw [letterValueInWords_eq hc, Word.mul_of_lt hmul]
      dsimp only [bind, Except.bind]
      rw [Word.add_of_lt hadd, if_neg (by decide), if_neg (by decide)]
      dsimp only
      split
      · rfl
      · next hover => exact ih (Nat.le_of_not_lt hover)

/-- Letters are read in words as they are on numbers, whether they name a column or not. -/
theorem indexInWords_eq (cs : List Char) : indexInWords cs = .ok (index cs) := by
  by_cases hne : cs = []
  · rw [hne]
    rfl
  · rw [indexInWords, index, if_neg (by simpa using hne), if_neg (by simpa using hne),
      readFromInWords_eq (Nat.zero_le _)]
    cases hread : readFrom 0 cs with
    | error error => rfl
    | ok n =>
      obtain ⟨-, rfl, -⟩ := (readFrom_eq_ok_iff (Nat.zero_le _)).1 hread
      have hpos := value_pos hne
      rw [value_eq_valueFrom] at hpos
      dsimp only [bind, Except.bind]
      rw [Word.sub_of_le hpos]
      rfl

/-- The loop that names a column goes in words as it does on numbers. -/
theorem lettersOntoInWords_eq (n : Nat) (after : List Char) :
    lettersOntoInWords n after = .ok (lettersOnto n after) := by
  induction n, after using lettersOnto.induct with
  | case1 after =>
    rw [lettersOnto, dif_pos rfl, lettersOntoInWords, if_pos rfl]
    rfl
  | case2 n after hn ih =>
    have hsub : Word.sub n 1 = .ok (n - 1) := Word.sub_of_le (Nat.pos_of_ne_zero hn)
    have hlimit : 'A'.toNat + 25 < Word.limit 8 := by decide
    have hadd : (n - 1) % 26 + 'A'.toNat < Word.limit 8 := by omega
    rw [lettersOnto, dif_neg hn, lettersOntoInWords, if_neg hn]
    split
    · next overflow h => cases hsub.symm.trans h
    · next below h =>
      cases hsub.symm.trans h
      rw [Word.add_of_lt hadd, ← ih, letter, Nat.add_comm 'A'.toNat]
      rfl

/-- A column is named in words as it is on numbers. -/
theorem lettersInWords_eq (h : i < Word.limit 32) : lettersInWords i = .ok (letters i) := by
  have hlimit : Word.limit 32 < Word.limit 64 := by decide
  rw [lettersInWords, Word.add_of_lt (Nat.lt_of_le_of_lt h hlimit)]
  exact lettersOntoInWords_eq _ _

/-- **Columns and their letters name each other.** Every column has a non-empty word in upper case,
and different columns have different words. A text is read as a column when it is a non-empty word
of letters and the column before its value lies in the grid; the letters of that column are the text
in upper case. The letters of every column of the grid are read as the column. No operation
overflows or goes below zero, on texts of any length and on all columns in words of 32 bits. -/
theorem letters_bijective :
    (∀ i, letters i ≠ [] ∧ (letters i).all Char.isUpper = true) ∧
      Function.Injective letters ∧
      (∀ cs i, index cs = .ok i ↔
        (cs ≠ [] ∧ cs.all isLetter = true) ∧ i = value cs - 1 ∧ i < maxCols) ∧
      (∀ cs i, index cs = .ok i → letters i = upperChars cs) ∧
      (∀ i < maxCols, index (letters i) = .ok i) ∧
      (∀ cs, indexInWords cs = .ok (index cs)) ∧
      ∀ i < Word.limit 32, lettersInWords i = .ok (letters i) := by
  refine ⟨fun i => ⟨letters_ne_nil i, all_lettersOnto isUpper_letter _ _⟩, letters_injective,
    fun cs i => index_eq_ok_iff, fun cs i h => ?_, fun i => index_letters, indexInWords_eq,
    fun i => lettersInWords_eq⟩
  obtain ⟨⟨hne, hletters⟩, rfl, -⟩ := index_eq_ok_iff.1 h
  exact letters_of_value hne hletters

/-- The last column of the grid. -/
example : value ['X', 'F', 'D'] = maxCols := by decide

end Spreadsheet.Column
