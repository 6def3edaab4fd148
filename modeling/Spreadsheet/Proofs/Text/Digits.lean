import Mathlib
import Spreadsheet.Text.Digits

/-!
# Numbers and their digits

The digits of a number are those that it is read from, without the zeros in front
(`digits_ofDigits`). A run of digits behind another one multiplies what this one stands for by a
power of ten (`ofDigits_append`), and a number lies between two such powers by the number of its
digits (`lt_pow_digitCount`, `pow_digitCount_le`). So leading zeros fill its digits up to a width
(`length_paddedDigits`).
-/

namespace Spreadsheet.Text

/-! ## Digits without leading zeros -/

variable {d : Char} {ds : List Char}

/-- A digit is worth less than ten. -/
theorem digitValue_lt (h : isDigit d = true) : digitValue d < 10 := by
  have hcode := isDigit_iff.1 h
  have hzero : '0'.toNat = 48 := rfl
  rw [digitValue]
  omega

/-- The digit of the value of a digit is the digit. -/
theorem digitChar_digitValue (h : isDigit d = true) : digitChar (digitValue d) = d := by
  have hcode := isDigit_iff.1 h
  have hzero : '0'.toNat = 48 := rfl
  rw [digitChar, digitValue, Nat.add_sub_cancel' (by omega), Char.ofNat_toNat]

/-- The last digit of a number is the one that was put behind the others. -/
theorem digitsOnto_mul_add (h : isDigit d = true) {n : Nat} (hne : n * 10 + digitValue d ≠ 0)
    (after : List Char) : digitsOnto (n * 10 + digitValue d) after = digitsOnto n (d :: after) := by
  have hlt := digitValue_lt h
  have hdiv : (n * 10 + digitValue d) / 10 = n := by omega
  have hmod : (n * 10 + digitValue d) % 10 = digitValue d := by omega
  rw [digitsOnto, dif_neg hne, hdiv, hmod, digitChar_digitValue h]

/-- After a number other than zero, digits are read to a number with these digits. -/
theorem digitsOnto_foldl {n : Nat} (h : ds.all isDigit = true) (hn : n ≠ 0) (after : List Char) :
    digitsOnto (ds.foldl (fun n d => n * 10 + digitValue d) n) after =
      digitsOnto n (ds ++ after) := by
  induction ds generalizing n with
  | nil => rfl
  | cons d ds ih =>
    rw [List.all_cons, Bool.and_eq_true] at h
    rw [List.foldl_cons, ih h.2 (by omega), digitsOnto_mul_add h.1 (by omega), List.cons_append]

/-- The digits of a number are those that it is read from, without leading zeros. -/
theorem digits_ofDigits (h : ds.all isDigit = true) (hne : ofDigits ds ≠ 0) :
    digits (ofDigits ds) = ds.dropWhile (· == '0') := by
  rw [digits, if_neg hne]
  induction ds with
  | nil => exact absurd rfl hne
  | cons d ds ih =>
    rw [List.all_cons, Bool.and_eq_true] at h
    by_cases hd : d = '0'
    · subst hd
      exact ih h.2 hne
    · have hvalue : 0 * 10 + digitValue d ≠ 0 := by
        intro hzero
        rw [Nat.zero_mul, Nat.zero_add] at hzero
        rw [← digitChar_digitValue h.1, hzero] at hd
        exact hd rfl
      rw [List.dropWhile_cons_of_neg (by simpa using hd), ofDigits, List.foldl_cons,
        digitsOnto_foldl h.2 hvalue, digitsOnto_mul_add h.1 hvalue, List.append_nil, digitsOnto,
        dif_pos rfl]

/-! ## Runs of digits -/

/-- Reading on from a number puts it in front of the digits. -/
theorem foldl_ofDigits (n : Nat) (ds : List Char) :
    ds.foldl (fun n d => n * 10 + digitValue d) n = n * 10 ^ ds.length + ofDigits ds := by
  induction ds generalizing n with
  | nil => simp [ofDigits]
  | cons d ds ih =>
    rw [ofDigits, List.foldl_cons, List.foldl_cons, ih, ih (0 * 10 + digitValue d),
      List.length_cons]
    ring

/-- Digits in two parts: the value of those in front is shifted by the number of the others. -/
theorem ofDigits_append (ds ds' : List Char) :
    ofDigits (ds ++ ds') = ofDigits ds * 10 ^ ds'.length + ofDigits ds' := by
  rw [ofDigits, List.foldl_append, foldl_ofDigits]
  rfl

/-- Zeros are worth nothing. -/
theorem ofDigits_zeros (n : Nat) : ofDigits (List.replicate n '0') = 0 := by
  induction n with
  | zero => rfl
  | succ n ih => exact ih

/-- Zeros are digits. -/
theorem isDigit_of_mem_zeros {n : Nat} {c : Char} (h : c ∈ List.replicate n '0') :
    isDigit c = true := by
  rw [List.eq_of_mem_replicate h]
  rfl

/-! ## Numbers of digits -/

/-- As many characters are put in front as a number has digits to base ten. -/
theorem length_digitsOnto (n : Nat) (after : List Char) :
    (digitsOnto n after).length = (Nat.digits 10 n).length + after.length := by
  induction n, after using digitsOnto.induct with
  | case1 after => rw [digitsOnto, dif_pos rfl, Nat.digits_zero, List.length_nil, Nat.zero_add]
  | case2 n after h ih =>
    rw [digitsOnto, dif_neg h, ih, Nat.digits_def' (by decide) (Nat.pos_of_ne_zero h)]
    simp only [List.length_cons]
    omega

/-- A number has as many digits as to base ten; only for zero this differs. -/
theorem digitCount_eq {n : Nat} (h : n ≠ 0) : digitCount n = (Nat.digits 10 n).length := by
  rw [digitCount, digits, if_neg h, length_digitsOnto, List.length_nil, Nat.add_zero]

/-- Every number has at least one digit. -/
theorem digitCount_pos (n : Nat) : 0 < digitCount n :=
  List.length_pos_iff.2 (digits_ne_nil n)

/-- A number is below the power of ten with as many zeros as it has digits. -/
theorem lt_pow_digitCount (n : Nat) : n < 10 ^ digitCount n := by
  by_cases h : n = 0
  · rw [h]
    decide
  · rw [digitCount_eq h]
    exact Nat.lt_base_pow_length_digits (by decide)

/-- A number other than zero is no less than the power of ten with as many digits as it has. -/
theorem pow_digitCount_le {n : Nat} (h : n ≠ 0) : 10 ^ (digitCount n - 1) ≤ n := by
  have hle := Nat.base_pow_length_digits_le 10 n (by decide) h
  obtain ⟨k, hk⟩ := Nat.exists_eq_succ_of_ne_zero (digitCount_pos n).ne'
  rw [← digitCount_eq h, hk, Nat.pow_succ'] at hle
  rw [hk, Nat.succ_sub_one]
  omega

/-- A number below a power of ten has no more digits than that. -/
theorem digitCount_le {n k : Nat} (h : n < 10 ^ (k + 1)) : digitCount n ≤ k + 1 := by
  by_cases hn : n = 0
  · rw [hn]
    exact Nat.le_add_left 1 k
  · have hpow := (Nat.pow_lt_pow_iff_right (by decide)).1 ((pow_digitCount_le hn).trans_lt h)
    omega

/-! ## Digits with leading zeros -/

/-- A number that is short enough is padded to the width. -/
theorem length_paddedDigits {width n : Nat} (hwidth : width ≠ 0) (h : n < 10 ^ width) :
    (paddedDigits width n).length = width := by
  obtain ⟨k, rfl⟩ := Nat.exists_eq_succ_of_ne_zero hwidth
  have hle : (digits n).length ≤ k + 1 := digitCount_le h
  rw [paddedDigits, List.length_append, List.length_replicate]
  omega

/-- A padded number is made of digits. -/
theorem isDigit_of_mem_paddedDigits {width n : Nat} {c : Char} (h : c ∈ paddedDigits width n) :
    isDigit c = true := by
  rcases List.mem_append.1 h with h | h
  · exact isDigit_of_mem_zeros h
  · exact List.all_eq_true.1 (all_isDigit_digits n) c h

/-- Padding does not change the value. -/
theorem ofDigits_paddedDigits (width n : Nat) : ofDigits (paddedDigits width n) = n := by
  rw [paddedDigits, ofDigits_append, ofDigits_zeros, Nat.zero_mul, Nat.zero_add, ofDigits_digits]

end Spreadsheet.Text
