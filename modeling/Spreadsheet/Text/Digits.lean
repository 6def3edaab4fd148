/-!
# Decimal digits

Natural numbers as runs of ASCII digits and back.
-/

namespace Spreadsheet.Text

/-- Whether a character is one of the ten ASCII digits. -/
def isDigit (c : Char) : Bool :=
  '0' ≤ c && c ≤ '9'

/-- Whether a character is one of the 52 ASCII letters. -/
def isLetter (c : Char) : Bool :=
  ('a' ≤ c && c ≤ 'z') || ('A' ≤ c && c ≤ 'Z')

/-- The number a digit stands for. -/
def digitValue (c : Char) : Nat :=
  c.toNat - '0'.toNat

/-- The digit that stands for a number below ten. -/
def digitChar (n : Nat) : Char :=
  Char.ofNat ('0'.toNat + n)

/-- The number a run of digits stands for; no digits stand for zero. -/
def ofDigits (ds : List Char) : Nat :=
  ds.foldl (fun n d => n * 10 + digitValue d) 0

/-- Reads a number below a limit: digits, perhaps after a plus sign. -/
def naturalBelow? (limit : Nat) (cs : List Char) : Option Nat :=
  let ds := match cs with
    | '+' :: ds => ds
    | ds => ds
  if ds.isEmpty || !ds.all isDigit then none
  else if ofDigits ds < limit then some (ofDigits ds)
  else none

/-- The digits of a number in front of others, without leading zeros: none for zero. -/
def digitsOnto (n : Nat) (after : List Char) : List Char :=
  if h : n = 0 then after else digitsOnto (n / 10) (digitChar (n % 10) :: after)
termination_by n
decreasing_by omega

/-- The digits of a number, without leading zeros; zero has one digit. -/
def digits (n : Nat) : List Char :=
  if n = 0 then ['0'] else digitsOnto n []

/-- The number of digits of a number. -/
def digitCount (n : Nat) : Nat :=
  (digits n).length

/-- The digits of a number, with leading zeros up to a width. -/
def paddedDigits (width n : Nat) : List Char :=
  let ds := digits n
  List.replicate (width - ds.length) '0' ++ ds

/-! ## Digits read back -/

theorem digitValue_digitChar {n : Nat} (h : n < 10) : digitValue (digitChar n) = n := by
  revert n
  decide

theorem isDigit_digitChar {n : Nat} (h : n < 10) : isDigit (digitChar n) = true := by
  revert n
  decide

/-- A digit is a character from `0` to `9`, by its code point. -/
theorem isDigit_iff {c : Char} : isDigit c = true ↔ 48 ≤ c.toNat ∧ c.toNat ≤ 57 := by
  rw [isDigit, Bool.and_eq_true, decide_eq_true_eq, decide_eq_true_eq, Char.le_def, Char.le_def,
    UInt32.le_iff_toNat_le, UInt32.le_iff_toNat_le]
  exact Iff.rfl

/-- Reading on after the digits of a number is reading on after the number. -/
theorem foldl_digitsOnto (n : Nat) (after : List Char) :
    (digitsOnto n after).foldl (fun n d => n * 10 + digitValue d) 0 =
      after.foldl (fun n d => n * 10 + digitValue d) n := by
  induction n, after using digitsOnto.induct with
  | case1 after => rw [digitsOnto, dif_pos rfl]
  | case2 n after h ih =>
    rw [digitsOnto, dif_neg h, ih, List.foldl_cons,
      digitValue_digitChar (Nat.mod_lt n (by omega))]
    congr 1
    omega

theorem ofDigits_digits (n : Nat) : ofDigits (digits n) = n := by
  unfold digits
  split
  · next h =>
    rw [h]
    rfl
  · exact foldl_digitsOnto n []

/-- Different numbers have different digits. -/
theorem digits_inj {m n : Nat} : digits m = digits n ↔ m = n := by
  constructor
  · intro h
    rw [← ofDigits_digits m, h, ofDigits_digits]
  · rintro rfl
    rfl

theorem all_isDigit_digitsOnto (n : Nat) (after : List Char) :
    (digitsOnto n after).all isDigit = after.all isDigit := by
  induction n, after using digitsOnto.induct with
  | case1 after => rw [digitsOnto, dif_pos rfl]
  | case2 n after h ih =>
    rw [digitsOnto, dif_neg h, ih, List.all_cons, isDigit_digitChar (Nat.mod_lt n (by omega)),
      Bool.true_and]

theorem all_isDigit_digits (n : Nat) : (digits n).all isDigit = true := by
  unfold digits
  split
  · rfl
  · exact all_isDigit_digitsOnto n []

theorem digits_ne_nil (n : Nat) : digits n ≠ [] := by
  intro h
  have hn := ofDigits_digits n
  rw [h] at hn
  subst hn
  cases h

end Spreadsheet.Text
