/-!
# Words

Numbers that are kept in words of so many bits. An operation on them whose result does not fit its
word is an overflow.
-/

namespace Spreadsheet

/-- Why the result of an operation does not fit its word. -/
inductive Overflow where
  /-- It is too large for a word of so many bits. -/
  | tooLarge (bits : Nat)
  /-- It lies below zero. -/
  | belowZero
  deriving Repr, DecidableEq

namespace Word

variable {bits a b : Nat}

/-- The numbers that fit a word of so many bits are below this. -/
def limit (bits : Nat) : Nat :=
  Nat.pow 2 bits

/-- A number in a word of so many bits. -/
def ofNat (bits n : Nat) : Except Overflow Nat :=
  if n < limit bits then .ok n else .error (.tooLarge bits)

/-- A sum in a word of so many bits. -/
def add (bits a b : Nat) : Except Overflow Nat :=
  ofNat bits (a + b)

/-- A product in a word of so many bits. -/
def mul (bits a b : Nat) : Except Overflow Nat :=
  ofNat bits (a * b)

/-- A difference of two words. -/
def sub (a b : Nat) : Except Overflow Nat :=
  if b ≤ a then .ok (a - b) else .error .belowZero

theorem add_of_lt (h : a + b < limit bits) : add bits a b = .ok (a + b) :=
  if_pos h

theorem mul_of_lt (h : a * b < limit bits) : mul bits a b = .ok (a * b) :=
  if_pos h

theorem sub_of_le (h : b ≤ a) : sub a b = .ok (a - b) :=
  if_pos h

theorem lt_of_sub_succ {c : Nat} (h : sub a (b + 1) = .ok c) : c < a := by
  unfold sub at h
  split at h
  · cases h
    omega
  · cases h

end Word

end Spreadsheet
