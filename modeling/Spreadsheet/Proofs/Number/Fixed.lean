import Spreadsheet.Number.Fixed
import Spreadsheet.Proofs.Number.Nearest
import Spreadsheet.Proofs.Number.Unpacked
import Spreadsheet.Proofs.Text.Digits

/-!
# A fixed number of places

The digits that `fixed` writes are those of the size of a number in units of its last place, rounded
to the nearest integer, of two to the even one (`Parts.isRounded_inPlaces`,
`Parts.ofDigits_fixedDigits`).
-/

namespace Spreadsheet

open Text

/-! ## Digits other than zero -/

/-- Whether a digit other than `0` is among some characters. -/
def Text.hasNonzeroDigit (cs : List Char) : Bool :=
  cs.any fun c => isDigit c && c != '0'

section
variable {ds : List Char}

/-- A digit other than zero is in a text if it is in one of its parts. -/
theorem Text.hasNonzeroDigit_append (cs cs' : List Char) :
    hasNonzeroDigit (cs ++ cs') = (hasNonzeroDigit cs || hasNonzeroDigit cs') :=
  List.any_append

/-- Digits stand for zero if each of them does. -/
theorem Text.ofDigits_eq_zero_iff (h : ∀ d ∈ ds, isDigit d = true) :
    ofDigits ds = 0 ↔ hasNonzeroDigit ds = false := by
  induction ds with
  | nil => exact iff_of_true rfl rfl
  | cons d ds ih =>
    obtain ⟨hd, hds⟩ := List.forall_mem_cons.1 h
    have hfirst : digitValue d = 0 ↔ d = '0' := by
      constructor
      · intro hzero
        rw [← digitChar_digitValue hd, hzero]
        rfl
      · rintro rfl
        rfl
    have hpow : (10 ^ ds.length : Nat) ≠ 0 := (Nat.pow_pos (by decide)).ne'
    rw [← List.singleton_append, ofDigits_append, hasNonzeroDigit_append, Bool.or_eq_false_iff,
      ← ih hds, Nat.add_eq_zero_iff, Nat.mul_eq_zero, or_iff_left hpow]
    refine and_congr_left fun _ => ?_
    simp [ofDigits, hasNonzeroDigit, hd, hfirst]

end

namespace Number

variable {x : Float} {p : Parts} {places : Nat}

/-! ## Rounding to places -/

/-- **The size of a number is rounded to its last place**, of two equally near ones to the even
one. -/
theorem Parts.isRounded_inPlaces (places : Nat) (p : Parts) :
    IsRounded (p.size * 10 ^ places) (p.inPlaces places) := by
  obtain ⟨negative, significand, exponent⟩ := p
  cases exponent with
  | ofNat e =>
    have hexact : Parts.size ⟨negative, significand, .ofNat e⟩ * 10 ^ places =
        (significand * 2 ^ e * 10 ^ places : Nat) := by
      simp [Parts.size]
    rw [hexact]
    exact isRounded_natCast _
  | negSucc e =>
    have hratio : Parts.size ⟨negative, significand, .negSucc e⟩ * 10 ^ places =
        (significand * Nat.pow 10 places : Nat) / (Nat.pow 2 (e + 1) : Nat) := by
      simp only [Parts.size, zpow_negSucc, Nat.pow_eq]
      push_cast
      ring
    rw [hratio]
    exact isRounded_divEven _ (Nat.pow_pos (by decide)).ne'

/-- More than half a unit of the last place is not rounded to zero. -/
theorem Parts.inPlaces_ne_zero (h : 1 / 2 < p.size * 10 ^ places) : p.inPlaces places ≠ 0 := by
  intro hzero
  have hhigh := (p.isRounded_inPlaces places).high
  rw [hzero, Nat.cast_zero, zero_add] at hhigh
  linarith

/-- A zero is zero in any number of places. -/
theorem Parts.inPlaces_eq_zero (h : p.significand = 0) : p.inPlaces places = 0 := by
  refine (p.isRounded_inPlaces places).eq ?_
  rw [Parts.size_eq_zero h, zero_mul]
  exact isRounded_natCast 0

/-! ## Digits -/

/-- There is a digit in front of the point. -/
theorem Parts.whole_digits_ne_nil (places : Nat) (p : Parts) : (p.fixedDigits places).1 ≠ [] :=
  digits_ne_nil _

/-- In front of the point there are digits alone. -/
theorem Parts.isDigit_whole {c : Char} (h : c ∈ (p.fixedDigits places).1) : isDigit c = true :=
  List.all_eq_true.1 (all_isDigit_digits _) c h

/-- Behind the point there are digits alone. -/
theorem Parts.isDigit_fraction {c : Char} (h : c ∈ (p.fixedDigits places).2) : isDigit c = true :=
  isDigit_of_mem_paddedDigits h

/-- Behind the point there are as many digits as places. -/
theorem Parts.length_fraction (hplaces : places ≠ 0) (p : Parts) :
    (p.fixedDigits places).2.length = places :=
  length_paddedDigits hplaces (Nat.mod_lt _ (Nat.pow_pos (by decide)))

/-- All digits together are those of the number of units of the last place. -/
theorem Parts.ofDigits_fixedDigits (hplaces : places ≠ 0) (p : Parts) :
    ofDigits ((p.fixedDigits places).1 ++ (p.fixedDigits places).2) = p.inPlaces places := by
  rw [ofDigits_append, p.length_fraction hplaces]
  change ofDigits (digits _) * _ + ofDigits (paddedDigits _ _) = _
  rw [ofDigits_digits, ofDigits_paddedDigits]
  exact Nat.div_add_mod' _ _

/-- A number is written without a digit other than zero if it is rounded to zero. -/
theorem Parts.hasNonzeroDigit_fixedDigits (hplaces : places ≠ 0) (p : Parts) :
    hasNonzeroDigit ((p.fixedDigits places).1 ++ (p.fixedDigits places).2) = true ↔
      p.inPlaces places ≠ 0 := by
  have hall : ∀ d ∈ (p.fixedDigits places).1 ++ (p.fixedDigits places).2, isDigit d = true :=
    List.forall_mem_append.2 ⟨fun _ => isDigit_whole, fun _ => isDigit_fraction⟩
  rw [← p.ofDigits_fixedDigits hplaces, Ne, ofDigits_eq_zero_iff hall, Bool.not_eq_false]

/-- A finite number written with a fixed number of places. -/
theorem fixed_eq (hp : parts? x = some p) (places : Nat) :
    fixed places x = (if p.negative then ['-'] else []) ++
      ((p.fixedDigits places).1 ++ '.' :: (p.fixedDigits places).2) := by
  rw [fixed, hp]
  exact List.append_assoc ..

/-- The size of a number written with a fixed number of places has no sign. -/
theorem fixed_abs (hp : parts? x = some p) (places : Nat) :
    fixed places x.abs = (p.fixedDigits places).1 ++ '.' :: (p.fixedDigits places).2 := by
  rw [abs_eq_signed hp, fixed_eq (parts?_signed hp p.negative)]
  cases hnegative : p.negative with
  | false => simp [hnegative]
  | true =>
    simp only [if_true, Parts.neg, hnegative, Bool.not_true, Bool.false_eq_true, if_false,
      List.nil_append]
    rfl

end Number

end Spreadsheet
