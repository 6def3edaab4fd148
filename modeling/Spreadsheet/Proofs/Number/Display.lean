import Spreadsheet.Proofs.Grid.Address
import Spreadsheet.Proofs.Number.Binary64
import Spreadsheet.Proofs.Text.Digits
import Spreadsheet.Value

/-!
# Displayed numbers read back

A number that is shown as an integer reads back as an equal number (`readsBack_of_showsInteger`):
its digits are those of its size, and the number nearest to that size is the number itself, up to
the sign of zero. A numeral as input to a cell stands for its number (`Value.ofInput_of_ofText?`).
-/

namespace Spreadsheet

namespace Number

open Text

/-! ## Digits as numerals -/

theorem takeSign_signed (negative : Bool) {c : Char} (hc : isDigit c = true) (cs : List Char) :
    takeSign ((if negative then ['-'] else []) ++ c :: cs) = (negative, c :: cs) := by
  cases negative with
  | true => rfl
  | false =>
    change takeSign (c :: cs) = _
    unfold takeSign
    split
    · next heq => cases heq; cases hc
    · next heq => cases heq; cases hc
    · rfl

/-- Digits, perhaps after a minus sign, are a numeral without a fraction and an exponent. -/
theorem ofChars?_of_isDigit (negative : Bool) {ds : List Char} (hne : ds ≠ [])
    (hall : ∀ c ∈ ds, isDigit c = true) :
    Numeral.ofChars? ((if negative then ['-'] else []) ++ ds) =
      some ⟨negative, ofDigits ds, 0⟩ := by
  obtain ⟨c, cs, rfl⟩ := List.exists_cons_of_ne_nil hne
  unfold Numeral.ofChars?
  rw [takeSign_signed negative (hall c (.head _))]
  dsimp only
  rw [List.takeWhile_eq_self_iff.2 hall, List.dropWhile_eq_nil_iff.2 hall]
  dsimp only
  rw [List.append_nil]
  rfl

theorem ofChars?_digits (negative : Bool) (n : Nat) :
    Numeral.ofChars? ((if negative then ['-'] else []) ++ digits n) = some ⟨negative, n, 0⟩ := by
  have hall := List.all_eq_true.1 (all_isDigit_digits n)
  rw [ofChars?_of_isDigit negative (digits_ne_nil n) hall, ofDigits_digits]

/-! ## Integers as numerals -/

/-- A natural number of up to 15 digits is neither too large nor too small to be rounded. -/
theorem ofDecimal_natural {n : Nat} (h : n < 10 ^ 15) : ofDecimal n 0 = nearest n 1 := by
  have hcount := digitCount_le (k := 14) h
  unfold ofDecimal
  dsimp only
  split
  · next hzero =>
    have hn : n = 0 := by
      rw [Bool.or_eq_true, decide_eq_true_eq, decide_eq_true_eq] at hzero
      omega
    rw [hn]
    rfl
  · rw [if_neg (by omega)]
    exact congrArg (nearest · 1) (Nat.mul_one n)

/-- Digits, perhaps after a minus sign, stand for the nearest number with that sign. -/
theorem ofNumeral?_digits {negative : Bool} {n : Nat} (h : n < 10 ^ 15)
    (hfinite : isFinite (signed negative (nearest n 1)) = true) :
    ofNumeral? ((if negative then ['-'] else []) ++ digits n) =
      some (signed negative (nearest n 1)) := by
  rw [ofNumeral?, ofChars?_digits, Option.map_some, Numeral.value, ofDecimal_natural h,
    Option.filter_some, if_pos hfinite]

/-! ## Numbers shown as integers -/

/-- Whether a number is shown as an integer. -/
def showsInteger (x : Float) : Bool :=
  (parts? x).any fun p => p.isWhole && p.whole < Nat.pow 10 15

/-- The text that a cell shows for a number stands for an equal number. -/
def ReadsBack (x : Float) : Prop :=
  ∃ y, ofText? (display x) = some y ∧ (y == x) = true

/-- Digits, perhaps after a minus sign, have no blanks around them. -/
theorem trimChars_signed_digits (negative : Bool) (n : Nat) :
    trimChars ((if negative then ['-'] else []) ++ digits n) =
      (if negative then ['-'] else []) ++ digits n := by
  refine trimChars_of_forall fun c hc => ?_
  rcases List.mem_append.1 hc with h | h
  · cases negative with
    | false => cases h
    | true => rw [List.mem_singleton.1 h]; rfl
  · exact not_isBlank_of_isDigit (List.all_eq_true.1 (all_isDigit_digits n) c h)

/-- A number that is shown as an integer reads back as itself, but for the zero with a sign, which
is shown without it. -/
theorem exists_ofText?_display_of_showsInteger {x : Float} (h : showsInteger x = true) :
    ∃ y, ofText? (display x) = some y ∧ (y = x ∨ y = 0 ∧ x = -0) := by
  obtain ⟨p, hp, hshown⟩ := (Option.any_eq_true _ _).1 h
  rw [Bool.and_eq_true, decide_eq_true_eq] at hshown
  obtain ⟨hwhole, hlt⟩ := hshown
  have hfinite : isFinite x = true := by rw [isFinite, hp]; rfl
  have hchars : displayChars x =
      (if p.negative && p.whole != 0 then ['-'] else []) ++ digits p.whole := by
    rw [displayChars, hp]
    dsimp only
    rw [if_pos (by rw [hwhole, Bool.true_and, decide_eq_true hlt])]
  have hread : ∀ y, ofNumeral? (displayChars x) = some y → ofText? (display x) = some y := by
    intro y hy
    rw [ofText?, display, String.toList_ofList, hchars, trimChars_signed_digits, ← hchars, hy]
  by_cases hzero : p.whole = 0
  · refine ⟨0, hread 0 ?_, ?_⟩
    · rw [hchars, hzero, bne_self_eq_false, Bool.and_false]
      exact ofNumeral?_digits (by decide) (by decide)
    · rcases eq_zero_of_significand hp (Parts.significand_eq_zero hwhole hzero) with hx | hx
      · exact .inl hx.symm
      · exact .inr ⟨rfl, hx⟩
  · have hnegative : (p.negative && p.whole != 0) = p.negative := by simp [hzero]
    have hnearest := signed_nearest_whole hp hwhole hzero (Nat.lt_trans hlt (by decide))
    refine ⟨x, hread x ?_, .inl rfl⟩
    rw [hchars, hnegative, ofNumeral?_digits hlt (by rw [hnearest]; exact hfinite), hnearest]

/-- A number that is shown as an integer reads back: zero as the zero without a sign, and any other
one as itself. -/
theorem readsBack_of_showsInteger {x : Float} (h : showsInteger x = true) : ReadsBack x := by
  obtain ⟨y, hread, rfl | ⟨rfl, rfl⟩⟩ := exists_ofText?_display_of_showsInteger h
  · obtain ⟨p, hp, -⟩ := (Option.any_eq_true _ _).1 h
    exact ⟨y, hread, beq_self_of_isFinite (by rw [isFinite, hp]; rfl)⟩
  · exact ⟨0, hread, rfl⟩

end Number

/-! ## Numerals as input -/

open Text

theorem Text.trimChars_cons {c : Char} (hc : isBlank c = false) (cs : List Char) :
    ∃ cs', trimChars (c :: cs) = c :: cs' := by
  have hdrop : [c].dropWhile isBlank = [c] := List.dropWhile_cons_of_neg (by simp [hc])
  rw [trimChars, List.dropWhile_cons_of_neg (by simp [hc]), List.reverse_cons,
    List.dropWhile_append, hdrop]
  split
  · exact ⟨[], rfl⟩
  · exact ⟨_, List.reverse_append⟩

/-- Input that is a numeral stands for its number, and is no formula. -/
theorem Value.ofInput_of_ofText? {raw : String} {n : Float} (h : Number.ofText? raw = some n) :
    isFormulaText raw = false ∧ ofInput raw = .number n := by
  constructor
  · refine Bool.eq_false_iff.2 fun hformula => ?_
    obtain ⟨cs, hcs⟩ := List.head?_eq_some_iff.1 (beq_iff_eq.1 hformula)
    obtain ⟨cs', htrim⟩ := trimChars_cons (c := '=') rfl cs
    rw [Number.ofText?, hcs, htrim] at h
    cases h
  · have htrim : (trimChars raw.toList).isEmpty = false := by
      refine Bool.eq_false_iff.2 fun hempty => ?_
      rw [Number.ofText?, List.isEmpty_iff.1 hempty] at h
      cases h
    rw [ofInput, htrim, if_neg Bool.false_ne_true, h]

end Spreadsheet
