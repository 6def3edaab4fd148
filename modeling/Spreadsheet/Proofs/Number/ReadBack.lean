import Spreadsheet.Proofs.Number.Display
import Spreadsheet.Proofs.Number.Order
import Spreadsheet.Proofs.Number.Shortest

/-!
# All displayed numbers read back

A number that is not shown as an integer is shown as its shortest decimal in positional notation,
which is a numeral of the decimal (`Decimals.exists_ofChars?`). The decimal lies in the rounding
interval of the number, so it is rounded back to the number (`IsMagnitude.ofDecimal_eq`). With the
numbers that are shown as integers, every finite number is read back (`Value.ofInput_display`).
-/

namespace Spreadsheet

namespace Number

open Text

/-! ## Positional notation -/

/-- Digits with a point among them, perhaps after a minus sign, are a numeral without an
exponent. -/
theorem ofChars?_point (negative : Bool) {whole fraction : List Char} (hne : whole ≠ [])
    (hwhole : ∀ c ∈ whole, isDigit c = true) (hfraction : ∀ c ∈ fraction, isDigit c = true) :
    Numeral.ofChars? ((if negative then ['-'] else []) ++ (whole ++ '.' :: fraction)) =
      some ⟨negative, ofDigits (whole ++ fraction), -(fraction.length : Int)⟩ := by
  have hpoint : isDigit '.' = false := rfl
  obtain ⟨c, cs, rfl⟩ := List.exists_cons_of_ne_nil hne
  unfold Numeral.ofChars?
  rw [List.cons_append, takeSign_signed negative (hwhole c (.head _)), ← List.cons_append]
  dsimp only
  rw [List.takeWhile_append_of_pos hwhole, List.dropWhile_append_of_pos hwhole,
    List.takeWhile_cons_of_neg (by simp [hpoint]), List.dropWhile_cons_of_neg (by simp [hpoint]),
    List.append_nil]
  change (if (c :: cs ++ fraction.takeWhile isDigit).isEmpty = true then none
    else (exponent? (fraction.dropWhile isDigit)).bind fun exponent =>
      some (⟨negative, ofDigits (c :: cs ++ fraction.takeWhile isDigit),
        exponent - (fraction.takeWhile isDigit).length⟩ : Numeral)) = _
  rw [List.takeWhile_eq_self_iff.2 hfraction, List.dropWhile_eq_nil_iff.2 hfraction,
    ← Int.zero_sub]
  rfl

/-- A decimal in positional notation is digits, or digits with a point among them. -/
theorem Decimals.positional_cases (d : Decimals) :
    (∃ ds, d.positional = ds ∧ ds ≠ [] ∧ (∀ c ∈ ds, isDigit c = true) ∧
        (ofDigits ds : ℚ) = d.toRat) ∨
      ∃ whole fraction, d.positional = whole ++ '.' :: fraction ∧ whole ≠ [] ∧ fraction ≠ [] ∧
        (∀ c ∈ whole, isDigit c = true) ∧ (∀ c ∈ fraction, isDigit c = true) ∧
        (ofDigits (whole ++ fraction) : ℚ) * 10 ^ (-(fraction.length : Int)) = d.toRat := by
  obtain ⟨coefficient, exponent⟩ := d
  have hdigits := List.all_eq_true.1 (all_isDigit_digits coefficient)
  have hne := digits_ne_nil coefficient
  cases exponent with
  | ofNat e =>
    refine .inl ⟨digits coefficient ++ List.replicate e '0', rfl,
      List.append_ne_nil_of_left_ne_nil hne _,
      List.forall_mem_append.2 ⟨hdigits, fun _ => isDigit_of_mem_zeros⟩, ?_⟩
    rw [ofDigits_append, ofDigits_digits, ofDigits_zeros, List.length_replicate]
    simp [toRat]
  | negSucc e =>
    by_cases hplaces : e + 1 < (digits coefficient).length
    · refine .inr ⟨(digits coefficient).take ((digits coefficient).length - (e + 1)),
        (digits coefficient).drop ((digits coefficient).length - (e + 1)), if_pos hplaces, ?_, ?_,
        fun _ hc => hdigits _ (List.mem_of_mem_take hc),
        fun _ hc => hdigits _ (List.mem_of_mem_drop hc), ?_⟩
      · rw [← List.length_pos_iff, List.length_take]
        omega
      · rw [← List.length_pos_iff, List.length_drop]
        omega
      · have hlength : (digits coefficient).length - ((digits coefficient).length - (e + 1)) =
            e + 1 := by
          omega
        rw [List.take_append_drop, ofDigits_digits, List.length_drop, hlength]
        rfl
    · refine .inr ⟨['0'], List.replicate (e + 1 - (digits coefficient).length) '0' ++
        digits coefficient, if_neg hplaces, List.cons_ne_nil _ _,
        List.append_ne_nil_of_right_ne_nil _ hne, by simp [isDigit],
        List.forall_mem_append.2 ⟨fun _ => isDigit_of_mem_zeros, hdigits⟩, ?_⟩
      have hzeros : ofDigits (['0'] ++ List.replicate (e + 1 - (digits coefficient).length) '0') =
          0 := ofDigits_zeros (e + 1 - (digits coefficient).length + 1)
      have hlength : e + 1 - (digits coefficient).length + (digits coefficient).length = e + 1 := by
        omega
      rw [← List.append_assoc, ofDigits_append, hzeros, Nat.zero_mul, Nat.zero_add,
        ofDigits_digits, List.length_append, List.length_replicate, hlength]
      rfl

/-- **A decimal in positional notation is a numeral of it**, perhaps after a minus sign. -/
theorem Decimals.exists_ofChars? (negative : Bool) (d : Decimals) :
    ∃ m, Numeral.ofChars? ((if negative then ['-'] else []) ++ d.positional) = some m ∧
      m.negative = negative ∧ (m.coefficient : ℚ) * 10 ^ m.exponent = d.toRat := by
  rcases d.positional_cases with ⟨ds, hchars, hne, hall, hvalue⟩ |
    ⟨whole, fraction, hchars, hne, -, hwhole, hfraction, hvalue⟩
  · refine ⟨⟨negative, ofDigits ds, 0⟩, ?_, rfl, ?_⟩
    · rw [hchars, ofChars?_of_isDigit negative hne hall]
    · rw [zpow_zero, mul_one, hvalue]
  · refine ⟨⟨negative, ofDigits (whole ++ fraction), -(fraction.length : Int)⟩, ?_, rfl, hvalue⟩
    rw [hchars, ofChars?_point negative hne hwhole hfraction]

/-- There are no blanks around a decimal in positional notation, perhaps after a minus sign. -/
theorem Decimals.trimChars_positional (negative : Bool) (d : Decimals) :
    trimChars ((if negative then ['-'] else []) ++ d.positional) =
      (if negative then ['-'] else []) ++ d.positional := by
  have hpositional : ∀ c ∈ d.positional, isDigit c = true ∨ c = '.' := by
    rcases d.positional_cases with ⟨ds, hchars, -, hall, -⟩ |
      ⟨whole, fraction, hchars, -, -, hwhole, hfraction, -⟩
    · rw [hchars]
      exact fun c hc => .inl (hall c hc)
    · rw [hchars]
      exact List.forall_mem_append.2 ⟨fun c hc => .inl (hwhole c hc),
        List.forall_mem_cons.2 ⟨.inr rfl, fun c hc => .inl (hfraction c hc)⟩⟩
  refine trimChars_of_forall fun c hc => ?_
  rcases List.mem_append.1 hc with h | h
  · cases negative with
    | false => cases h
    | true => rw [List.mem_singleton.1 h]; rfl
  · rcases hpositional c h with h | rfl
    · exact not_isBlank_of_isDigit h
    · rfl

/-! ## Decimals rounded -/

/-- A decimal that is neither too large nor too small is rounded as a ratio. -/
theorem exists_ofDecimal {coefficient : Nat} {exponent : Int} (hne : coefficient ≠ 0)
    (hlow : (10 : ℚ) ^ (-330 : Int) ≤ coefficient * 10 ^ exponent)
    (hhigh : (coefficient : ℚ) * 10 ^ exponent < 10 ^ (310 : Int)) :
    ∃ num den : Nat, den ≠ 0 ∧ (num : ℚ) / den = coefficient * 10 ^ exponent ∧
      ofDecimal coefficient exponent = nearest num den := by
  have hpow : (0 : ℚ) < 10 ^ exponent := by positivity
  have hnotSmall : ¬((digitCount coefficient : Int) + exponent < -330) := by
    intro hsmall
    have hlt : (coefficient : ℚ) < 10 ^ (digitCount coefficient : Int) := by
      exact_mod_cast lt_pow_digitCount coefficient
    have hless := mul_lt_mul_of_pos_right hlt hpow
    rw [← zpow_add₀ (by norm_num)] at hless
    have hle : (10 : ℚ) ^ ((digitCount coefficient : Int) + exponent) ≤ 10 ^ (-330 : Int) :=
      zpow_le_zpow_right₀ (by norm_num) hsmall.le
    linarith
  have hnotLarge : ¬(310 < (digitCount coefficient : Int) + exponent) := by
    intro hlarge
    have hle : (10 : ℚ) ^ ((digitCount coefficient - 1 : Nat) : Int) ≤ coefficient := by
      exact_mod_cast pow_digitCount_le hne
    have hmore := mul_le_mul_of_nonneg_right hle hpow.le
    rw [← zpow_add₀ (by norm_num)] at hmore
    have hpos := digitCount_pos coefficient
    have hge : (10 : ℚ) ^ (310 : Int) ≤
        10 ^ (((digitCount coefficient - 1 : Nat) : Int) + exponent) :=
      zpow_le_zpow_right₀ (by norm_num) (by omega)
    linarith
  unfold ofDecimal
  dsimp only
  rw [if_neg (by simp [hne, hnotSmall]), if_neg hnotLarge]
  cases exponent with
  | ofNat e => exact ⟨coefficient * 10 ^ e, 1, one_ne_zero, by simp, rfl⟩
  | negSucc e =>
    exact ⟨coefficient, 10 ^ (e + 1), (Nat.pow_pos (by decide)).ne',
      by simp [zpow_negSucc, div_eq_mul_inv], rfl⟩

/-- Half the least number is large enough. -/
theorem zpow_neg_le_two_zpow : (10 : ℚ) ^ (-330 : Int) ≤ 2 ^ (-1075 : Int) := by
  have hle : 2 ^ 1075 ≤ 10 ^ 330 := by decide +kernel
  have hle' : (2 : ℚ) ^ 1075 ≤ 10 ^ 330 := by exact_mod_cast hle
  exact inv_anti₀ (by positivity) hle'

/-- The first number that would need more bits than there are is small enough. -/
theorem two_zpow_lt_zpow : (2 : ℚ) ^ (1024 : Int) < 10 ^ (310 : Int) := by
  have hlt : 2 ^ 1024 < 10 ^ 310 := by decide +kernel
  exact_mod_cast hlt

section
variable {s coefficient : Nat} {e exponent : Int}

/-- **A decimal in the interval of a magnitude is rounded to it.** -/
theorem IsMagnitude.ofDecimal_eq (h : IsMagnitude s e)
    (hz : (Interval.ofParts s e).Has (4 * (coefficient * 10 ^ exponent / 2 ^ e))) :
    ofDecimal coefficient exponent = Float.ofBits (magnitudeBits s e).toUInt64 := by
  obtain ⟨hbelow, habove, -⟩ := hz.bounds h.ne_zero
  have hpos := hz.pos h.ne_zero
  have hne : coefficient ≠ 0 := by
    rintro rfl
    rw [Nat.cast_zero, zero_mul, zero_div] at hpos
    exact lt_irrefl _ hpos
  have hunit : (0 : ℚ) < 2 ^ e := by positivity
  have hs : (1 : ℚ) ≤ s := by exact_mod_cast Nat.one_le_iff_ne_zero.2 h.ne_zero
  have hs' : (s : ℚ) + 1 ≤ 2 ^ 53 := by exact_mod_cast h.significand_lt
  have hhalf := Interval.below_le s e
  have hlow : (10 : ℚ) ^ (-330 : Int) ≤ coefficient * 10 ^ exponent :=
    calc (10 : ℚ) ^ (-330 : Int)
      _ ≤ 2 ^ (-1075 : Int) := zpow_neg_le_two_zpow
      _ ≤ 2 ^ (-1 + e) := zpow_le_zpow_right₀ one_le_two (by have := h.exponent_ge; omega)
      _ = 2 ^ (-1 : Int) * 2 ^ e := zpow_add₀ two_ne_zero _ _
      _ ≤ coefficient * 10 ^ exponent := by
        rw [← le_div_iff₀ hunit, zpow_neg_one]
        linarith
  have hhigh : (coefficient : ℚ) * 10 ^ exponent < 10 ^ (310 : Int) :=
    calc (coefficient : ℚ) * 10 ^ exponent
      _ ≤ 2 ^ (53 : Int) * 2 ^ e := by
        rw [← div_le_iff₀ hunit, zpow_ofNat]
        linarith
      _ = 2 ^ (53 + e) := (zpow_add₀ two_ne_zero _ _).symm
      _ ≤ 2 ^ (1024 : Int) :=
        zpow_le_zpow_right₀ one_le_two (by have := h.exponent_le; omega)
      _ < 10 ^ (310 : Int) := two_zpow_lt_zpow
  obtain ⟨num, den, hden, hratio, hround⟩ := exists_ofDecimal hne hlow hhigh
  rw [hround]
  rw [← hratio] at hz
  exact h.nearest_eq hden hz

end

/-! ## Numbers shown in positional notation -/

/-- A finite number that is not shown as an integer reads back as itself. -/
theorem ofText?_display_of_not_showsInteger {x : Float} (hfinite : isFinite x = true)
    (h : showsInteger x = false) : ofText? (display x) = some x := by
  obtain ⟨p, hp⟩ := Option.isSome_iff_exists.1 hfinite
  rw [showsInteger, hp, Option.any_some] at h
  have hne : p.significand ≠ 0 := by
    intro hzero
    obtain ⟨hwhole, hsize⟩ := Parts.whole_of_zero hzero
    rw [hwhole, hsize] at h
    cases h
  have hchars : displayChars x =
      (if p.negative then ['-'] else []) ++ (shortest p.significand p.exponent).positional := by
    rw [displayChars, hp]
    dsimp only
    rw [if_neg (by rw [h]; exact Bool.false_ne_true)]
  obtain ⟨hmagnitude, hsigned⟩ := isMagnitude_of_parts? hp hne
  obtain ⟨m, hm, hnegative, hvalue⟩ :=
    Decimals.exists_ofChars? p.negative (shortest p.significand p.exponent)
  have hhas := hmagnitude.shortest_has
  rw [← hvalue] at hhas
  rw [ofText?, display, String.toList_ofList, hchars, Decimals.trimChars_positional, ofNumeral?, hm,
    Option.map_some, Numeral.value, hnegative, hmagnitude.ofDecimal_eq hhas, hsigned,
    Option.filter_some, if_pos hfinite]

/-- **A finite number that is displayed reads back as itself**, but for the zero with a sign, which
is shown without it. -/
theorem exists_ofText?_display {x : Float} (h : isFinite x = true) :
    ∃ y, ofText? (display x) = some y ∧ (y = x ∨ y = 0 ∧ x = -0) := by
  cases hshown : showsInteger x with
  | false => exact ⟨x, ofText?_display_of_not_showsInteger h hshown, .inl rfl⟩
  | true => exact exists_ofText?_display_of_showsInteger hshown

end Number

/-! ## Values -/

/-- **Displayed numbers read back.** What a cell shows for a finite number stands for a number that
is equal to it, as input to a cell and as the number of a text. -/
theorem Value.ofInput_display {n : Float} (h : Number.isFinite n = true) :
    ∃ m, Value.ofInput (Number.display n) = .number m ∧
      (Value.text (Number.display n)).number? = some m ∧
      Number.isFinite m = true ∧ Number.toRat m = Number.toRat n := by
  obtain ⟨m, hread, hsame⟩ := Number.exists_ofText?_display h
  refine ⟨m, (ofInput_of_ofText? hread).2, hread, Number.isFinite_of_ofText? hread, ?_⟩
  rcases hsame with rfl | ⟨rfl, rfl⟩
  · rfl
  · exact Number.toRat_neg_zero.symm

/-- The decimal `-0.1` is no number, but the number nearest to it is shown so and read back. -/
theorem Value.ofInput_display_tenth :
    Number.isFinite (-0.1) = true ∧ Number.display (-0.1) = "-0.1" ∧
      ∃ m, Value.ofInput (Number.display (-0.1)) = .number m ∧
        (Value.text (Number.display (-0.1))).number? = some m ∧
        Number.isFinite m = true ∧ Number.toRat m = Number.toRat (-0.1) := by
  have hfinite : Number.isFinite (-0.1) = true := by decide +kernel
  exact ⟨hfinite, by decide +kernel, Value.ofInput_display hfinite⟩

end Spreadsheet
