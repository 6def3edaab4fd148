import Spreadsheet.Function.Catalogue
import Spreadsheet.Proofs.Function.Grouping
import Spreadsheet.Proofs.Number.Arithmetic
import Spreadsheet.Proofs.Number.ReadBack

/-!
# Numbers in a format

What `TEXT` makes of a finite number is a numeral (`IsNumeral`): digits, perhaps grouped by commas,
with a point and digits behind it or not, and perhaps a percent sign. It has a minus sign only if
the number is below zero and not written as zero (`text_numeral`). In percent, this holds of numbers
whose hundredfold is finite, and not rounded to zero if they have a minus sign.
-/

namespace Spreadsheet.Function

open Text Number

/-! ## Numerals -/

/-- A run of digits, at least one, perhaps grouped by commas. -/
inductive DigitRun : List Char → Prop where
  | last {d : Char} (h : isDigit d = true) : DigitRun [d]
  | digit {d : Char} {ds : List Char} (h : isDigit d = true) (hds : DigitRun ds) :
    DigitRun (d :: ds)
  | comma {d : Char} {ds : List Char} (h : isDigit d = true) (hds : DigitRun ds) :
    DigitRun (d :: ',' :: ds)

/-- Whether a text is a numeral: perhaps a minus sign, a run of digits, perhaps a point and at least
one digit, and perhaps a percent sign. -/
def IsNumeral (cs : List Char) : Prop :=
  ∃ (negative percent : Bool) (whole fraction : List Char),
    cs = (if negative then ['-'] else []) ++ (whole ++ ((if fraction.isEmpty then [] else
      '.' :: fraction) ++ if percent then ['%'] else [])) ∧
    DigitRun whole ∧ ∀ d ∈ fraction, isDigit d = true

/-- Whether a text is a numeral for a number: it has a minus sign only if the number is below zero
and a digit of the text is not zero. -/
structure IsNumeralOf (x : Float) (cs : List Char) : Prop where
  numeral : IsNumeral cs
  negative : cs.head? = some '-' → toRat x < 0 ∧ hasNonzeroDigit cs = true

section
variable {x : Float} {p : Parts} {ds whole fraction : List Char}

/-- Digits alone are a run of digits. -/
theorem digitRun_of_isDigit (hne : ds ≠ []) (h : ∀ d ∈ ds, isDigit d = true) : DigitRun ds := by
  induction ds with
  | nil => exact absurd rfl hne
  | cons d ds ih =>
    obtain ⟨hd, hds⟩ := List.forall_mem_cons.1 h
    cases ds with
    | nil => exact .last hd
    | cons d' ds => exact .digit hd (ih (List.cons_ne_nil _ _) hds)

/-- Digits with commas are a run of digits. -/
theorem digitRun_spaced (hne : ds ≠ []) (h : ∀ d ∈ ds, isDigit d = true) :
    DigitRun (spaced 0 ds) := by
  induction ds with
  | nil => exact absurd rfl hne
  | cons d ds ih =>
    obtain ⟨hd, hds⟩ := List.forall_mem_cons.1 h
    rw [spaced]
    by_cases hlast : ds = []
    · rw [hlast]
      exact .last hd
    · split
      · exact .comma hd (ih hlast hds)
      · exact .digit hd (ih hlast hds)

/-- A run of digits begins with no sign. -/
theorem DigitRun.head?_ne (h : DigitRun ds) (tail : List Char) : (ds ++ tail).head? ≠ some '-' := by
  have hne : ∀ d, isDigit d = true → d ≠ '-' := by
    rintro d hd rfl
    cases hd
  cases h with
  | last h => simpa using hne _ h
  | digit h => simpa using hne _ h
  | comma h => simpa using hne _ h

/-- Commas make no difference to whether there is a digit other than zero. -/
theorem hasNonzeroDigit_spaced (ds : List Char) :
    hasNonzeroDigit (spaced 0 ds) = hasNonzeroDigit ds := by
  induction ds with
  | nil => rfl
  | cons d ds ih =>
    have hcons : ∀ cs, hasNonzeroDigit (d :: cs) = (hasNonzeroDigit [d] || hasNonzeroDigit cs) :=
      fun cs => hasNonzeroDigit_append [d] cs
    rw [spaced, hcons ds, ← ih]
    split
    · exact hcons (',' :: spaced 0 ds)
    · exact hcons (spaced 0 ds)

/-- A sign in front of a run of digits, a fraction and perhaps a percent sign make a numeral, which
is one of the number if the sign is. -/
theorem isNumeralOf_append (negative percent : Bool) (fraction : List Char)
    (hwhole : DigitRun whole) (hfraction : ∀ d ∈ fraction, isDigit d = true)
    (hnegative : negative = true → toRat x < 0 ∧ hasNonzeroDigit (whole ++ fraction) = true) :
    IsNumeralOf x ((if negative then ['-'] else []) ++ (whole ++ ((if fraction.isEmpty then [] else
      '.' :: fraction) ++ if percent then ['%'] else []))) := by
  refine ⟨⟨negative, percent, whole, fraction, rfl, hwhole, hfraction⟩, fun hhead => ?_⟩
  cases negative with
  | false => exact absurd hhead (hwhole.head?_ne _)
  | true =>
    obtain ⟨hlt, hnonzero⟩ := hnegative rfl
    refine ⟨hlt, ?_⟩
    have hpoint : hasNonzeroDigit (if fraction.isEmpty then [] else '.' :: fraction) =
        hasNonzeroDigit fraction := by
      cases fraction <;> rfl
    rw [hasNonzeroDigit_append] at hnonzero
    rw [hasNonzeroDigit_append, hasNonzeroDigit_append, hasNonzeroDigit_append, hpoint,
      ← Bool.or_assoc _ (hasNonzeroDigit fraction), hnonzero, Bool.true_or, Bool.or_true]

/-! ## The three renderings -/

/-- A number with grouped digits is a numeral of it. -/
theorem isNumeralOf_inLakhs (hp : parts? x = some p) : IsNumeralOf x (inLakhs x) := by
  have hwhole : ∀ d ∈ (p.fixedDigits 3).1, isDigit d = true := fun _ => Parts.isDigit_whole
  have hnumeral := isNumeralOf_append (x := x)
    (p.negative && hasNonzeroDigit ((p.fixedDigits 3).1 ++ (p.fixedDigits 3).2)) false
    (dropEndWhile (· == '0') (p.fixedDigits 3).2)
    (digitRun_spaced (p.whole_digits_ne_nil 3) hwhole)
    (fun d hd => Parts.isDigit_fraction (mem_of_mem_dropEndWhile hd)) ?_
  · rw [inLakhs_eq hp]
    simpa [pointed] using hnumeral
  · intro hsign
    obtain ⟨hnegative, hnonzero⟩ := Bool.and_eq_true_iff.1 hsign
    refine ⟨(toRat_neg_of_hasNonzeroDigit hp (by decide) hnonzero).2 hnegative, ?_⟩
    rwa [hasNonzeroDigit_append, hasNonzeroDigit_spaced, hasNonzeroDigit_dropZeros,
      ← hasNonzeroDigit_append]

/-- Whether the sign of a number survives the writing in percent: its hundredfold is finite, and is
not rounded to zero if the number has a minus sign. -/
def HasPercent (x : Float) : Prop :=
  isFinite (x * 100) = true ∧ (x = 0 ∨ 0 < toRat x ∨ toRat (x * 100) < -1 / 200)

/-- A number is written in percent to a numeral of it, if its percentage is neither too large nor a
zero with a sign. -/
theorem isNumeralOf_inPercent (hp : parts? x = some p) (h : HasPercent x) :
    IsNumeralOf x (inPercent x) := by
  obtain ⟨hfinite, hsign⟩ := h
  obtain ⟨r, hr⟩ := Option.isSome_iff_exists.1 hfinite
  obtain ⟨q, hq, hpositive⟩ : ∃ q, parts? 100 = some q ∧ q.negative = false :=
    ⟨_, rfl, rfl⟩
  have hsame : r.negative = p.negative := by
    rw [negative_mul hp hq hr, hpositive, Bool.xor_false]
  rw [inPercent, fixed_eq hr, List.append_assoc, List.append_assoc]
  have hfraction : (r.fixedDigits 2).2.isEmpty = false := by
    rw [← Bool.not_eq_true, List.isEmpty_iff, ← List.length_eq_zero_iff,
      r.length_fraction (by decide)]
    decide
  have hnumeral := isNumeralOf_append (x := x) r.negative true (r.fixedDigits 2).2
    (digitRun_of_isDigit (r.whole_digits_ne_nil 2) fun _ => Parts.isDigit_whole)
    (fun _ => Parts.isDigit_fraction) ?_
  · rw [hfraction] at hnumeral
    exact hnumeral
  · intro hnegative
    rw [hsame] at hnegative
    have hne : p.significand ≠ 0 := by
      intro hzero
      rcases eq_zero_of_significand hp hzero with rfl | rfl
      · cases hp
        cases hnegative
      · have hproduct : (-0 : Float) * 100 = -0 := Float.toBits_inj.1 (by decide +kernel)
        rw [hproduct, toRat_of_significand hp hzero] at hsign
        rcases hsign with hplus | hpos | hlarge
        · exact absurd (congrArg Float.toBits hplus) (by decide)
        · exact lt_irrefl _ hpos
        · norm_num at hlarge
    have hlt : toRat x < 0 := (toRat_neg_iff hp).2 ⟨hnegative, hne⟩
    refine ⟨hlt, (r.hasNonzeroDigit_fixedDigits (by decide)).2 (r.inPlaces_ne_zero ?_)⟩
    rcases hsign with rfl | hpos | hlarge
    · cases hp
      cases hnegative
    · exact absurd hpos hlt.not_gt
    · rw [toRat, hr, Option.map_some, Option.getD_some, Parts.toRat_eq_size, hsame, hnegative,
        if_pos rfl] at hlarge
      linarith

/-- A number without a fraction, written in all its digits. -/
theorem isNumeralOf_whole (hp : parts? x = some p) :
    IsNumeralOf x ((if p.negative && p.whole != 0 then ['-'] else []) ++ digits p.whole) := by
  have hdigits := List.all_eq_true.1 (all_isDigit_digits p.whole)
  have hnumeral := isNumeralOf_append (x := x) (p.negative && p.whole != 0) false []
    (digitRun_of_isDigit (digits_ne_nil p.whole) hdigits) (by simp) ?_
  · simpa using hnumeral
  · intro hsign
    obtain ⟨hnegative, hwhole⟩ := Bool.and_eq_true_iff.1 hsign
    rw [bne_iff_ne] at hwhole
    refine ⟨(toRat_neg_iff hp).2
      ⟨hnegative, fun hzero => hwhole (Parts.whole_of_zero hzero).2⟩, ?_⟩
    rw [List.append_nil, ← Bool.not_eq_false, ← ofDigits_eq_zero_iff hdigits, ofDigits_digits]
    exact hwhole

/-- A number in its shortest digits, none of which need be behind the point. -/
theorem isNumeralOf_shortest (hp : parts? x = some p) (hne : p.significand ≠ 0) :
    IsNumeralOf x ((if p.negative then ['-'] else []) ++
      (shortest p.significand p.exponent).positional) := by
  have hpos : 0 < (shortest p.significand p.exponent).toRat := by
    have hhas := (isMagnitude_of_parts? hp hne).1.shortest_has.pos hne
    exact (div_pos_iff_of_pos_right (by positivity)).1 hhas
  have hnonzero : ∀ ds, (∀ d ∈ ds, isDigit d = true) → ofDigits ds ≠ 0 →
      p.negative = true → toRat x < 0 ∧ hasNonzeroDigit ds = true := by
    intro ds hds hvalue hnegative
    refine ⟨(toRat_neg_iff hp).2 ⟨hnegative, hne⟩, ?_⟩
    rwa [← Bool.not_eq_false, ← ofDigits_eq_zero_iff hds]
  rcases (shortest p.significand p.exponent).positional_cases with
    ⟨ds, hchars, hds, hall, hvalue⟩ |
      ⟨whole, fraction, hchars, hwhole, hfraction, hall, hall', hvalue⟩
  · have hsize : ofDigits ds ≠ 0 := by
      rintro hzero
      rw [hzero, Nat.cast_zero] at hvalue
      exact hpos.ne hvalue
    have hnumeral := isNumeralOf_append (x := x) p.negative false []
      (digitRun_of_isDigit hds hall) (by simp) (by simpa using hnonzero ds hall hsize)
    rw [hchars]
    simpa using hnumeral
  · have hsize : ofDigits (whole ++ fraction) ≠ 0 := by
      rintro hzero
      rw [hzero, Nat.cast_zero, zero_mul] at hvalue
      exact hpos.ne hvalue
    have hnumeral := isNumeralOf_append (x := x) p.negative false fraction
      (digitRun_of_isDigit hwhole hall) hall'
      (hnonzero _ (List.forall_mem_append.2 ⟨hall, hall'⟩) hsize)
    rw [hchars]
    simpa [hfraction] using hnumeral

/-- What a cell shows for a number. -/
theorem isNumeralOf_displayChars (hp : parts? x = some p) : IsNumeralOf x (displayChars x) := by
  rw [displayChars, hp]
  dsimp only
  split
  · exact isNumeralOf_whole hp
  · next hshown =>
    refine isNumeralOf_shortest hp fun hzero => hshown ?_
    obtain ⟨hwhole, hsize⟩ := Parts.whole_of_zero hzero
    rw [hwhole, hsize]
    rfl

end

/-! ## The function `TEXT` -/

/-- **Numbers are written as numerals.** Whatever the format, the text of a finite number is a
numeral, and it has a minus sign only if the number is below zero and a digit of the text is not
zero. In percent this needs a hundredfold that is finite, and that is not rounded to zero if the
number has a minus sign. -/
theorem text_numeral (s : Surroundings) (args : List Value)
    (hfinite : isFinite (numberArg args 0 0) = true)
    (hpercent : occursIn "#,##".toList (charsArg args 1) = false →
      occursIn ['%'] (charsArg args 1) = true → HasPercent (numberArg args 0 0)) :
    ∃ cs, (find? "TEXT").map (·.result s args) = some (.text (String.ofList cs)) ∧
      IsNumeralOf (numberArg args 0 0) cs := by
  obtain ⟨p, hp⟩ := Option.isSome_iff_exists.1 hfinite
  refine ⟨formatted (numberArg args 0 0) (charsArg args 1), rfl, ?_⟩
  unfold formatted
  split
  · exact isNumeralOf_inLakhs hp
  · next hlakhs =>
    split
    · next hformat => exact isNumeralOf_inPercent hp (hpercent (Bool.eq_false_iff.2 hlakhs) hformat)
    · exact isNumeralOf_displayChars hp

/-- A part of a percent that is below zero, but not rounded to zero. -/
theorem text_numeral_tenth :
    isFinite (-0.00125) = true ∧ HasPercent (-0.00125) ∧
      (find? "TEXT").map (·.result ⟨0, 0⟩ [.number (-0.00125), .text "0%"]) =
        some (.text "-0.12%") ∧
      ∃ cs, (find? "TEXT").map (·.result ⟨0, 0⟩ [.number (-0.00125), .text "0%"]) =
        some (.text (String.ofList cs)) ∧ IsNumeralOf (-0.00125) cs := by
  have hfinite : isFinite (-0.00125) = true := by decide +kernel
  have hpercent : HasPercent (-0.00125) :=
    ⟨by decide +kernel, .inr (.inr (by decide +kernel))⟩
  refine ⟨hfinite, hpercent, ?_, text_numeral ⟨0, 0⟩ [.number (-0.00125), .text "0%"] hfinite
    fun _ _ => hpercent⟩
  have htext : formatted (-0.00125) "0%".toList = "-0.12%".toList := by decide +kernel
  exact congrArg (fun cs => some (Value.text (String.ofList cs))) htext

/-- In percent, the sign is kept in front of zeros only. -/
theorem not_text_numeral_zeros :
    ¬ ∀ (s : Surroundings) (args : List Value), isFinite (numberArg args 0 0) = true →
      ∃ cs, (find? "TEXT").map (·.result s args) = some (.text (String.ofList cs)) ∧
        IsNumeralOf (numberArg args 0 0) cs := by
  intro h
  obtain ⟨cs, hresult, hnumeral⟩ := h ⟨0, 0⟩ [.number (-0.00001), .text "0%"] (by decide +kernel)
  have htext : formatted (-0.00001) "0%".toList = "-0.00%".toList := by decide +kernel
  have hchars : cs = "-0.00%".toList := by
    have hsame : Value.text (String.ofList (formatted (-0.00001) "0%".toList)) =
        .text (String.ofList cs) := Option.some.inj hresult
    rw [htext] at hsame
    exact (String.ofList_inj.1 (Value.text.inj hsame)).symm
  have hnonzero := (hnumeral.negative (by rw [hchars]; rfl)).2
  rw [hchars] at hnonzero
  exact absurd hnonzero (by decide)

end Spreadsheet.Function
