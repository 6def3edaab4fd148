import Spreadsheet.Proofs.Number.Grid
import Spreadsheet.Proofs.Number.Nearest
import Spreadsheet.Proofs.Number.Unpacked

/-!
# Decimals rounded

The decimal of a number is within the limits, and has no zero at its end (`IsReduced`). Rounding it
to digits after the point is exact (`roundedAfter_finds`). For digits before the point it is
divided, and the quotient is cut to the places that decimals have; this changes the result where the
quotient is not told from zero any more (`Rounding.Survives`), and nowhere else
(`IsReduced.rounded_finds`).
-/

namespace Spreadsheet.Number.Decimal

/-- The rational number that a decimal is. -/
def toRat (d : Decimal) : ℚ :=
  d.coefficient / 10 ^ d.scale

/-! ## Decimals of numbers -/

/-- What is true of the decimal of a number: its coefficient is within the limits, and it does not
end in a zero behind the point. -/
structure IsReduced (d : Decimal) : Prop where
  size_lt : d.coefficient.natAbs < sizeLimit
  precise : d.scale ≠ 0 → d.coefficient.natAbs < precisionLimit
  lastDigit : d.scale ≠ 0 → d.coefficient.natAbs % 10 ≠ 0

/-- Taking halves away keeps a coefficient within the size. -/
theorem absorbHalves_lt {m : Nat} (steps scale : Nat) (h : m < sizeLimit) :
    (absorbHalves steps m scale).1 < sizeLimit := by
  induction steps generalizing m scale with
  | zero => exact h
  | succ steps ih =>
    rw [absorbHalves]
    split
    · next hgrows => exact ih scale hgrows.2
    · exact ih (scale - 1) (by omega)

/-- Fewer places make no coefficient greater. -/
theorem limitScale_le (excess m : Nat) : limitScale excess m ≤ m := by
  induction excess generalizing m with
  | zero => exact le_rfl
  | succ excess ih =>
    rw [limitScale]
    split
    · exact Nat.zero_le m
    · refine (ih _).trans ?_
      split <;> omega

/-- Behind the point a coefficient is cut to the digits that a number has for certain. -/
theorem limitPrecision_spec (m scale : Nat) :
    (limitPrecision m scale).1 ≤ m ∧
      ((limitPrecision m scale).2 ≠ 0 → (limitPrecision m scale).1 < precisionLimit) := by
  induction scale generalizing m with
  | zero => exact ⟨le_rfl, fun h => absurd rfl h⟩
  | succ scale ih =>
    rw [limitPrecision]
    split
    · next hless => exact ⟨le_rfl, fun _ => hless⟩
    · next hlarge =>
      have hlimit : 10 ≤ precisionLimit := by decide
      refine ⟨(ih _).1.trans ?_, (ih _).2⟩
      split <;> omega

/-- Zeros are dropped at the end until there are none behind the point. -/
theorem dropZeros_spec (m scale : Nat) :
    (dropZeros m scale).1 ≤ m ∧ (dropZeros m scale).2 ≤ scale ∧
      ((dropZeros m scale).2 ≠ 0 → (dropZeros m scale).1 % 10 ≠ 0) := by
  induction scale generalizing m with
  | zero => exact ⟨le_rfl, le_rfl, fun h => absurd rfl h⟩
  | succ scale ih =>
    rw [dropZeros]
    split
    · obtain ⟨hm, hscale, hlast⟩ := ih (m / 10)
      exact ⟨by omega, by omega, hlast⟩
    · next hlast => exact ⟨le_rfl, le_rfl, fun _ => hlast⟩

/-- What is scaled is within the limits and does not end in a zero. -/
theorem isReduced_of_ofScaled? {significand m scale : Nat} {exponent : Int}
    (hsignificand : significand < sizeLimit)
    (h : ofScaled? significand exponent = some (m, scale)) :
    m < sizeLimit ∧ (scale ≠ 0 → m < precisionLimit) ∧ (scale ≠ 0 → m % 10 ≠ 0) := by
  cases exponent with
  | ofNat e =>
    rw [ofScaled?] at h
    dsimp only at h
    split at h
    · next hless =>
      cases h
      exact ⟨hless, fun h => absurd rfl h, fun h => absurd rfl h⟩
    · cases h
  | negSucc e =>
    rw [ofScaled?] at h
    dsimp only at h
    have hhalves := absorbHalves_lt (e + 1) (e + 1) hsignificand
    generalize absorbHalves (e + 1) significand (e + 1) = absorbed at h hhalves
    have hscale := limitScale_le (absorbed.2 - maxScale) absorbed.1
    generalize limitScale (absorbed.2 - maxScale) absorbed.1 = limited at h hscale
    obtain ⟨hle, hprecise⟩ := limitPrecision_spec limited (min absorbed.2 maxScale)
    generalize limitPrecision limited (min absorbed.2 maxScale) = precise at h hle hprecise
    obtain ⟨hle', hscale', hlast⟩ := dropZeros_spec precise.1 precise.2
    rw [Option.some.inj h] at hle' hscale' hlast
    refine ⟨by omega, fun hne => ?_, hlast⟩
    have hless := hprecise (by omega)
    omega

/-- The decimal of a number is reduced. -/
theorem isReduced_of_ofFloat? {x : Float} {d : Decimal} (h : ofFloat? x = some d) :
    d.IsReduced := by
  obtain ⟨p, hp, h⟩ := Option.bind_eq_some_iff.1 h
  obtain ⟨⟨m, scale⟩, hscaled, h⟩ := Option.bind_eq_some_iff.1 h
  obtain ⟨biased, fraction, hbits⟩ := toBits_of_parts? hp
  have hsignificand : p.significand < sizeLimit := by
    have hlimit : 2 * 0x10000000000000 < sizeLimit := by decide
    have hfraction := hbits.fraction_lt
    by_cases hzero : biased = 0
    · have := (hbits.subnormal hzero).1
      omega
    · have := (hbits.normal hzero).1
      omega
  obtain ⟨hsize, hprecise, hlast⟩ := isReduced_of_ofScaled? hsignificand hscaled
  cases h
  have habs : (if p.negative then -(m : Int) else m).natAbs = m := by split <;> simp
  exact ⟨by rwa [habs], by rwa [habs], by rwa [habs]⟩

/-- The decimal of a number has its sign. -/
theorem sign_of_ofFloat? {x : Float} {d : Decimal} (h : ofFloat? x = some d) :
    if x < 0 then d.coefficient ≤ 0 else 0 ≤ d.coefficient := by
  obtain ⟨p, hp, hparts⟩ := Option.bind_eq_some_iff.1 h
  obtain ⟨⟨m, scale⟩, -, hd⟩ := Option.bind_eq_some_iff.1 hparts
  have hcoefficient : d.coefficient = if p.negative then -(m : Int) else m := by
    rw [← Option.some.inj hd]
  split
  · next hlt =>
    rw [hcoefficient, if_pos ((lt_zero_iff hp).1 hlt).1]
    omega
  · next hnot =>
    rw [lt_zero_iff hp, not_and_not_right] at hnot
    cases hnegative : p.negative with
    | false =>
      rw [hcoefficient, hnegative]
      exact Int.natCast_nonneg m
    | true =>
      -- a zero with a minus sign has the decimal of a zero
      have hplus : parts? 0 = some ⟨false, 0, -1074⟩ := by decide
      have hzero : Number.toRat x = Number.toRat 0 := by
        rw [toRat_of_significand hp (hnot hnegative), toRat_of_significand hplus rfl]
      have hdecimal : ofFloat? x = some ⟨0, 0⟩ := by
        rcases eq_or_zeros_of_toRat_eq (by rw [isFinite, hp]; rfl) isFinite_zero hzero with
          rfl | ⟨rfl, -⟩ | ⟨rfl, -⟩ <;> decide +kernel
      cases h.symm.trans hdecimal
      exact le_rfl

/-! ## Digits after the point -/

section
variable {r : Rounding} {d : Decimal} {digits power : Nat}

/-- Decimals with fewer digits lie on the grid. -/
theorem toRat_of_scale_le (h : d.scale ≤ digits) :
    d.toRat = ((d.coefficient * 10 ^ (digits - d.scale) : ℤ) : ℚ) * 10 ^ (-(digits : ℤ)) := by
  rw [toRat, zpow_neg, zpow_natCast, ← pow_sub_mul_pow _ h]
  push_cast
  field_simp

/-- What a decimal is rounded to for digits after the point. -/
def roundedAfter (r : Rounding) (digits : Nat) (d : Decimal) : Decimal :=
  if d.scale ≤ digits then d else ⟨r.toInt (d.toRat / 10 ^ (-(digits : ℤ))), digits⟩

/-- A decimal with more digits than asked for is rounded in the unit of the last one. -/
theorem roundedAfter_of_lt (h : digits < d.scale) :
    d.roundedAfter r digits = ⟨r.toInt (d.toRat / 10 ^ (-(digits : ℤ))), digits⟩ :=
  if_neg h.not_ge

/-- A strategy that serves rounds so. -/
theorem round_eq {s : Strategy} (h : s.Serves r d.coefficient) (digits : Nat) :
    d.round s digits = d.roundedAfter r digits := by
  unfold round roundedAfter
  split
  · rfl
  · next hlt =>
    have hratio : d.toRat / 10 ^ (-(digits : ℤ)) =
        d.coefficient / (Nat.pow 10 (d.scale - digits) : Nat) := by
      rw [toRat, zpow_neg, zpow_natCast, ← pow_sub_mul_pow (10 : ℚ) (not_le.1 hlt).le, Nat.pow_eq]
      push_cast
      field_simp
    have hne : Nat.pow 10 (d.scale - digits) ≠ 0 := (Nat.pow_pos (by decide)).ne'
    rw [Strategy.divide_eq h hne, hratio]

/-- **A decimal is rounded to the point of the grid that the rounding looks for.** -/
theorem roundedAfter_finds (r : Rounding) (digits : Nat) (d : Decimal) :
    r.Finds (10 ^ (-(digits : ℤ))) d.toRat (d.roundedAfter r digits).toRat := by
  have hunit : (0 : ℚ) < 10 ^ (-(digits : ℤ)) := by positivity
  rw [Rounding.finds_iff hunit]
  by_cases h : d.scale ≤ digits
  · have hsame : d.roundedAfter r digits = d := if_pos h
    have hgrid := toRat_of_scale_le h
    rw [hsame]
    generalize d.coefficient * 10 ^ (digits - d.scale) = n at hgrid
    rw [hgrid, mul_div_cancel_right₀ _ hunit.ne', r.toInt_intCast]
  · rw [roundedAfter_of_lt (not_le.1 h), toRat, zpow_neg, zpow_natCast, div_eq_mul_inv]

/-- What lies on the grid has no more digits than the grid, if it does not end in a zero. -/
theorem IsReduced.scale_le (hd : d.IsReduced) (h : OnGrid (10 ^ (-(digits : ℤ))) d.toRat) :
    d.scale ≤ digits := by
  by_contra hlt
  rw [not_le] at hlt
  obtain ⟨n, hn⟩ := h
  have hcoefficient : d.coefficient = n * 10 ^ (d.scale - digits) := by
    rw [toRat, zpow_neg, zpow_natCast, ← pow_sub_mul_pow (10 : ℚ) hlt.le,
      div_eq_iff (by positivity)] at hn
    have hcast : (d.coefficient : ℚ) = n * 10 ^ (d.scale - digits) := by
      rw [hn]
      field_simp
    exact_mod_cast hcast
  obtain ⟨k, hk⟩ := Nat.exists_eq_succ_of_ne_zero (Nat.sub_pos_of_lt hlt).ne'
  refine hd.lastDigit (by omega) ?_
  rw [hcoefficient, hk, pow_succ, ← mul_assoc, Int.natAbs_mul]
  exact Nat.mul_mod_left _ _

/-- A decimal on the grid stays as it is. -/
theorem IsReduced.roundedAfter_eq_self (hd : d.IsReduced)
    (h : OnGrid (10 ^ (-(digits : ℤ))) d.toRat) (r : Rounding) : d.roundedAfter r digits = d :=
  if_pos (hd.scale_le h)

/-! ## Digits before the point -/

/-- Whether a quotient by a power of ten is still told from zero when it is cut to the places that a
decimal has, as far as the rounding depends on it. -/
def Rounding.Survives (r : Rounding) (q : ℚ) : Prop :=
  match r with
  | .down => q < 0 → 1 / 2 < -q * 10 ^ maxScale
  | .up => 0 < q → 1 / 2 < q * 10 ^ maxScale
  | .nearest => True

/-- Dividing is exact as long as there are places for it. -/
theorem toRat_divideTens_of_le (h : d.scale + power ≤ maxScale) :
    (d.divideTens power).toRat = d.toRat / 10 ^ power := by
  rw [divideTens, if_pos h, toRat, toRat, pow_add, div_div]

/-- A quotient with more places is rounded to those that a decimal has. -/
theorem toRat_divideTens_of_lt (h : maxScale < d.scale + power) :
    ∃ size, IsRounded (|d.toRat / 10 ^ power| * 10 ^ maxScale) size ∧
      (d.divideTens power).toRat =
        (if d.toRat / 10 ^ power < 0 then -(size : ℚ) else size) / 10 ^ maxScale := by
  have hne : Nat.pow 10 (d.scale + power - maxScale) ≠ 0 := (Nat.pow_pos (by decide)).ne'
  refine ⟨divEven d.coefficient.natAbs (Nat.pow 10 (d.scale + power - maxScale)), ?_, ?_⟩
  · have hpow : (10 : ℚ) ^ d.scale * 10 ^ power =
        10 ^ (d.scale + power - maxScale) * 10 ^ maxScale := by
      rw [pow_sub_mul_pow _ h.le, pow_add]
    have hratio : |d.toRat / 10 ^ power| * 10 ^ maxScale =
        (d.coefficient.natAbs : ℚ) / (Nat.pow 10 (d.scale + power - maxScale) : Nat) := by
      have habs : ((d.coefficient.natAbs : ℕ) : ℚ) = |(d.coefficient : ℚ)| := by
        rw [Nat.cast_natAbs, Int.cast_abs]
      rw [toRat, div_div, abs_div, abs_of_pos (by positivity : (0 : ℚ) < 10 ^ d.scale * 10 ^ power),
        hpow, habs, Nat.pow_eq]
      push_cast
      field_simp
    rw [hratio]
    exact isRounded_divEven _ hne
  · have hsign : d.toRat / 10 ^ power < 0 ↔ d.coefficient < 0 := by
      rw [toRat, div_div, div_lt_iff₀ (by positivity), zero_mul]
      exact Int.cast_lt_zero
    rw [divideTens]
    dsimp only
    rw [if_neg (by omega), toRat]
    simp only [hsign]
    split <;> push_cast <;> rfl

/-- A small number cut to some places is rounded as before if it survives this, and else to
zero. -/
theorem Rounding.toInt_of_isRounded (r : Rounding) {q : ℚ} {size : Nat} (hsmall : |q| < 1 / 4)
    (h : IsRounded (|q| * 10 ^ maxScale) size) :
    (r.Survives q → r.toInt ((if q < 0 then -(size : ℚ) else size) / 10 ^ maxScale) = r.toInt q) ∧
      (r.toInt ((if q < 0 then -(size : ℚ) else size) / 10 ^ maxScale) = r.toInt q ∨
        r.toInt ((if q < 0 then -(size : ℚ) else size) / 10 ^ maxScale) = 0) := by
  have hpow : (0 : ℚ) < 10 ^ maxScale := by positivity
  have hsmall' : |q| < 1 / 2 := hsmall.trans (by norm_num)
  rcases Nat.eq_zero_or_pos size with rfl | hpos
  · -- what is cut to zero is half a unit of the last place at most
    have hcut : |q| * 10 ^ maxScale ≤ 1 / 2 := by simpa using h.high
    have hzero : (if q < 0 then -((0 : ℕ) : ℚ) else (0 : ℕ)) / 10 ^ maxScale = (0 : ℤ) := by simp
    rw [hzero, r.toInt_intCast]
    refine ⟨fun hsurvives => ?_, .inr rfl⟩
    rw [r.toInt_of_small hsmall']
    cases r with
    | down =>
      refine (if_neg fun hq => ?_).symm
      rw [abs_of_neg hq] at hcut
      exact (hsurvives hq).not_ge hcut
    | up =>
      refine (if_neg fun hq => ?_).symm
      rw [abs_of_pos hq] at hcut
      exact (hsurvives hq).not_ge hcut
    | nearest => rfl
  · -- anything else keeps its sign, and stays small
    have hsome : (0 : ℚ) < size / 10 ^ maxScale := div_pos (by exact_mod_cast hpos) hpow
    have hfew : (size : ℚ) / 10 ^ maxScale < 1 / 2 := by
      have hlow := h.low
      have hmul := mul_lt_mul_of_pos_right hsmall hpow
      have hlarge : (4 : ℚ) < 10 ^ maxScale := by norm_num [maxScale]
      rw [div_lt_iff₀ hpow]
      linarith
    have hne : q ≠ 0 := by
      rintro rfl
      rw [abs_zero, zero_mul] at h
      exact hpos.ne' (h.eq (isRounded_natCast 0))
    have hkept : r.toInt ((if q < 0 then -(size : ℚ) else size) / 10 ^ maxScale) = r.toInt q := by
      refine r.toInt_eq_of_sign hsmall' ?_ ?_
      · split
        · rwa [neg_div, abs_neg, abs_of_pos hsome]
        · rwa [abs_of_pos hsome]
      · split
        · next hq => rw [neg_div, sign_neg (neg_lt_zero.2 hsome), sign_neg hq]
        · next hq => rw [sign_pos hsome, sign_pos (lt_of_le_of_ne (not_lt.1 hq) hne.symm)]
    exact ⟨fun _ => hkept, .inl hkept⟩

/-- The quotient of a decimal of a number by a power of ten is rounded to an integer as if it were
exact if it survives, and else to zero. -/
theorem IsReduced.toInt_divideTens (hd : d.IsReduced) (hpower : power ≤ maxScale) (r : Rounding) :
    (r.Survives (d.toRat / 10 ^ power) →
        r.toInt (d.divideTens power).toRat = r.toInt (d.toRat / 10 ^ power)) ∧
      (r.toInt (d.divideTens power).toRat = r.toInt (d.toRat / 10 ^ power) ∨
        r.toInt (d.divideTens power).toRat = 0) := by
  by_cases h : d.scale + power ≤ maxScale
  · rw [toRat_divideTens_of_le h]
    exact ⟨fun _ => rfl, .inl rfl⟩
  · rw [not_le] at h
    obtain ⟨size, hround, hquotient⟩ := toRat_divideTens_of_lt h
    rw [hquotient]
    refine r.toInt_of_isRounded ?_ hround
    have hsize : (|d.coefficient| : ℚ) < 2 ^ 52 := by
      have hlt := hd.precise (by omega)
      rw [← Int.cast_abs, ← Nat.cast_natAbs]
      exact_mod_cast hlt
    have hpow : (10 : ℚ) ^ maxScale ≤ 10 ^ (d.scale + power) :=
      pow_le_pow_right₀ (by norm_num) h.le
    rw [toRat, div_div, ← pow_add, abs_div,
      abs_of_pos (by positivity : (0 : ℚ) < 10 ^ (d.scale + power)), div_lt_iff₀ (by positivity)]
    calc |(d.coefficient : ℚ)|
      _ < 2 ^ 52 := hsize
      _ ≤ 1 / 4 * 10 ^ maxScale := by norm_num [maxScale]
      _ ≤ _ := mul_le_mul_of_nonneg_left hpow (by norm_num)

/-- A quotient keeps the sign of the decimal, and is zero if the decimal is. -/
theorem exists_coefficient_divideTens (power : Nat) (d : Decimal) :
    ∃ size : Nat, (d.divideTens power).coefficient =
      (if d.coefficient < 0 then -(size : Int) else size) ∧ (d.coefficient = 0 → size = 0) := by
  by_cases h : d.scale + power ≤ maxScale
  · refine ⟨d.coefficient.natAbs, ?_, fun hzero => by rw [hzero]; rfl⟩
    rw [divideTens, if_pos h]
    dsimp only
    split <;> omega
  · refine ⟨divEven d.coefficient.natAbs (Nat.pow 10 (d.scale + power - maxScale)), ?_,
      fun hzero => ?_⟩
    · rw [divideTens, if_neg h]
    · have hpos : 0 < Nat.pow 10 (d.scale + power - maxScale) := Nat.pow_pos (by decide)
      rw [hzero, Int.natAbs_zero, divEven, Nat.zero_div, Nat.zero_mod, Nat.mul_zero, if_pos hpos]

/-- The strategy that serves a decimal serves its quotients. -/
theorem Strategy.Serves.divideTens {s : Strategy} (h : s.Serves r d.coefficient) (power : Nat) :
    s.Serves r (d.divideTens power).coefficient := by
  obtain ⟨size, hsize, hzero⟩ := exists_coefficient_divideTens power d
  rw [hsize]
  cases r with
  | down | up => exact h
  | nearest =>
    refine h.imp (And.imp_right fun hle => ?_) (And.imp_right fun hle => ?_)
    · split <;> omega
    · rw [if_neg (not_lt.2 hle)]
      exact Int.natCast_nonneg size

/-- A decimal of a number is rounded to a multiple of a power of ten, unless this is too large. -/
theorem IsReduced.roundTens?_eq (hd : d.IsReduced) {s : Strategy} (hs : s.Serves r d.coefficient)
    (hne : power ≠ 0) (hpower : power ≤ maxScale)
    (hlimit : ∀ t, r.Finds (10 ^ power) d.toRat t → |t| < sizeLimit) :
    d.roundTens? s power = some ⟨r.toInt (d.divideTens power).toRat * 10 ^ power, 0⟩ := by
  have hscale : 0 < (d.divideTens power).scale := by
    unfold divideTens
    dsimp only
    split
    · exact Nat.add_pos_right _ (Nat.pos_of_ne_zero hne)
    · exact (by decide : 0 < maxScale)
  have hround : (d.divideTens power).round s 0 = ⟨r.toInt (d.divideTens power).toRat, 0⟩ := by
    rw [round_eq (hs.divideTens power), roundedAfter_of_lt hscale, Nat.cast_zero, neg_zero,
      zpow_zero, div_one]
  have hsmall : (r.toInt (d.divideTens power).toRat * 10 ^ power).natAbs < sizeLimit := by
    rcases (hd.toInt_divideTens hpower r).2 with hsame | hzero
    · have hlt := hlimit _ (r.finds_toInt (by positivity) d.toRat)
      have hcast : ((r.toInt (d.toRat / 10 ^ power) * 10 ^ power).natAbs : ℚ) < sizeLimit := by
        rw [Nat.cast_natAbs]
        push_cast
        exact hlt
      rw [hsame]
      exact_mod_cast hcast
    · rw [hzero, zero_mul]
      decide
  rw [roundTens?, hround, multiplyTens?]
  exact if_pos hsmall

/-- The multiple is the point of the grid that the rounding looks for, if the quotient survives. -/
theorem IsReduced.roundTens_finds (hd : d.IsReduced) (hpower : power ≤ maxScale)
    (h : r.Survives (d.toRat / 10 ^ power)) :
    r.Finds (10 ^ power) d.toRat
      (toRat ⟨r.toInt (d.divideTens power).toRat * 10 ^ power, 0⟩) := by
  rw [Rounding.finds_iff (by positivity), (hd.toInt_divideTens hpower r).1 h, toRat, pow_zero,
    div_one]
  push_cast
  rfl

/-- A decimal that is a multiple of a power of ten stays as it is. -/
theorem IsReduced.roundTens_eq_self (hd : d.IsReduced) (hpower : power ≤ maxScale)
    (h : OnGrid (10 ^ power) d.toRat) (r : Rounding) :
    (⟨r.toInt (d.divideTens power).toRat * 10 ^ power, 0⟩ : Decimal) = d := by
  obtain ⟨n, hn⟩ := h
  have hscale : d.scale = 0 := by
    have hinteger : OnGrid (10 ^ (-((0 : Nat) : ℤ))) d.toRat := by
      refine ⟨n * 10 ^ power, ?_⟩
      rw [hn, Nat.cast_zero, neg_zero, zpow_zero, mul_one]
      push_cast
      rfl
    exact Nat.le_zero.1 (hd.scale_le hinteger)
  have hquotient : d.toRat / 10 ^ power = n := by
    rw [hn, mul_div_cancel_right₀ _ (by positivity)]
  have hcoefficient : n * 10 ^ power = d.coefficient := by
    rw [toRat, hscale, pow_zero, div_one] at hn
    exact_mod_cast hn.symm
  rw [toRat_divideTens_of_le (by omega), hquotient, r.toInt_intCast, hcoefficient, ← hscale]

/-! ## Digits on either side -/

/-- Whether the number that a rounding looks for is within the limits, where it is the product of a
multiplication. -/
def Rounding.Fits (r : Rounding) (digits : Int) (q : ℚ) : Prop :=
  digits < 0 → ∀ t, r.Finds (10 ^ (-digits)) q t → |t| < sizeLimit

/-- What is small enough before it is rounded. -/
theorem Rounding.fits_of_lt (r : Rounding) {digits : Int} {q : ℚ}
    (h : |q| + 10 ^ (-digits) < sizeLimit) : r.Fits digits q := by
  intro _ t ht
  have hunit : (0 : ℚ) < 10 ^ (-digits) := by positivity
  have hnear := mul_le_mul_of_nonneg_right (r.abs_toInt_sub_le (q / 10 ^ (-digits))) hunit.le
  rw [← abs_mul_sub hunit, ← (Rounding.finds_iff hunit).1 ht, one_mul] at hnear
  have htriangle := abs_sub_abs_le_abs_sub t q
  linarith

/-- What a decimal is rounded to if it is within the limits. -/
def rounded (r : Rounding) (digits : Int) (d : Decimal) : Decimal :=
  match digits with
  | .ofNat n => d.roundedAfter r n
  | .negSucc n => ⟨r.toInt (d.divideTens (n + 1)).toRat * 10 ^ (n + 1), 0⟩

variable {places : Int}

/-- Rounding to places comes to the rounded decimal within the limits, by a strategy that serves. -/
theorem IsReduced.roundTo?_eq (hd : d.IsReduced) {s : Strategy} (hs : s.Serves r d.coefficient)
    (hplaces : -(maxScale : Int) ≤ places) (h : r.Fits places d.toRat) :
    d.roundTo? s places = some (d.rounded r places) := by
  cases places with
  | ofNat n => exact congrArg some (round_eq hs n)
  | negSucc n =>
    refine hd.roundTens?_eq hs n.succ_ne_zero (by omega) ?_
    have hlimit := h (Int.negSucc_lt_zero n)
    rwa [Int.neg_negSucc, zpow_natCast] at hlimit

/-- **A decimal of a number is rounded to the point of the grid that the rounding looks for**, if
the quotient by the unit survives. -/
theorem IsReduced.rounded_finds (hd : d.IsReduced) (hplaces : -(maxScale : Int) ≤ places)
    (h : places < 0 → r.Survives (d.toRat / 10 ^ (-places))) :
    r.Finds (10 ^ (-places)) d.toRat (d.rounded r places).toRat := by
  cases places with
  | ofNat n => exact d.roundedAfter_finds r n
  | negSucc n =>
    have hsurvives := h (Int.negSucc_lt_zero n)
    rw [Int.neg_negSucc, zpow_natCast] at hsurvives ⊢
    exact hd.roundTens_finds (by omega) hsurvives

/-- A decimal of a number that lies on the grid stays as it is. -/
theorem IsReduced.rounded_eq_self (hd : d.IsReduced) (hplaces : -(maxScale : Int) ≤ places)
    (h : OnGrid (10 ^ (-places)) d.toRat) (r : Rounding) : d.rounded r places = d := by
  cases places with
  | ofNat n => exact hd.roundedAfter_eq_self h r
  | negSucc n =>
    rw [Int.neg_negSucc, zpow_natCast] at h
    exact hd.roundTens_eq_self (by omega) h r

/-- What lies on the grid is within the limits. -/
theorem IsReduced.fits_of_onGrid (hd : d.IsReduced) (h : OnGrid (10 ^ (-places)) d.toRat)
    (r : Rounding) : r.Fits places d.toRat := by
  intro _ t ht
  obtain ⟨n, hn⟩ := h
  have hunit : (0 : ℚ) < 10 ^ (-places) := by positivity
  have hsame : t = d.toRat := by
    rw [(Rounding.finds_iff hunit).1 ht, hn, mul_div_cancel_right₀ _ hunit.ne', r.toInt_intCast]
  have hsize : |(d.coefficient : ℚ)| < sizeLimit := by
    rw [← Int.cast_abs, ← Nat.cast_natAbs]
    exact_mod_cast hd.size_lt
  rw [hsame, toRat, abs_div, abs_of_pos (by positivity : (0 : ℚ) < 10 ^ d.scale)]
  exact (div_le_self (abs_nonneg _) (one_le_pow₀ (by norm_num))).trans_lt hsize

/-- A product within the limits. -/
theorem size_lt_of_roundTens? {s : Strategy} {e : Decimal} (h : d.roundTens? s power = some e) :
    e.coefficient.natAbs < sizeLimit := by
  rw [roundTens?, multiplyTens?] at h
  split at h
  · next hless =>
    cases h
    exact hless
  · cases h

end

end Spreadsheet.Number.Decimal
