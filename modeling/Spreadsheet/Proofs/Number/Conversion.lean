import Spreadsheet.Proofs.Number.Arithmetic
import Spreadsheet.Proofs.Number.Decimal

/-!
# Decimals converted back

A decimal is converted in parts, with several roundings on the way: integer and fraction are added,
multiplied by the unit and rounded to an integer again. The integer is the coefficient, if this has
no more than 49 bits, so that the conversion gives the nearest number (`exists_toFloat_eq`). Among
such decimals of one scale the conversion keeps the order (`toRat_toFloat_mono`).
-/

namespace Spreadsheet.Number

/-! ## Errors -/

/-- Errors in proportion add up. -/
theorem abs_sub_le_of_abs_sub_le {x y z a b : ℚ} (hb : 0 ≤ b) (hxy : |y - x| ≤ x * a)
    (hyz : |z - y| ≤ y * b) : |z - x| ≤ x * (a + b + a * b) := by
  have hy := (abs_le.1 hxy).2
  have hmul : y * b ≤ (x + x * a) * b := mul_le_mul_of_nonneg_right (by linarith) hb
  calc |z - x|
    _ ≤ |z - y| + |y - x| := abs_sub_le z y x
    _ ≤ y * b + x * a := add_le_add hyz hxy
    _ ≤ x * (a + b + a * b) := by linarith

section
variable {p : Parts}

/-- Rounding halves away from zero is the floor of the size and a half. -/
theorem Parts.roundedHalfAway_eq_floor (p : Parts) : p.roundedHalfAway = ⌊p.size + 1 / 2⌋₊ := by
  obtain ⟨negative, significand, exponent⟩ := p
  cases exponent with
  | ofNat e =>
    have hsize : Parts.size ⟨negative, significand, .ofNat e⟩ = (significand * 2 ^ e : Nat) := by
      simp [size]
    rw [hsize, eq_comm]
    refine (Nat.floor_eq_iff (by positivity)).2 ⟨?_, ?_⟩
    · change ((significand * 2 ^ e : Nat) : ℚ) ≤ _
      linarith
    · change _ < ((significand * 2 ^ e : Nat) : ℚ) + 1
      linarith
  | negSucc e =>
    have hsize : Parts.size ⟨negative, significand, .negSucc e⟩ + 1 / 2 =
        ((significand + 2 ^ e : Nat) : ℚ) / ((2 ^ (e + 1) : Nat) : ℚ) := by
      simp only [size, zpow_negSucc]
      push_cast
      rw [pow_succ]
      field_simp
    rw [hsize, Nat.floor_div_eq_div]
    rfl

/-- A number within one half of an integer is rounded to it. -/
theorem Parts.roundedHalfAway_eq {m : Nat} (h : |p.size - m| < 1 / 2) : p.roundedHalfAway = m := by
  obtain ⟨hlow, hhigh⟩ := abs_lt.1 h
  rw [roundedHalfAway_eq_floor, Nat.floor_eq_iff (add_nonneg p.size_nonneg (by norm_num))]
  constructor <;> linarith

end

/-! ## The conversion -/

namespace Decimal

section
variable {size unit : Nat}

/-- A fraction with as many places as a decimal is rounded to has all its bits. -/
theorem exists_parts?_fraction (hunit : unit ≠ 0) (hunit' : unit ≤ 10 ^ 15)
    (hfraction : size % unit ≠ 0) :
    1 / 10 ^ 15 ≤ ((size % unit : Nat) : ℚ) / unit ∧ ((size % unit : Nat) : ℚ) / unit < 1 ∧
      ∃ t, parts? (nearest (size % unit) unit) = some t ∧ t.negative = false ∧
        |t.size - (size % unit : Nat) / unit| ≤ (size % unit : Nat) / (unit : ℚ) / 2 ^ 53 := by
  have hpos : (0 : ℚ) < unit := by exact_mod_cast Nat.pos_of_ne_zero hunit
  have hsome : (1 : ℚ) ≤ (size % unit : Nat) := by
    exact_mod_cast Nat.one_le_iff_ne_zero.2 hfraction
  have hlow : 1 / 10 ^ 15 ≤ ((size % unit : Nat) : ℚ) / unit :=
    (one_div_le_one_div_of_le hpos (by exact_mod_cast hunit')).trans
      (div_le_div_of_nonneg_right hsome hpos.le)
  have hhigh := natCast_div_lt_one (Nat.mod_lt size (Nat.pos_of_ne_zero hunit))
  exact ⟨hlow, hhigh, exists_parts?_nearest_error hunit
    (isNormal_of_le (le_trans (by norm_num) hlow) (hhigh.trans (by norm_num)))⟩

/-- The sum of the integer and the fraction, in which both the fraction and the sum are rounded. -/
theorem exists_parts?_sum (hunit : unit ≠ 0) (hunit' : unit ≤ 10 ^ 15) (hsize : size < 2 ^ 52)
    (hfraction : size % unit ≠ 0) :
    ∃ s, parts? (nearest (size / unit) 1 + nearest (size % unit) unit) = some s ∧
      s.negative = false ∧ |s.size - size / unit| ≤
        size / unit * (1 / 2 ^ 53 + 1 / 2 ^ 53 + 1 / 2 ^ 53 * (1 / 2 ^ 53)) := by
  obtain ⟨hwhole, hwhole'⟩ := toRat_nearest_one (m := size / unit)
    ((Nat.div_le_self size unit).trans_lt (by omega))
  obtain ⟨p, hp, hp₀, hsizep⟩ := exists_parts?_nearest one_ne_zero hwhole
  rw [hwhole'] at hsizep
  obtain ⟨hf₀, hf₁, t, ht, ht₀, herrort⟩ := exists_parts?_fraction hunit hunit' hfraction
  generalize hf : ((size % unit : Nat) : ℚ) / unit = f at hf₀ hf₁ herrort
  have hsum : (size : ℚ) / unit = p.size + f := by rw [natCast_div_eq size hunit, hsizep, hf]
  have hp_nonneg := p.size_nonneg
  have hp_le : p.size ≤ 2 ^ 52 := by
    rw [hsizep]
    exact_mod_cast ((Nat.div_le_self size unit).trans hsize.le)
  have herrors : |p.size + t.size - (p.size + f)| ≤ (p.size + f) * (1 / 2 ^ 53) := by
    rw [add_sub_add_left_eq_sub]
    refine herrort.trans ?_
    rw [div_eq_mul_one_div]
    exact mul_le_mul_of_nonneg_right (by linarith) (by positivity)
  rw [hsum]
  generalize hA : p.size + f = A at *
  have hA₀ : 1 / 10 ^ 15 ≤ A := by linarith
  have hA₁ : A ≤ 2 ^ 53 := by linarith
  obtain ⟨hlow, hhigh⟩ := abs_le.1 herrors
  obtain ⟨s, hs, hs₀, herrors'⟩ := exists_parts?_add hp ht hp₀ ht₀
    (isNormal_of_le (by norm_num at hA₀ hlow ⊢; linarith) (by norm_num at hA₁ hhigh ⊢; linarith))
  rw [div_eq_mul_one_div] at herrors'
  exact ⟨s, hs, hs₀, abs_sub_le_of_abs_sub_le (by positivity) herrors herrors'⟩

/-- Where a fraction is added to an integer, and the sum multiplied by the unit, the errors come to
no more than `2 ^ -51` of the result. -/
theorem abs_size_sub_le (hunit : unit ≠ 0) (hunit' : unit ≤ 10 ^ 15) (hsize : size < 2 ^ 52)
    (hfraction : size % unit ≠ 0) :
    ∃ p, parts? ((nearest (size / unit) 1 + nearest (size % unit) unit) * nearest unit 1) = some p ∧
      |p.size - size| ≤ size / 2 ^ 51 := by
  have hpos : (0 : ℚ) < unit := by exact_mod_cast Nat.pos_of_ne_zero hunit
  obtain ⟨s, hs, hs₀, herrors⟩ := exists_parts?_sum hunit hunit' hsize hfraction
  obtain ⟨hone, hone'⟩ := toRat_nearest_one (m := unit) (by omega)
  obtain ⟨q, hq, hq₀, hsizeq⟩ := exists_parts?_nearest one_ne_zero hone
  rw [hone'] at hsizeq
  have herror : |s.size * unit - size| ≤
      size * (1 / 2 ^ 53 + 1 / 2 ^ 53 + 1 / 2 ^ 53 * (1 / 2 ^ 53)) := by
    have hscaled := mul_le_mul_of_nonneg_right herrors hpos.le
    rwa [← abs_of_pos hpos, ← abs_mul, abs_of_pos hpos, sub_mul, div_mul_cancel₀ _ hpos.ne',
      mul_right_comm, div_mul_cancel₀ _ hpos.ne'] at hscaled
  have hsize₀ : (1 : ℚ) ≤ size := by
    exact_mod_cast Nat.one_le_iff_ne_zero.2 fun h => hfraction (by rw [h, Nat.zero_mod])
  have hsize₁ : (size : ℚ) < 2 ^ 52 := by exact_mod_cast hsize
  obtain ⟨hlow, hhigh⟩ := abs_le.1 herror
  obtain ⟨r, hr, -, herrorr⟩ := exists_parts?_mul hs hq hs₀ hq₀ (by
    rw [hsizeq]
    exact isNormal_of_le (by norm_num at hlow ⊢; linarith) (by norm_num at hhigh ⊢; linarith))
  rw [hsizeq, div_eq_mul_one_div] at herrorr
  refine ⟨r, hr, (abs_sub_le_of_abs_sub_le (by positivity) herror herrorr).trans ?_⟩
  rw [div_eq_mul_one_div (size : ℚ)]
  exact mul_le_mul_of_nonneg_left (by norm_num) (by linarith)

end

variable {d : Decimal}

/-- The conversion where there is no fraction. -/
theorem toFloat_of_whole (h : d.coefficient.natAbs % 10 ^ d.scale = 0) :
    d.toFloat = signed (d.coefficient < 0) (nearest d.coefficient.natAbs (10 ^ d.scale)) := by
  by_cases hscale : d.scale = 0
  · rw [toFloat, if_pos hscale, hscale]
    rfl
  · have hne : 10 ^ d.scale ≠ 0 := (Nat.pow_pos (by decide)).ne'
    have hzero : (nearest (d.coefficient.natAbs % Nat.pow 10 d.scale) (Nat.pow 10 d.scale) == 0) =
        true := by
      rw [Nat.pow_eq, h, nearest, if_pos rfl]
      rfl
    have hwhole : nearest (d.coefficient.natAbs / 10 ^ d.scale) 1 =
        nearest d.coefficient.natAbs (10 ^ d.scale) := by
      refine nearest_congr one_ne_zero hne ?_
      rw [Nat.cast_one, div_one, Nat.cast_div (Nat.dvd_of_mod_eq_zero h) (by exact_mod_cast hne)]
    rw [toFloat, if_neg hscale]
    dsimp only
    rw [if_pos hzero, Nat.pow_eq, hwhole]

/-- The conversion where there is a fraction. -/
theorem toFloat_of_fraction {p : Parts} (hscale : d.scale ≠ 0)
    (hfraction : (nearest (d.coefficient.natAbs % 10 ^ d.scale) (10 ^ d.scale) == 0) = false)
    (hp : parts? ((nearest (d.coefficient.natAbs / 10 ^ d.scale) 1 +
      nearest (d.coefficient.natAbs % 10 ^ d.scale) (10 ^ d.scale)) *
        nearest (10 ^ d.scale) 1) = some p) :
    d.toFloat = signed (d.coefficient < 0)
      (nearest p.roundedHalfAway 1 / nearest (10 ^ d.scale) 1) := by
  rw [toFloat, if_neg hscale]
  simp only [Nat.pow_eq]
  rw [if_neg (Bool.eq_false_iff.1 hfraction), hp]

/-- The quotient of two natural numbers that are not rounded. -/
theorem nearest_div_nearest {m n : Nat} (hm : m < 2 ^ 53) (hn : n < 2 ^ 53) (hm₀ : m ≠ 0)
    (hn₀ : n ≠ 0) : nearest m 1 / nearest n 1 = nearest m n := by
  obtain ⟨hfinite, hvalue⟩ := toRat_nearest_one hm
  obtain ⟨p, hp, hp₀, hsize⟩ := exists_parts?_nearest one_ne_zero hfinite
  obtain ⟨hfinite', hvalue'⟩ := toRat_nearest_one hn
  obtain ⟨q, hq, hq₀, hsize'⟩ := exists_parts?_nearest one_ne_zero hfinite'
  rw [hvalue] at hsize
  rw [hvalue'] at hsize'
  have hsignificand : p.significand ≠ 0 := by
    intro hzero
    rw [Parts.size_eq_zero hzero] at hsize
    exact hm₀ (by exact_mod_cast hsize.symm)
  have hsignificand' : q.significand ≠ 0 := by
    intro hzero
    rw [Parts.size_eq_zero hzero] at hsize'
    exact hn₀ (by exact_mod_cast hsize'.symm)
  have hlow : (2 : ℚ) ^ (-1074 : Int) ≤ p.size / q.size := by
    have hpos : (0 : ℚ) < n := by exact_mod_cast Nat.pos_of_ne_zero hn₀
    have hone : (1 : ℚ) ≤ m := by exact_mod_cast Nat.one_le_iff_ne_zero.2 hm₀
    have hless : (n : ℚ) ≤ 2 ^ (53 : Int) := by exact_mod_cast hn.le
    rw [hsize, hsize']
    calc (2 : ℚ) ^ (-1074 : Int)
      _ ≤ 2 ^ (-53 : Int) := zpow_le_zpow_right₀ one_le_two (by decide)
      _ = 1 / 2 ^ (53 : Int) := by rw [zpow_neg, one_div]
      _ ≤ 1 / n := one_div_le_one_div_of_le hpos hless
      _ ≤ m / n := div_le_div_of_nonneg_right hone hpos.le
  have hratio : (m : ℚ) / n = p.size / q.size := by rw [hsize, hsize']
  have hdiv := div_eq_nearest hp hq hsignificand hsignificand' hlow hn₀ hratio
  rwa [hp₀, hq₀, Bool.xor_false, signed_false] at hdiv

/-- **A decimal is converted to the number nearest to an integer of its unit**, which is its
coefficient if that has no more than 49 bits. -/
theorem exists_toFloat_eq (hscale : d.scale ≤ 15) (hsize : d.coefficient.natAbs < 2 ^ 52) :
    ∃ n < 2 ^ 53, (d.coefficient.natAbs < 2 ^ 49 → n = d.coefficient.natAbs) ∧
      d.toFloat = signed (d.coefficient < 0) (nearest n (10 ^ d.scale)) := by
  by_cases hwhole : d.coefficient.natAbs % 10 ^ d.scale = 0
  · exact ⟨d.coefficient.natAbs, by omega, fun _ => rfl, toFloat_of_whole hwhole⟩
  · have hne : 10 ^ d.scale ≠ 0 := (Nat.pow_pos (by decide)).ne'
    have hunit : 10 ^ d.scale ≤ 10 ^ 15 := Nat.pow_le_pow_right (by decide) hscale
    have hscale₀ : d.scale ≠ 0 := by
      intro hzero
      rw [hzero, pow_zero] at hwhole
      exact hwhole (Nat.mod_one _)
    obtain ⟨hlow, -, t, ht, -, herrort⟩ := exists_parts?_fraction hne hunit hwhole
    have hfraction :
        (nearest (d.coefficient.natAbs % 10 ^ d.scale) (10 ^ d.scale) == 0) = false := by
      rw [Bool.eq_false_iff, Ne, beq_zero_iff ht]
      intro hzero
      rw [Parts.size_eq_zero hzero, zero_sub, abs_neg] at herrort
      have hle := (le_abs_self _).trans herrort
      norm_num at hlow hle
      linarith
    obtain ⟨p, hp, herror⟩ := abs_size_sub_le hne hunit hsize hwhole
    have hsize' : (d.coefficient.natAbs : ℚ) < 2 ^ 52 := by exact_mod_cast hsize
    have hsome : (1 : ℚ) ≤ d.coefficient.natAbs := by
      exact_mod_cast Nat.one_le_iff_ne_zero.2 fun h => hwhole (by rw [h, Nat.zero_mod])
    obtain ⟨hlow', hhigh'⟩ := abs_le.1 herror
    have hrounded : p.roundedHalfAway < 2 ^ 53 ∧ p.roundedHalfAway ≠ 0 := by
      rw [Parts.roundedHalfAway_eq_floor]
      constructor
      · refine (Nat.floor_lt (by linarith)).2 ?_
        push_cast
        linarith
      · refine (Nat.floor_pos.2 ?_).ne'
        linarith
    refine ⟨p.roundedHalfAway, hrounded.1, fun hsmall => ?_, ?_⟩
    · refine Parts.roundedHalfAway_eq (herror.trans_lt ?_)
      have hsmall' : (d.coefficient.natAbs : ℚ) < 2 ^ 49 := by exact_mod_cast hsmall
      linarith
    · rw [toFloat_of_fraction hscale₀ hfraction hp, nearest_div_nearest hrounded.1
        (hunit.trans_lt (by decide)) hrounded.2 hne]

/-! ## Order -/

/-- The number nearest to a decimal. -/
def nearestFloat (d : Decimal) : Float :=
  signed (d.coefficient < 0) (nearest d.coefficient.natAbs (10 ^ d.scale))

/-- The conversion gives the nearest number to a decimal with few enough digits. -/
theorem toFloat_eq_nearestFloat (hscale : d.scale ≤ 15)
    (h : d.scale ≠ 0 → d.coefficient.natAbs < 2 ^ 49) : d.toFloat = d.nearestFloat := by
  by_cases hzero : d.scale = 0
  · refine toFloat_of_whole ?_
    rw [hzero, pow_zero, Nat.mod_one]
  · obtain ⟨n, -, hn, hfloat⟩ := exists_toFloat_eq hscale ((h hzero).trans (by decide))
    rw [hfloat, hn (h hzero), nearestFloat]

/-- A coefficient within the size is rounded to a finite number. -/
theorem isFinite_nearest_of_lt {m : Nat} (h : m < sizeLimit) (scale : Nat) :
    isFinite (nearest m (10 ^ scale)) = true := by
  have hlt : (m : ℚ) / (10 ^ scale : Nat) < 2 ^ (96 : Int) := by
    refine (div_le_self (Nat.cast_nonneg m) ?_).trans_lt (by exact_mod_cast h)
    exact_mod_cast Nat.one_le_iff_ne_zero.2 (Nat.pow_pos (by decide)).ne'
  exact (abs_toRat_nearest_sub_le (Nat.pow_pos (by decide)).ne' hlt (by decide) (by decide)).1

/-- A decimal within the size is converted to a finite number. -/
theorem isFinite_nearestFloat (h : d.coefficient.natAbs < sizeLimit) :
    isFinite d.nearestFloat = true :=
  isFinite_signed (isFinite_nearest_of_lt h d.scale) _

/-- The nearest numbers keep the order. -/
theorem toRat_nearestFloat_mono {a b : Decimal} (ha : a.coefficient.natAbs < sizeLimit)
    (hb : b.coefficient.natAbs < sizeLimit) (hle : a.toRat ≤ b.toRat) :
    Number.toRat a.nearestFloat ≤ Number.toRat b.nearestFloat := by
  have hsize : ∀ d : Decimal, (d.coefficient.natAbs : ℚ) / (10 ^ d.scale : Nat) = |d.toRat| := by
    intro d
    rw [toRat, abs_div, abs_of_pos (by positivity : (0 : ℚ) < 10 ^ d.scale), Nat.cast_natAbs]
    push_cast
    rfl
  have hsign : ∀ d : Decimal, d.coefficient < 0 ↔ d.toRat < 0 := by
    intro d
    rw [toRat, div_lt_iff₀ (by positivity), zero_mul]
    exact Int.cast_lt_zero.symm
  have hne : ∀ d : Decimal, 10 ^ d.scale ≠ 0 := fun d => (Nat.pow_pos (by decide)).ne'
  have hfinite := isFinite_nearest_of_lt ha a.scale
  have hfinite' := isFinite_nearest_of_lt hb b.scale
  rw [nearestFloat, nearestFloat, toRat_signed hfinite, toRat_signed hfinite']
  simp only [decide_eq_true_eq, hsign]
  by_cases hneg : a.toRat < 0
  · by_cases hneg' : b.toRat < 0
    · rw [if_pos hneg, if_pos hneg', neg_le_neg_iff]
      refine (toRat_nearest_mono (hne b) (hne a) ?_ hfinite).2
      rw [hsize, hsize, abs_of_neg hneg, abs_of_neg hneg', neg_le_neg_iff]
      exact hle
    · rw [if_pos hneg, if_neg hneg']
      exact (neg_nonpos.2 (toRat_nearest_nonneg _ (hne a))).trans (toRat_nearest_nonneg _ (hne b))
  · have hneg' : ¬ b.toRat < 0 := not_lt.2 ((not_lt.1 hneg).trans hle)
    rw [if_neg hneg, if_neg hneg']
    refine (toRat_nearest_mono (hne a) (hne b) ?_ hfinite').2
    rwa [hsize, hsize, abs_of_nonneg (not_lt.1 hneg), abs_of_nonneg (not_lt.1 hneg')]

/-- Decimals that are converted to the nearest number keep their order. -/
theorem toRat_toFloat_mono {scale : Nat} {m n : Int} (hscale : scale ≤ 15)
    (hm : m.natAbs < sizeLimit ∧ (scale ≠ 0 → m.natAbs < 2 ^ 49))
    (hn : n.natAbs < sizeLimit ∧ (scale ≠ 0 → n.natAbs < 2 ^ 49)) (hle : m ≤ n) :
    Number.toRat (toFloat ⟨m, scale⟩) ≤ Number.toRat (toFloat ⟨n, scale⟩) := by
  rw [toFloat_eq_nearestFloat hscale hm.2, toFloat_eq_nearestFloat hscale hn.2]
  exact toRat_nearestFloat_mono hm.1 hn.1
    (div_le_div_of_nonneg_right (Int.cast_le.2 hle) (by positivity))

/-- A decimal of a number, with no more places than are rounded to, is converted to a finite
number. -/
theorem IsReduced.isFinite_toFloat (hd : d.IsReduced) (hscale : d.scale ≤ 15) :
    isFinite d.toFloat = true := by
  by_cases hzero : d.scale = 0
  · rw [toFloat_eq_nearestFloat hscale fun h => absurd hzero h]
    exact isFinite_nearestFloat hd.size_lt
  · obtain ⟨n, hn, -, hfloat⟩ := exists_toFloat_eq hscale (hd.precise hzero)
    rw [hfloat]
    exact isFinite_signed (isFinite_nearest_of_lt (hn.trans (by decide)) _) _

/-! ## Rounded decimals -/

/-- Rounding to fewer places leaves a coefficient with one digit less. -/
theorem IsReduced.rounded_lt (hd : d.IsReduced) {digits : Nat} (h : digits < d.scale)
    (r : Rounding) : (d.roundedAfter r digits).coefficient.natAbs < 2 ^ 49 := by
  have hsize : |(d.coefficient : ℚ)| < 2 ^ 52 := by
    rw [← Int.cast_abs, ← Nat.cast_natAbs]
    exact_mod_cast hd.precise (by omega)
  have hquotient : |d.toRat / 10 ^ (-(digits : ℤ))| ≤ |(d.coefficient : ℚ)| / 10 := by
    have hpow : (10 : ℚ) * 10 ^ digits ≤ 10 ^ d.scale := by
      rw [← pow_succ']
      exact pow_le_pow_right₀ (by norm_num) h
    rw [toRat, zpow_neg, zpow_natCast, div_inv_eq_mul, div_mul_eq_mul_div, abs_div, abs_mul,
      abs_of_pos (by positivity : (0 : ℚ) < 10 ^ digits),
      abs_of_pos (by positivity : (0 : ℚ) < 10 ^ d.scale), div_le_div_iff₀ (by positivity)
        (by norm_num), mul_assoc]
    refine mul_le_mul_of_nonneg_left ?_ (abs_nonneg _)
    rwa [mul_comm]
  have hnear := r.abs_toInt_sub_le (d.toRat / 10 ^ (-(digits : ℤ)))
  rw [roundedAfter_of_lt h]
  dsimp only
  generalize r.toInt (d.toRat / 10 ^ (-(digits : ℤ))) = n at hnear
  generalize d.toRat / 10 ^ (-(digits : ℤ)) = q at hquotient hnear
  have hlt : |(n : ℚ)| < 2 ^ 49 := by
    have htriangle := abs_sub_abs_le_abs_sub (n : ℚ) q
    linarith
  rw [← Int.cast_abs, ← Nat.cast_natAbs] at hlt
  exact_mod_cast hlt

/-- The roundings of a decimal are the decimal itself, or have one scale. -/
theorem IsReduced.rounded_cases (hd : d.IsReduced) {places : Int} (hlow : -15 ≤ places)
    (hhigh : places ≤ 15) :
    (d.scale ≤ 15 ∧ ∀ r, d.rounded r places = d) ∨
      ∃ (q : ℚ) (unit scale : Nat), scale ≤ 15 ∧
        ∀ r, d.rounded r places = ⟨r.toInt q * unit, scale⟩ ∧ (r.Fits places d.toRat →
          (r.toInt q * unit).natAbs < sizeLimit ∧
            (scale ≠ 0 → (r.toInt q * unit).natAbs < 2 ^ 49)) := by
  cases places with
  | ofNat n =>
    rw [Int.ofNat_eq_natCast, Nat.cast_le_ofNat] at hhigh
    by_cases hscale : d.scale ≤ n
    · exact .inl ⟨hscale.trans hhigh, fun r => if_pos hscale⟩
    · rw [not_le] at hscale
      refine .inr ⟨d.toRat / 10 ^ (-(n : ℤ)), 1, n, hhigh, fun r => ?_⟩
      have hround := roundedAfter_of_lt (r := r) hscale
      have hless := hd.rounded_lt hscale r
      rw [hround] at hless
      rw [Nat.cast_one, mul_one]
      exact ⟨hround, fun _ => ⟨hless.trans (by decide), fun _ => hless⟩⟩
  | negSucc n =>
    refine .inr ⟨(d.divideTens (n + 1)).toRat, 10 ^ (n + 1), 0, by decide, fun r => ?_⟩
    rw [Nat.cast_pow]
    refine ⟨rfl, fun h => ⟨?_, fun hne => absurd rfl hne⟩⟩
    obtain ⟨s, hs⟩ := r.exists_serves d.coefficient
    exact size_lt_of_roundTens? (hd.roundTo?_eq hs (hlow.trans' (by decide)) h)

/-- **The three roundings of a decimal keep their order when they are converted.** -/
theorem IsReduced.rounded_order (hd : d.IsReduced) {places : Int} (hlow : -15 ≤ places)
    (hhigh : places ≤ 15) (h : ∀ r : Rounding, r.Fits places d.toRat) :
    Number.toRat (d.rounded .down places).toFloat ≤
        Number.toRat (d.rounded .nearest places).toFloat ∧
      Number.toRat (d.rounded .nearest places).toFloat ≤
        Number.toRat (d.rounded .up places).toFloat := by
  rcases hd.rounded_cases hlow hhigh with ⟨-, hsame⟩ | ⟨q, unit, scale, hscale, hrounded⟩
  · simp only [hsame, le_refl, and_self]
  · obtain ⟨hfirst, hsecond⟩ := Rounding.toInt_le q
    have hsize := fun r => (hrounded r).2 (h r)
    have hunit : (0 : ℤ) ≤ unit := Int.natCast_nonneg unit
    simp only [(hrounded _).1]
    exact ⟨toRat_toFloat_mono hscale (hsize _) (hsize _) (mul_le_mul_of_nonneg_right hfirst hunit),
      toRat_toFloat_mono hscale (hsize _) (hsize _) (mul_le_mul_of_nonneg_right hsecond hunit)⟩

/-- A rounding within the limits is converted to a finite number. -/
theorem IsReduced.isFinite_rounded (hd : d.IsReduced) {places : Int} (hlow : -15 ≤ places)
    (hhigh : places ≤ 15) {r : Rounding} (h : r.Fits places d.toRat) :
    isFinite (d.rounded r places).toFloat = true := by
  rcases hd.rounded_cases hlow hhigh with ⟨hscale, hsame⟩ | ⟨q, unit, scale, hscale, hrounded⟩
  · rw [hsame]
    exact hd.isFinite_toFloat hscale
  · obtain ⟨hsize, hless⟩ := (hrounded r).2 h
    rw [(hrounded r).1, toFloat_eq_nearestFloat hscale hless]
    exact isFinite_nearestFloat hsize

end Decimal

end Spreadsheet.Number
