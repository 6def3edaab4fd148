import Spreadsheet.Proofs.Number.Hardware

/-!
# Products, sums and quotients

Where the exact result of an operation is a ratio of natural numbers, with a sign, the result of the
operation is the number nearest to the ratio, with the sign (`mul_eq_nearest`, `add_eq_nearest`,
`div_eq_nearest`). So what is not too small or too large is off by `2 ^ -53` of it at most
(`exists_parts?_add`, `exists_parts?_mul`).
-/

namespace Spreadsheet.Number

open Float.Model

/-! ## Signs and sizes -/

/-- The sign of a product. -/
theorem signOf_mul (a b : Bool) : signOf a * signOf b = signOf (a ^^ b) := by
  cases a <;> cases b <;> rfl

/-- The sign of a quotient. -/
theorem signOf_div (a b : Bool) : signOf a / signOf b = signOf (a ^^ b) := by
  cases a <;> cases b <;> rfl

theorem apply_signOf_false (n : Int) : (signOf false).apply n = n := rfl

section
variable {x y : Float} {p q : Parts} {num den : Nat}

/-- A number is rounded to itself. -/
theorem roundsTo_size (hp : parts? x = some p) (hne : p.significand ≠ 0) :
    RoundsTo p.size p.significand p.exponent := by
  obtain ⟨h, -⟩ := isMagnitude_of_parts? hp hne
  have hsize : p.size / 2 ^ p.exponent = p.significand := by
    rw [Parts.size, mul_div_cancel_right₀ _ (by positivity)]
  refine ⟨⟨h.exponent_ge, ?_, fun he => ?_⟩, ?_⟩ <;> rw [hsize]
  · exact_mod_cast h.significand_lt
  · exact_mod_cast h.full he
  · exact isRounded_natCast _

/-- A ratio that is zero is rounded to zero. -/
theorem nearest_eq_zero (hden : den ≠ 0) (h : (num : ℚ) / den = 0) : nearest num den = 0 :=
  (roundsTo_zero.nearest_eq hden h).trans ofMagnitude_zero

/-- The number nearest to the size of a number is the number without its sign. -/
theorem signed_nearest_size (hp : parts? x = some p) (hden : den ≠ 0)
    (h : (num : ℚ) / den = p.size) : signed p.negative (nearest num den) = x := by
  by_cases hzero : p.significand = 0
  · rw [nearest_eq_zero hden (h.trans (Parts.size_eq_zero hzero))]
    apply Float.toBits_inj.1
    rw [toBits_eq_pack hp, Parts.unpacked_of_zero hzero]
    cases p.negative <;> rfl
  · obtain ⟨hmagnitude, hsigned⟩ := isMagnitude_of_parts? hp hzero
    rw [(roundsTo_size hp hzero).nearest_eq hden h, ofMagnitude, if_pos hmagnitude.magnitudeBits_lt]
    exact hsigned

/-! ## Products -/

/-- A product with a zero is a zero with the sign of the product. -/
theorem Parts.mul_unpacked_of_zero (h : p.significand = 0 ∨ q.significand = 0) :
    UnpackedFloat.mul Format.binary64 p.unpacked q.unpacked =
      .zero (signOf (p.negative ^^ q.negative)) := by
  rw [← signOf_mul]
  rcases Nat.eq_zero_or_pos p.significand with hp₀ | hp₀
  · rw [unpacked_of_zero hp₀, unpacked]
    split <;> rfl
  · rw [unpacked_of_pos hp₀, unpacked_of_zero (h.resolve_left hp₀.ne')]
    rfl

/-- The product of two significands has bits enough: if it has few, both have the least unit. -/
theorem exponent_mul_le (hp : parts? x = some p) (hq : parts? y = some q)
    (hp₀ : p.significand ≠ 0) (hq₀ : q.significand ≠ 0) :
    p.exponent + q.exponent ≤
      max ((p.significand * q.significand).log2 + (p.exponent + q.exponent) - 52) (-1074) := by
  obtain ⟨hmp, -⟩ := isMagnitude_of_parts? hp hp₀
  obtain ⟨hmq, -⟩ := isMagnitude_of_parts? hq hq₀
  by_cases hlarge : 2 ^ 52 ≤ p.significand * q.significand
  · have hlog := (Nat.le_log2 (Nat.mul_ne_zero hp₀ hq₀)).2 hlarge
    omega
  · have hple := Nat.le_mul_of_pos_right p.significand (Nat.pos_of_ne_zero hq₀)
    have hqle := Nat.le_mul_of_pos_left q.significand (Nat.pos_of_ne_zero hp₀)
    have hpe : p.exponent = -1074 := by
      by_contra hne
      have hfull := hmp.full hne
      omega
    have hqe : q.exponent = -1074 := by
      by_contra hne
      have hfull := hmq.full hne
      omega
    omega

/-- **A product is the exact product, rounded.** -/
theorem mul_eq_nearest (hp : parts? x = some p) (hq : parts? y = some q) (hden : den ≠ 0)
    (h : (num : ℚ) / den = p.size * q.size) :
    x * y = signed (p.negative ^^ q.negative) (nearest num den) := by
  have hbits : (x * y).toBits = UInt64.ofBitVec (UnpackedFloat.pack Format.binary64
      (UnpackedFloat.mul Format.binary64 p.unpacked q.unpacked)) := by
    rw [← unpack_of_parts? hp, ← unpack_of_parts? hq]
    rfl
  by_cases hzero : p.significand = 0 ∨ q.significand = 0
  · have hsize : p.size * q.size = 0 :=
      mul_eq_zero.2 (hzero.imp Parts.size_eq_zero Parts.size_eq_zero)
    rw [Parts.mul_unpacked_of_zero hzero] at hbits
    rw [nearest_eq_zero hden (h.trans hsize), ← ofMagnitude_zero]
    exact (isPacked_zero _).eq_signed hbits
  · obtain ⟨hp₀, hq₀⟩ := not_or.1 hzero
    have hexact : p.size * q.size / 2 ^ (p.exponent + q.exponent) =
        (p.significand * q.significand : Nat) := by
      rw [Parts.size, Parts.size, zpow_add₀ two_ne_zero]
      push_cast
      field_simp
    have hcut := cutTo_exact (p.significand * q.significand)
    rw [← hexact] at hcut
    obtain ⟨r, t, hround, hpacked⟩ := isPacked_roundWithAccuracy (Nat.mul_ne_zero hp₀ hq₀)
      hcut (exponent_mul_le hp hq hp₀ hq₀) (p.negative ^^ q.negative)
    rw [Parts.unpacked_of_pos (Nat.pos_of_ne_zero hp₀),
      Parts.unpacked_of_pos (Nat.pos_of_ne_zero hq₀), UnpackedFloat.mul, signOf_mul] at hbits
    rw [hround.nearest_eq hden h]
    exact hpacked.eq_signed hbits

/-- The sign of a finite product. -/
theorem negative_mul {r : Parts} (hp : parts? x = some p) (hq : parts? y = some q)
    (hr : parts? (x * y) = some r) : r.negative = (p.negative ^^ q.negative) := by
  obtain ⟨num, den, hden, hratio⟩ := exists_ratio (mul_nonneg p.size_nonneg q.size_nonneg)
  rw [mul_eq_nearest hp hq hden hratio] at hr
  have hfinite := isFinite_of_signed_nearest hden (by rw [isFinite, hr]; rfl)
  obtain ⟨t, ht⟩ := Option.isSome_iff_exists.1 hfinite
  have hpositive := negative_of_parts?_nearest hden ht
  rw [parts?_signed ht] at hr
  cases hr
  cases p.negative ^^ q.negative with
  | false => exact hpositive
  | true => exact (congrArg (!·) hpositive)

/-! ## Sums -/

/-- Where one summand is zero, the sum is the other. -/
theorem Parts.add_unpacked_of_zero (hp' : p.negative = false) (hq' : q.negative = false)
    (h : p.significand = 0 ∨ q.significand = 0) :
    UnpackedFloat.add Format.binary64 p.unpacked q.unpacked =
      if p.significand = 0 then q.unpacked else p.unpacked := by
  rcases Nat.eq_zero_or_pos p.significand with hp₀ | hp₀
  · rw [if_pos hp₀, unpacked_of_zero hp₀, hp', unpacked, hq']
    split <;> rfl
  · rw [if_neg hp₀.ne', unpacked_of_pos hp₀, unpacked_of_zero (h.resolve_left hp₀.ne')]
    rfl

/-- Two summands are added in the finer of their units. -/
theorem Parts.exists_add_unpacked (hp' : p.negative = false) (hq' : q.negative = false)
    (hp₀ : p.significand ≠ 0) (hq₀ : q.significand ≠ 0) :
    ∃ (m : Nat) (e : Int), m ≠ 0 ∧ p.size + q.size = m * 2 ^ e ∧
      UnpackedFloat.add Format.binary64 p.unpacked q.unpacked =
        UnpackedFloat.round Format.binary64 .positive m e := by
  generalize hunit : min p.exponent q.exponent = unit
  generalize hm : p.significand * 2 ^ (p.exponent - unit).toNat +
    q.significand * 2 ^ (q.exponent - unit).toNat = m
  have hpos : 0 < m := by
    rw [← hm]
    exact Nat.add_pos_left (Nat.mul_pos (Nat.pos_of_ne_zero hp₀) (Nat.two_pow_pos _)) _
  refine ⟨m, unit, hpos.ne', ?_, ?_⟩
  · have hp₁ : ((p.exponent - unit).toNat : Int) + unit = p.exponent := by omega
    have hq₁ : ((q.exponent - unit).toNat : Int) + unit = q.exponent := by omega
    rw [← hm]
    push_cast
    rw [add_mul, mul_assoc, mul_assoc, ← zpow_natCast, ← zpow_natCast, ← zpow_add₀ two_ne_zero,
      ← zpow_add₀ two_ne_zero, hp₁, hq₁, size, size]
  · rw [unpacked_of_pos (Nat.pos_of_ne_zero hp₀), unpacked_of_pos (Nat.pos_of_ne_zero hq₀), hp',
      hq']
    unfold UnpackedFloat.add UnpackedFloat.decreaseExponent
    dsimp only
    rw [hunit, Nat.shiftLeft_eq, Nat.shiftLeft_eq, apply_signOf_false, apply_signOf_false,
      ← Nat.cast_add, hm, UnpackedFloat.normalize,
      compare_gt_iff_gt.2 (by exact_mod_cast hpos : (m : Int) > 0)]
    dsimp only
    rw [Int.toNat_natCast]

/-- **A sum of numbers without a sign is the exact sum, rounded.** -/
theorem add_eq_nearest (hp : parts? x = some p) (hq : parts? y = some q)
    (hp' : p.negative = false) (hq' : q.negative = false) (hden : den ≠ 0)
    (h : (num : ℚ) / den = p.size + q.size) : x + y = nearest num den := by
  have hbits : (x + y).toBits = UInt64.ofBitVec (UnpackedFloat.pack Format.binary64
      (UnpackedFloat.add Format.binary64 p.unpacked q.unpacked)) := by
    rw [← unpack_of_parts? hp, ← unpack_of_parts? hq]
    rfl
  by_cases hzero : p.significand = 0 ∨ q.significand = 0
  · rw [Parts.add_unpacked_of_zero hp' hq' hzero] at hbits
    by_cases hp₀ : p.significand = 0
    · rw [if_pos hp₀, ← toBits_eq_pack hq] at hbits
      rw [Parts.size_eq_zero hp₀, zero_add] at h
      have hsame := signed_nearest_size hq hden h
      rw [hq', signed_false] at hsame
      exact (Float.toBits_inj.1 hbits).trans hsame.symm
    · rw [if_neg hp₀, ← toBits_eq_pack hp] at hbits
      rw [Parts.size_eq_zero (hzero.resolve_left hp₀), add_zero] at h
      have hsame := signed_nearest_size hp hden h
      rw [hp', signed_false] at hsame
      exact (Float.toBits_inj.1 hbits).trans hsame.symm
  · obtain ⟨hp₀, hq₀⟩ := not_or.1 hzero
    obtain ⟨m, e, hm, hsum, hadd⟩ := Parts.exists_add_unpacked hp' hq' hp₀ hq₀
    obtain ⟨r, t, hround, hpacked⟩ := isPacked_round hm hsum false
    rw [hadd] at hbits
    rw [hround.nearest_eq hden h, hpacked.eq_signed hbits, signed_false]

/-! ## Quotients -/

/-- The size of a number by the powers of two around it. -/
theorem Parts.size_bounds (hne : p.significand ≠ 0) :
    (2 : ℚ) ^ ((p.significand.log2 : Int) + p.exponent) ≤ p.size ∧
      p.size < 2 ^ ((p.significand.log2 : Int) + 1 + p.exponent) := by
  have hpow : (0 : ℚ) < 2 ^ p.exponent := by positivity
  have hlow : (2 : ℚ) ^ (p.significand.log2 : Int) ≤ p.significand := by
    exact_mod_cast Nat.log2_self_le hne
  have hhigh : (p.significand : ℚ) < 2 ^ ((p.significand.log2 : Int) + 1) := by
    exact_mod_cast (Nat.lt_log2_self (n := p.significand))
  rw [zpow_add₀ two_ne_zero, zpow_add₀ two_ne_zero _ p.exponent]
  exact ⟨mul_le_mul_of_nonneg_right hlow hpow.le, mul_lt_mul_of_pos_right hhigh hpow⟩

/-- A quotient by the powers of two around the two numbers. -/
theorem Parts.le_size_div_size (hp₀ : p.significand ≠ 0) (hq₀ : q.significand ≠ 0) :
    (2 : ℚ) ^ ((p.significand.log2 : Int) + p.exponent - (q.significand.log2 + 1 + q.exponent)) ≤
      p.size / q.size := by
  obtain ⟨hlow, -⟩ := size_bounds hp₀
  obtain ⟨hlow', hhigh⟩ := size_bounds hq₀
  have hpos : 0 < q.size := lt_of_lt_of_le (by positivity) hlow'
  rw [le_div_iff₀ hpos, zpow_sub₀ two_ne_zero, div_mul_eq_mul_div, div_le_iff₀ (by positivity)]
  exact mul_le_mul hlow hhigh.le hpos.le p.size_nonneg

/-- A quotient in a unit that is not above that of the two exponents: the integer quotient of two
natural numbers, and what is left over. -/
theorem Parts.size_div_size_eq (hq₀ : q.significand ≠ 0) {e : Int} {m : Nat}
    (he : e ≤ p.exponent - q.exponent)
    (hm : p.significand * 2 ^ (p.exponent - q.exponent - e).toNat = m) :
    p.size / q.size / 2 ^ e = (m / q.significand : Nat) +
      (m % q.significand : Nat) / (q.significand : ℚ) := by
  have hk : ((p.exponent - q.exponent - e).toNat : Int) = p.exponent - q.exponent - e := by omega
  rw [← natCast_div_eq m hq₀, ← hm, Nat.cast_mul, Nat.cast_pow, Nat.cast_ofNat, ← zpow_natCast, hk,
    zpow_sub₀ two_ne_zero, zpow_sub₀ two_ne_zero, size, size]
  field_simp

/-- An integer quotient is not smaller than an integer that the quotient is not smaller than. -/
theorem Parts.le_div_of_le (hq₀ : q.significand ≠ 0) {e : Int} {m n : Nat}
    (he : e ≤ p.exponent - q.exponent)
    (hm : p.significand * 2 ^ (p.exponent - q.exponent - e).toNat = m)
    (h : (n : ℚ) * 2 ^ e ≤ p.size / q.size) : n ≤ m / q.significand := by
  have hless := natCast_div_lt_one (Nat.mod_lt m (Nat.pos_of_ne_zero hq₀))
  rw [← le_div_iff₀ (by positivity), size_div_size_eq hq₀ he hm] at h
  have hlt : (n : ℚ) < (m / q.significand : Nat) + 1 := by linarith
  exact Nat.lt_succ_iff.1 (by exact_mod_cast hlt)

/-- The quotient that the hardware computes before it rounds: it has bits enough, and what is left
over is told by its accuracy. -/
theorem exists_divCore (hp₀ : p.significand ≠ 0) (hq₀ : q.significand ≠ 0)
    (hlow : (2 : ℚ) ^ (-1074 : Int) ≤ p.size / q.size) :
    ∃ m e accuracy, UnpackedFloat.divCore Format.binary64 p.significand p.exponent q.significand
        q.exponent = (m, e, accuracy) ∧ m ≠ 0 ∧
      CutTo (UnpackedFloat.ExtendedMantissa.ofMantissaAndAccuracy m accuracy)
        (p.size / q.size / 2 ^ e) ∧
      e ≤ max (m.log2 + e - 52) (-1074) := by
  have hquotient := Parts.le_size_div_size hp₀ hq₀
  generalize hlog : (p.significand.log2 : Int) + p.exponent -
    (q.significand.log2 + 1 + q.exponent) = log at hquotient
  generalize hunit : min (p.exponent - q.exponent) (max (log - 52) (-1074)) = unit
  generalize hm : p.significand * 2 ^ (p.exponent - q.exponent - unit).toNat = m
  have hle : unit ≤ p.exponent - q.exponent := by omega
  -- the unit leaves the quotient all its bits, or it is the least one
  have henough : unit ≤ -1074 ∨ 2 ^ 52 ≤ m / q.significand := by
    rw [or_iff_not_imp_left]
    intro hlarge
    refine Parts.le_div_of_le hq₀ hle hm ?_
    rw [Nat.cast_pow, Nat.cast_ofNat, ← zpow_natCast, ← zpow_add₀ two_ne_zero]
    exact (zpow_le_zpow_right₀ one_le_two (by omega)).trans hquotient
  have hne : m / q.significand ≠ 0 := by
    rcases henough with hleast | hlarge
    · refine Nat.one_le_iff_ne_zero.1 (Parts.le_div_of_le hq₀ hle hm ?_)
      rw [Nat.cast_one, one_mul]
      exact (zpow_le_zpow_right₀ one_le_two hleast).trans hlow
    · omega
  refine ⟨m / q.significand, unit,
    UnpackedFloat.accuracyOfFraction (m % q.significand) q.significand, ?_, hne, ?_, ?_⟩
  · have htarget : Format.binary64.targetExponent (totalExponent p.significand p.exponent -
        totalExponent q.significand q.exponent) = max (log - 52) (-1074) := by
      change max (((p.significand.log2 : Int) + 1 + p.exponent) -
        (q.significand.log2 + 1 + q.exponent) - 53) (-1074) = _
      omega
    unfold UnpackedFloat.divCore
    rw [htarget, hunit]
    dsimp only
    rw [Nat.shiftLeft_eq, hm]
  · rw [Parts.size_div_size_eq hq₀ hle hm]
    exact cutTo_fraction _ (Nat.mod_lt m (Nat.pos_of_ne_zero hq₀))
  · rcases henough with hleast | hlarge
    · omega
    · have hlog := (Nat.le_log2 hne).2 hlarge
      omega

/-- **A quotient is the exact quotient, rounded**, if it is not below the least number. -/
theorem div_eq_nearest (hp : parts? x = some p) (hq : parts? y = some q)
    (hp₀ : p.significand ≠ 0) (hq₀ : q.significand ≠ 0)
    (hlow : (2 : ℚ) ^ (-1074 : Int) ≤ p.size / q.size) (hden : den ≠ 0)
    (h : (num : ℚ) / den = p.size / q.size) :
    x / y = signed (p.negative ^^ q.negative) (nearest num den) := by
  have hbits : (x / y).toBits = UInt64.ofBitVec (UnpackedFloat.pack Format.binary64
      (UnpackedFloat.div Format.binary64 p.unpacked q.unpacked)) := by
    rw [← unpack_of_parts? hp, ← unpack_of_parts? hq]
    rfl
  obtain ⟨m, e, accuracy, hcore, hne, hcut, henough⟩ := exists_divCore hp₀ hq₀ hlow
  obtain ⟨r, t, hround, hpacked⟩ := isPacked_roundWithAccuracy hne hcut henough
    (p.negative ^^ q.negative)
  rw [Parts.unpacked_of_pos (Nat.pos_of_ne_zero hp₀),
    Parts.unpacked_of_pos (Nat.pos_of_ne_zero hq₀), UnpackedFloat.div, hcore, signOf_div] at hbits
  rw [hround.nearest_eq hden h]
  exact hpacked.eq_signed hbits

/-! ## Errors -/

/-- The parts of the number nearest to a ratio. -/
theorem exists_parts?_nearest (hden : den ≠ 0) (h : isFinite (nearest num den) = true) :
    ∃ p, parts? (nearest num den) = some p ∧ p.negative = false ∧
      p.size = toRat (nearest num den) := by
  obtain ⟨p, hp⟩ := Option.isSome_iff_exists.1 h
  have hpositive := negative_of_parts?_nearest hden hp
  refine ⟨p, hp, hpositive, ?_⟩
  rw [toRat, hp, Option.map_some, Option.getD_some, Parts.toRat_eq_size, hpositive,
    if_neg Bool.false_ne_true]

/-- The number nearest to a ratio of moderate size, by its parts. -/
theorem exists_parts?_nearest_error (hden : den ≠ 0) (h : IsNormal ((num : ℚ) / den)) :
    ∃ r, parts? (nearest num den) = some r ∧ r.negative = false ∧
      |r.size - num / den| ≤ num / den / 2 ^ 53 := by
  obtain ⟨hfinite, herror⟩ := h.abs_toRat_nearest_sub_le hden
  obtain ⟨r, hr, hr₀, hsize⟩ := exists_parts?_nearest hden hfinite
  rw [← hsize] at herror
  exact ⟨r, hr, hr₀, herror⟩

/-- A sum is off by `2 ^ -53` of it at most. -/
theorem exists_parts?_add (hp : parts? x = some p) (hq : parts? y = some q)
    (hp₀ : p.negative = false) (hq₀ : q.negative = false) (h : IsNormal (p.size + q.size)) :
    ∃ r, parts? (x + y) = some r ∧ r.negative = false ∧
      |r.size - (p.size + q.size)| ≤ (p.size + q.size) / 2 ^ 53 := by
  obtain ⟨num, den, hden, hratio⟩ := exists_ratio (add_nonneg p.size_nonneg q.size_nonneg)
  rw [add_eq_nearest hp hq hp₀ hq₀ hden hratio]
  rw [← hratio] at h ⊢
  exact exists_parts?_nearest_error hden h

/-- A product is off by `2 ^ -53` of it at most. -/
theorem exists_parts?_mul (hp : parts? x = some p) (hq : parts? y = some q)
    (hp₀ : p.negative = false) (hq₀ : q.negative = false) (h : IsNormal (p.size * q.size)) :
    ∃ r, parts? (x * y) = some r ∧ r.negative = false ∧
      |r.size - p.size * q.size| ≤ p.size * q.size / 2 ^ 53 := by
  obtain ⟨num, den, hden, hratio⟩ := exists_ratio (mul_nonneg p.size_nonneg q.size_nonneg)
  rw [mul_eq_nearest hp hq hden hratio, hp₀, hq₀, Bool.xor_false, signed_false]
  rw [← hratio] at h ⊢
  exact exists_parts?_nearest_error hden h

end

end Spreadsheet.Number
