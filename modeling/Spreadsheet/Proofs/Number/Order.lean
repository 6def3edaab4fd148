import Spreadsheet.Proofs.Number.Finite

/-!
# The order of numbers

A finite number is a rational one (`toRat`): a signed multiple of the least positive number, and the
multiple grows with the bits below the sign (`units_strictMono`). So the total order of numbers is
the order of the rationals, but that it tells the two zeros apart (`compareTotal_eq`,
`eq_or_zeros_of_toRat_eq`).
-/

namespace Spreadsheet.Number

/-- The rational number that is taken apart. -/
def Parts.toRat (p : Parts) : ℚ :=
  (if p.negative then -1 else 1) * p.significand * 2 ^ p.exponent

/-- The rational number that a finite number is. -/
def toRat (x : Float) : ℚ :=
  ((parts? x).map Parts.toRat).getD 0

/-- Both zeros are zero. -/
theorem toRat_neg_zero : toRat (-0) = toRat 0 := by
  have hplus : parts? 0 = some ⟨false, 0, -1074⟩ := by decide
  have hminus : parts? (-0) = some ⟨true, 0, -1074⟩ := by decide
  simp [toRat, hplus, hminus, Parts.toRat]

/-! ## Multiples of the least number -/

/-- The multiple of the least positive number that bits below the sign stand for. -/
def units (magnitude : Nat) : Nat :=
  if magnitude / 0x10000000000000 = 0 then magnitude % 0x10000000000000
  else (0x10000000000000 + magnitude % 0x10000000000000) * 2 ^ (magnitude / 0x10000000000000 - 1)

@[simp] theorem units_zero : units 0 = 0 := rfl

/-- The multiple grows with the bits. -/
theorem units_strictMono : StrictMono units := by
  intro m n h
  have hm : m % 0x10000000000000 < 0x10000000000000 := Nat.mod_lt _ (by decide)
  unfold units
  by_cases hsame : m / 0x10000000000000 = n / 0x10000000000000
  · have hless : m % 0x10000000000000 < n % 0x10000000000000 := by omega
    rw [hsame]
    split
    · exact hless
    · exact Nat.mul_lt_mul_of_pos_right (by omega) (Nat.two_pow_pos _)
  · rw [if_neg (show n / 0x10000000000000 ≠ 0 by omega)]
    have hn : 0x10000000000000 * 2 ^ (n / 0x10000000000000 - 1) ≤
        (0x10000000000000 + n % 0x10000000000000) * 2 ^ (n / 0x10000000000000 - 1) :=
      Nat.mul_le_mul_right _ (Nat.le_add_right ..)
    refine Nat.lt_of_lt_of_le ?_ hn
    split
    · have hpos := Nat.two_pow_pos (n / 0x10000000000000 - 1)
      omega
    · next hne =>
      -- one more in the exponent outweighs every fraction
      obtain ⟨k, hk⟩ : ∃ k, m / 0x10000000000000 = k + 1 :=
        ⟨m / 0x10000000000000 - 1, by omega⟩
      have hpow : 2 ^ (k + 1) ≤ 2 ^ (n / 0x10000000000000 - 1) :=
        Nat.pow_le_pow_right (by decide) (by omega)
      rw [Nat.pow_succ] at hpow
      rw [hk, Nat.add_sub_cancel]
      calc (0x10000000000000 + m % 0x10000000000000) * 2 ^ k
        _ < (2 * 0x10000000000000) * 2 ^ k :=
          Nat.mul_lt_mul_of_pos_right (by omega) (Nat.two_pow_pos k)
        _ = 0x10000000000000 * (2 ^ k * 2) := by ring
        _ ≤ _ := Nat.mul_le_mul_left _ hpow

/-- The signed multiple of the least positive number that a finite number is. -/
def signedUnits (x : Float) : Int :=
  if x.toBits.toNat < 0x8000000000000000 then units x.toBits.toNat
  else -units (x.toBits.toNat - 0x8000000000000000)

/-- The significand with its exponent above the least one. -/
theorem Parts.OfBits.significand_mul {p : Parts} {bits biased fraction : Nat}
    (h : p.OfBits bits biased fraction) :
    (p.significand : ℚ) * 2 ^ p.exponent =
      units (biased * 0x10000000000000 + fraction) * 2 ^ (-1074 : Int) := by
  have hfraction := h.fraction_lt
  have hbiased : (biased * 0x10000000000000 + fraction) / 0x10000000000000 = biased := by omega
  have hmod : (biased * 0x10000000000000 + fraction) % 0x10000000000000 = fraction := by omega
  rw [units, hbiased, hmod]
  by_cases hzero : biased = 0
  · obtain ⟨hsignificand, hexponent⟩ := h.subnormal hzero
    rw [if_pos hzero, hsignificand, hexponent]
  · obtain ⟨hsignificand, hexponent⟩ := h.normal hzero
    have hsum : p.exponent = ((biased - 1 : Nat) : Int) + -1074 := by omega
    rw [if_neg hzero, hsignificand, hsum, zpow_add₀ two_ne_zero, zpow_natCast, Nat.cast_mul,
      Nat.cast_pow, Nat.cast_ofNat, mul_assoc]

/-- A finite number is so many units, with its sign. -/
theorem toRat_eq_signedUnits {x : Float} (h : isFinite x = true) :
    toRat x = signedUnits x * 2 ^ (-1074 : Int) := by
  obtain ⟨p, hp⟩ := Option.isSome_iff_exists.1 h
  obtain ⟨biased, fraction, hbits⟩ := toBits_of_parts? hp
  have hbiased := hbits.biased_lt
  have hfraction := hbits.fraction_lt
  have hsum := hbits.bits_eq
  have hsize := hbits.significand_mul
  rw [toRat, hp, Option.map_some, Option.getD_some, Parts.toRat, mul_assoc, hsize, signedUnits]
  cases hnegative : p.negative with
  | false =>
    rw [hnegative, if_neg Bool.false_ne_true, Nat.zero_add] at hsum
    rw [hsum, if_neg Bool.false_ne_true, if_pos (by omega), one_mul, Int.cast_natCast]
  | true =>
    rw [hnegative, if_pos rfl, Nat.add_assoc] at hsum
    rw [hsum, if_pos rfl, if_neg (by omega), Nat.add_sub_cancel_left, Int.cast_neg,
      Int.cast_natCast, neg_mul, neg_mul, one_mul]

/-- Finite numbers are compared by their units. -/
theorem toRat_lt_iff {x y : Float} (hx : isFinite x = true) (hy : isFinite y = true) :
    toRat x < toRat y ↔ signedUnits x < signedUnits y := by
  have hpos : (0 : ℚ) < 2 ^ (-1074 : Int) := by positivity
  rw [toRat_eq_signedUnits hx, toRat_eq_signedUnits hy, mul_lt_mul_iff_left₀ hpos, Int.cast_lt]

/-- Finite numbers are equal if their units are. -/
theorem toRat_eq_iff {x y : Float} (hx : isFinite x = true) (hy : isFinite y = true) :
    toRat x = toRat y ↔ signedUnits x = signedUnits y := by
  have hne : (2 : ℚ) ^ (-1074 : Int) ≠ 0 := by positivity
  rw [toRat_eq_signedUnits hx, toRat_eq_signedUnits hy, mul_left_inj' hne, Int.cast_inj]

/-! ## The total order -/

variable {x y : Float}

/-- The total order never goes against the order of multiples. -/
theorem signedUnits_le_of_orderKey_le (h : orderKey x ≤ orderKey y) :
    signedUnits x ≤ signedUnits y := by
  have hmono : ∀ m n : Nat, m ≤ n → units m ≤ units n := fun _ _ h => units_strictMono.monotone h
  unfold orderKey at h
  simp only [Nat.pow_eq, Nat.reducePow] at h
  unfold signedUnits
  split at h <;> split at h
  · next hx hy =>
    rw [if_pos hx, if_pos hy]
    exact_mod_cast hmono _ _ (by omega)
  · omega
  · next hx hy =>
    rw [if_neg hx, if_pos hy]
    omega
  · next hx hy =>
    rw [if_neg hx, if_neg hy]
    have := hmono (y.toBits.toNat - 0x8000000000000000) (x.toBits.toNat - 0x8000000000000000)
      (by omega)
    omega

/-- Numbers whose keys rise do not fall. -/
theorem toRat_le_of_orderKey_le (hx : isFinite x = true) (hy : isFinite y = true)
    (h : orderKey x ≤ orderKey y) : toRat x ≤ toRat y :=
  not_lt.1 (mt (toRat_lt_iff hy hx).1 (not_lt.2 (signedUnits_le_of_orderKey_le h)))

/-- A number is told by its bits. -/
theorem eq_of_toBits {x y : Float} (h : x.toBits.toNat = y.toBits.toNat) : x = y :=
  Float.toBits_inj.1 (UInt64.toNat_inj.1 h)

/-- Different numbers have different keys. -/
theorem orderKey_injective : Function.Injective orderKey := by
  intro x y h
  unfold orderKey at h
  simp only [Nat.pow_eq, Nat.reducePow] at h
  refine eq_of_toBits ?_
  split at h <;> split at h <;> omega

/-- Numbers of the same multiple are the same number, or else they are the two zeros. -/
theorem eq_or_zeros_of_toRat_eq (hx : isFinite x = true) (hy : isFinite y = true)
    (h : toRat x = toRat y) : x = y ∨ x = -0 ∧ y = 0 ∨ x = 0 ∧ y = -0 := by
  have hunits := (toRat_eq_iff hx hy).1 h
  have hzero : ∀ m n : Nat, (units m : Int) = -units n → m = 0 ∧ n = 0 := by
    intro m n hmn
    have hm : units m = units 0 := by rw [units_zero]; omega
    have hn : units n = units 0 := by rw [units_zero]; omega
    exact ⟨units_strictMono.injective hm, units_strictMono.injective hn⟩
  have hplus : (0 : Float).toBits.toNat = 0 := rfl
  have hminus : (-0 : Float).toBits.toNat = 0x8000000000000000 := rfl
  unfold signedUnits at hunits
  split at hunits <;> split at hunits
  · exact .inl (eq_of_toBits (units_strictMono.injective (Int.ofNat_inj.1 hunits)))
  · obtain ⟨hx₀, hy₀⟩ := hzero _ _ hunits
    exact .inr (.inr ⟨eq_of_toBits (by omega), eq_of_toBits (by omega)⟩)
  · obtain ⟨hy₀, hx₀⟩ := hzero _ _ hunits.symm
    exact .inr (.inl ⟨eq_of_toBits (by omega), eq_of_toBits (by omega)⟩)
  · have hsame := units_strictMono.injective (Int.ofNat_inj.1 (neg_injective hunits))
    exact .inl (eq_of_toBits (by omega))

/-- **The total order is the order of the rationals**, but for the two zeros. -/
theorem compareTotal_eq (hx : isFinite x = true) (hy : isFinite y = true)
    (hzeros : toRat x = toRat y → x = y) :
    compareTotal x y = compare (toRat x) (toRat y) := by
  have hless : ∀ {x y : Float}, isFinite x = true → isFinite y = true →
      (toRat x = toRat y → x = y) → orderKey x < orderKey y → toRat x < toRat y := by
    intro x y hx hy hzeros hkey
    rcases lt_or_eq_of_le (toRat_le_of_orderKey_le hx hy hkey.le) with hlt | heq
    · exact hlt
    · rw [hzeros heq] at hkey
      exact absurd hkey (lt_irrefl _)
  unfold compareTotal
  rcases lt_trichotomy (orderKey x) (orderKey y) with hkey | hkey | hkey
  · rw [compare_lt_iff_lt.2 hkey, compare_lt_iff_lt.2 (hless hx hy hzeros hkey)]
  · rw [orderKey_injective hkey, compare_eq_iff_eq.2 rfl, compare_eq_iff_eq.2 rfl]
  · rw [compare_gt_iff_gt.2 hkey,
      compare_gt_iff_gt.2 (hless hy hx (fun h => (hzeros h.symm).symm) hkey)]

end Spreadsheet.Number
