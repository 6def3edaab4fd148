import Spreadsheet.Proofs.Number.Order
import Spreadsheet.Proofs.Number.Rounding

/-!
# The nearest number

What a ratio is rounded to is told by the rational number that it is (`RoundsTo`): by the unit
`2 ^ e` that leaves it 53 bits, or the least unit, and by the integer nearest to it in this unit. So
`nearest` depends on the rational number alone (`nearest_congr`), it keeps the order of rational
numbers (`toRat_nearest_mono`), and it is off by no more than half a unit
(`abs_toRat_nearest_sub_le`).
-/

namespace Spreadsheet.Number

/-! ## The nearest integer -/

/-- Whether an integer is the one that a rational number is rounded to: the nearest one, of two the
even one. -/
structure IsRounded (q : ℚ) (m : Nat) : Prop where
  low : (m : ℚ) - 1 / 2 ≤ q
  high : q ≤ m + 1 / 2
  odd : m % 2 = 1 → (m : ℚ) - 1 / 2 < q ∧ q < m + 1 / 2

section
variable {q q' : ℚ} {m m' num den : Nat}

/-- A ratio is divided to the integer that it is rounded to. -/
theorem IsRounded.divEven_eq (h : IsRounded (num / den) m) (hden : den ≠ 0) :
    divEven num den = m :=
  Number.divEven_eq hden h.low h.high h.odd

/-- A ratio is its integer part and a fraction. -/
theorem natCast_div_eq (num : Nat) (hden : den ≠ 0) :
    (num : ℚ) / den = (num / den : Nat) + (num % den : Nat) / (den : ℚ) := by
  have hne : (den : ℚ) ≠ 0 := Nat.cast_ne_zero.2 hden
  rw [div_eq_iff hne, add_mul, div_mul_cancel₀ _ hne]
  exact_mod_cast (Nat.div_add_mod' num den).symm

/-- A ratio with the lesser number on top is less than one. -/
theorem natCast_div_lt_one (h : num < den) : (num : ℚ) / den < 1 := by
  rw [div_lt_one (Nat.cast_pos.2 (Nat.zero_lt_of_lt h))]
  exact_mod_cast h

/-- Division to the nearest integer, of two the even one, rounds the ratio. -/
theorem isRounded_divEven (num : Nat) {den : Nat} (hden : den ≠ 0) :
    IsRounded (num / den) (divEven num den) := by
  have hpos : (0 : ℚ) < den := Nat.cast_pos.2 (Nat.pos_of_ne_zero hden)
  have hnonneg : (0 : ℚ) ≤ (num % den : Nat) / (den : ℚ) := by positivity
  have hless := natCast_div_lt_one (Nat.mod_lt num (Nat.pos_of_ne_zero hden))
  have hbelow : 2 * (num % den) < den ↔ ((num % den : Nat) : ℚ) / den < 1 / 2 := by
    rw [div_lt_div_iff₀ hpos two_pos, one_mul, mul_comm]
    exact_mod_cast Iff.rfl
  have habove : den < 2 * (num % den) ↔ 1 / 2 < ((num % den : Nat) : ℚ) / den := by
    rw [div_lt_div_iff₀ two_pos hpos, one_mul, mul_comm]
    exact_mod_cast Iff.rfl
  unfold divEven
  dsimp only
  rw [natCast_div_eq num hden]
  generalize ((num % den : Nat) : ℚ) / den = f at *
  generalize num / den = n at *
  split
  · next h =>
    rw [hbelow] at h
    exact ⟨by linarith, by linarith, fun _ => ⟨by linarith, by linarith⟩⟩
  · next h =>
    rw [hbelow, not_lt] at h
    split
    · next h' =>
      rw [habove] at h'
      refine ⟨?_, ?_, fun _ => ⟨?_, ?_⟩⟩ <;> push_cast <;> linarith
    · next h' =>
      rw [habove, not_lt] at h'
      have hhalf : f = 1 / 2 := le_antisymm h' h
      -- half-way, so the even one of the two neighbours
      rcases Nat.mod_two_eq_zero_or_one n with heven | hodd
      · rw [heven, Nat.add_zero]
        exact ⟨by linarith, by linarith, fun h => absurd h (by omega)⟩
      · rw [hodd]
        refine ⟨?_, ?_, fun h => absurd h (by omega)⟩ <;> push_cast <;> linarith

/-- Rounding keeps the order. -/
theorem IsRounded.le (h : IsRounded q m) (h' : IsRounded q' m') (hle : q ≤ q') : m ≤ m' := by
  by_contra hlt
  rw [not_le] at hlt
  have hsucc : (m' : ℚ) + 1 ≤ m := by exact_mod_cast hlt
  have hlow := h.low
  have hhigh := h'.high
  obtain rfl : m = m' + 1 := by
    have heq : (m : ℚ) = m' + 1 := by linarith
    exact_mod_cast heq
  rw [Nat.cast_add_one] at hlow
  rcases Nat.mod_two_eq_zero_or_one m' with heven | hodd
  · have hstrict := (h.odd (by omega)).1
    rw [Nat.cast_add_one] at hstrict
    linarith
  · have hstrict := (h'.odd hodd).2
    linarith

/-- A number is rounded to one integer only. -/
theorem IsRounded.eq (h : IsRounded q m) (h' : IsRounded q m') : m = m' :=
  le_antisymm (h.le h' le_rfl) (h'.le h le_rfl)

/-- An integer is rounded to itself. -/
theorem isRounded_natCast (m : Nat) : IsRounded m m := by
  refine ⟨?_, ?_, fun _ => ⟨?_, ?_⟩⟩ <;> linarith

/-- Rounding changes a number by a half at most. -/
theorem IsRounded.abs_sub_le (h : IsRounded q m) : |(m : ℚ) - q| ≤ 1 / 2 := by
  have hlow := h.low
  have hhigh := h.high
  rw [abs_le]
  constructor <;> linarith

end

/-- A rational number that is not below zero is a ratio. -/
theorem exists_ratio {q : ℚ} (h : 0 ≤ q) : ∃ num den : Nat, den ≠ 0 ∧ (num : ℚ) / den = q := by
  refine ⟨q.num.toNat, q.den, q.den_nz, ?_⟩
  have hnum : ((q.num.toNat : Nat) : ℚ) = q.num := by
    exact_mod_cast Int.toNat_of_nonneg (Rat.num_nonneg.2 h)
  rw [hnum, Rat.num_div_den]

/-! ## The unit -/

/-- Whether a rational number is rounded in the unit `2 ^ e`: this leaves it 53 bits, or fewer in
the least unit. -/
structure HasUnit (q : ℚ) (e : Int) : Prop where
  exponent_ge : -1074 ≤ e
  lt : q / 2 ^ e < 2 ^ 53
  full : e ≠ -1074 → 2 ^ 52 ≤ q / 2 ^ e

section
variable {q q' : ℚ} {e e' : Int}

/-- A greater number is rounded in a unit that is no less. -/
theorem HasUnit.le (h : HasUnit q e) (h' : HasUnit q' e') (hle : q ≤ q') : e ≤ e' := by
  by_contra hlt
  rw [not_le] at hlt
  have hge := h'.exponent_ge
  have hfull := h.full (by omega)
  have hless := h'.lt
  rw [le_div_iff₀ (by positivity)] at hfull
  rw [div_lt_iff₀ (by positivity)] at hless
  have hpow : (2 : ℚ) ^ 53 * 2 ^ e' ≤ 2 ^ 52 * 2 ^ e := by
    rw [← zpow_natCast, ← zpow_natCast, ← zpow_add₀ two_ne_zero, ← zpow_add₀ two_ne_zero]
    exact zpow_le_zpow_right₀ one_le_two (by omega)
  linarith

/-- A number is rounded in one unit only. -/
theorem HasUnit.eq (h : HasUnit q e) (h' : HasUnit q e') : e = e' :=
  le_antisymm (h.le h' le_rfl) (h'.le h le_rfl)

/-- The unit of a number below a power of two is 53 bits below it, but for the least unit. -/
theorem HasUnit.le_of_lt (h : HasUnit q e) {k : Int} (hq : q < 2 ^ k) (hk : -1021 ≤ k) :
    e ≤ k - 53 := by
  by_contra hlt
  rw [not_le] at hlt
  have hfull := h.full (by omega)
  rw [le_div_iff₀ (by positivity), ← zpow_natCast, ← zpow_add₀ two_ne_zero] at hfull
  have hless := (zpow_lt_zpow_iff_right₀ one_lt_two).1 (hfull.trans_lt hq)
  omega

end

/-! ## Rational numbers rounded -/

/-- Whether a rational number is rounded to `m · 2 ^ e`. -/
structure RoundsTo (q : ℚ) (m : Nat) (e : Int) : Prop where
  unit : HasUnit q e
  integer : IsRounded (q / 2 ^ e) m

/-- The number of bits below the sign; beyond those of the finite numbers it is infinity. -/
def ofMagnitude (bits : Nat) : Float :=
  if bits < 0x7FF0000000000000 then Float.ofBits bits.toUInt64 else infinity

section
variable {q q' : ℚ} {m m' num den : Nat} {e e' : Int}

/-- A significand has 53 bits, or is the least number with 54. -/
theorem RoundsTo.significand_le (h : RoundsTo q m e) : m ≤ 2 ^ 53 := by
  refine h.integer.le (isRounded_natCast (2 ^ 53)) ?_
  push_cast
  exact h.unit.lt.le

/-- A significand has all its bits, except in the least unit. -/
theorem RoundsTo.le_significand (h : RoundsTo q m e) (he : e ≠ -1074) : 2 ^ 52 ≤ m := by
  refine (isRounded_natCast (2 ^ 52)).le h.integer ?_
  push_cast
  exact h.unit.full he

/-- Greater numbers have greater bits, so rounding is monotone in them. -/
theorem RoundsTo.magnitudeBits_le (h : RoundsTo q m e) (h' : RoundsTo q' m' e') (hle : q ≤ q') :
    magnitudeBits m e ≤ magnitudeBits m' e' := by
  have hunit := h.unit.le h'.unit hle
  have hge := h.unit.exponent_ge
  unfold magnitudeBits
  rcases eq_or_lt_of_le hunit with rfl | hlt
  · have hinteger := h.integer.le h'.integer (div_le_div_of_nonneg_right hle (by positivity))
    omega
  · have hsmall := h.significand_le
    have hlarge := h'.le_significand (by omega)
    omega

/-- A number is rounded to one significand and one exponent only. -/
theorem RoundsTo.eq (h : RoundsTo q m e) (h' : RoundsTo q m' e') : m = m' ∧ e = e' := by
  obtain rfl := h.unit.eq h'.unit
  exact ⟨h.integer.eq h'.integer, rfl⟩

/-- Zero is rounded to zero. -/
theorem roundsTo_zero : RoundsTo 0 0 (-1074) := by
  refine ⟨⟨le_rfl, ?_, fun h => absurd rfl h⟩, ?_⟩
  · rw [zero_div]
    positivity
  · rw [zero_div]
    exact isRounded_natCast 0

/-- The number without any bits is zero. -/
theorem ofMagnitude_zero : ofMagnitude 0 = 0 :=
  Float.toBits_inj.1 rfl

/-- What a ratio is rounded to. -/
theorem exists_roundsTo (num : Nat) {den : Nat} (hden : den ≠ 0) :
    ∃ m e, RoundsTo (num / den) m e ∧ nearest num den = ofMagnitude (magnitudeBits m e) := by
  by_cases hnum : num = 0
  · refine ⟨0, -1074, ?_, ?_⟩
    · rw [hnum, Nat.cast_zero, zero_div]
      exact roundsTo_zero
    · rw [nearest, if_pos hnum]
      exact ofMagnitude_zero.symm
  · obtain ⟨e, n, d, hd, hratio, hge, hlt, hfull, hnearest⟩ := exists_nearest hnum hden
    rw [hratio] at hlt hfull
    refine ⟨divEven n d, e, ⟨⟨hge, hlt, hfull⟩, ?_⟩, hnearest⟩
    rw [← hratio]
    exact isRounded_divEven n hd

/-- A ratio is rounded to what the rational number is rounded to that it is. -/
theorem RoundsTo.nearest_eq (h : RoundsTo q m e) (hden : den ≠ 0) (hq : (num : ℚ) / den = q) :
    nearest num den = ofMagnitude (magnitudeBits m e) := by
  obtain ⟨m', e', h', hnearest⟩ := exists_roundsTo num hden
  rw [hq] at h'
  obtain ⟨rfl, rfl⟩ := h.eq h'
  exact hnearest

/-- Rounding a ratio is rounding a rational number. -/
theorem nearest_congr {num' den' : Nat} (hden : den ≠ 0) (hden' : den' ≠ 0)
    (h : (num : ℚ) / den = num' / den') : nearest num den = nearest num' den' := by
  obtain ⟨m, e, hround, hnearest⟩ := exists_roundsTo num' hden'
  rw [hnearest]
  exact hround.nearest_eq hden h

/-! ## Values -/

/-- The bits of a finite magnitude are those it is made of. -/
theorem toNat_toBits_ofMagnitude {bits : Nat} (h : bits < 0x7FF0000000000000) :
    (ofMagnitude bits).toBits.toNat = bits := by
  have hback : bits.toUInt64.toNat = bits :=
    UInt64.toNat_ofNat_of_lt' (by exact Nat.lt_trans h (by decide))
  rw [ofMagnitude, if_pos h, toBits_ofBits (by rwa [hback]), hback]

/-- A magnitude is finite if its bits are below those of infinity. -/
theorem isFinite_ofMagnitude_iff {bits : Nat} :
    isFinite (ofMagnitude bits) = true ↔ bits < 0x7FF0000000000000 := by
  constructor
  · intro h
    by_contra hlarge
    rw [ofMagnitude, if_neg hlarge] at h
    exact absurd h (by decide)
  · intro h
    rw [isFinite_iff, toNat_toBits_ofMagnitude h]
    omega

/-- The value of a magnitude is its units, counted in the least number there is. -/
theorem toRat_ofMagnitude {bits : Nat} (h : bits < 0x7FF0000000000000) :
    toRat (ofMagnitude bits) = units bits * 2 ^ (-1074 : Int) := by
  rw [toRat_eq_signedUnits (isFinite_ofMagnitude_iff.2 h), signedUnits, toNat_toBits_ofMagnitude h,
    if_pos (by omega), Int.cast_natCast]

/-- The units of a significand, shifted to its exponent. -/
theorem units_magnitudeBits (hle : m ≤ 2 ^ 53) (hfull : e ≠ -1074 → 2 ^ 52 ≤ m) :
    units (magnitudeBits m e) = m * 2 ^ (e + 1074).toNat := by
  unfold units magnitudeBits
  generalize hn : (e + 1074).toNat = n
  by_cases hsmall : m < 2 ^ 52
  · have hn' : n = 0 := by omega
    have hdiv : (n * 2 ^ 52 + m) / 0x10000000000000 = 0 := by omega
    have hmod : (n * 2 ^ 52 + m) % 0x10000000000000 = m := by omega
    rw [hdiv, if_pos rfl, hmod, hn', Nat.pow_zero, Nat.mul_one]
  · by_cases hcarry : m = 2 ^ 53
    · have hdiv : (n * 2 ^ 52 + m) / 0x10000000000000 = n + 2 := by omega
      have hmod : (n * 2 ^ 52 + m) % 0x10000000000000 = 0 := by omega
      rw [hdiv, if_neg (by omega), hmod, hcarry, Nat.add_zero, Nat.add_sub_assoc (by decide),
        Nat.pow_add]
      ring
    · have hdiv : (n * 2 ^ 52 + m) / 0x10000000000000 = n + 1 := by omega
      have hmod : (n * 2 ^ 52 + m) % 0x10000000000000 = m - 2 ^ 52 := by omega
      rw [hdiv, if_neg (by omega), hmod, Nat.add_sub_cancel,
        show 0x10000000000000 + (m - 2 ^ 52) = m by omega]

/-- A rational number that is rounded to a finite number is rounded to `m · 2 ^ e`. -/
theorem RoundsTo.toRat_eq (h : RoundsTo q m e) (hlt : magnitudeBits m e < 0x7FF0000000000000) :
    toRat (ofMagnitude (magnitudeBits m e)) = m * 2 ^ e := by
  have hge := h.unit.exponent_ge
  have hexponent : ((e + 1074).toNat : Int) + -1074 = e := by omega
  rw [toRat_ofMagnitude hlt, units_magnitudeBits h.significand_le h.le_significand,
    Nat.cast_mul, Nat.cast_pow, Nat.cast_ofNat, mul_assoc, ← zpow_natCast, ← zpow_add₀ two_ne_zero,
    hexponent]

/-- **Rounding to the nearest number keeps the order.** -/
theorem toRat_nearest_mono {num' den' : Nat} (hden : den ≠ 0) (hden' : den' ≠ 0)
    (hle : (num : ℚ) / den ≤ num' / den') (hfinite : isFinite (nearest num' den') = true) :
    isFinite (nearest num den) = true ∧ toRat (nearest num den) ≤ toRat (nearest num' den') := by
  obtain ⟨m, e, hround, hnearest⟩ := exists_roundsTo num hden
  obtain ⟨m', e', hround', hnearest'⟩ := exists_roundsTo num' hden'
  rw [hnearest'] at hfinite ⊢
  rw [isFinite_ofMagnitude_iff] at hfinite
  have hbits := hround.magnitudeBits_le hround' hle
  have hlt := hbits.trans_lt hfinite
  rw [hnearest, isFinite_ofMagnitude_iff, toRat_ofMagnitude hlt, toRat_ofMagnitude hfinite]
  have hunits : (units (magnitudeBits m e) : ℚ) ≤ units (magnitudeBits m' e') := by
    exact_mod_cast units_strictMono.monotone hbits
  exact ⟨hlt, mul_le_mul_of_nonneg_right hunits (by positivity)⟩

/-- What a ratio is rounded to is not negative. -/
theorem toRat_nearest_nonneg (num : Nat) {den : Nat} (hden : den ≠ 0) :
    0 ≤ toRat (nearest num den) := by
  obtain ⟨m, e, -, hnearest⟩ := exists_roundsTo num hden
  by_cases hlt : magnitudeBits m e < 0x7FF0000000000000
  · rw [hnearest, toRat_ofMagnitude hlt]
    positivity
  · rw [hnearest, ofMagnitude, if_neg hlt]
    decide +kernel

/-- What a ratio is rounded to is finite if it is so with a sign. -/
theorem isFinite_of_signed_nearest (hden : den ≠ 0) {negative : Bool}
    (h : isFinite (signed negative (nearest num den)) = true) :
    isFinite (nearest num den) = true := by
  obtain ⟨m, e, -, hnearest⟩ := exists_roundsTo num hden
  rw [hnearest] at h ⊢
  rw [isFinite_ofMagnitude_iff]
  by_contra hlarge
  rw [ofMagnitude, if_neg hlarge] at h
  revert h
  cases negative <;> decide

/-- The number nearest to a ratio has no minus sign. -/
theorem negative_of_parts?_nearest (hden : den ≠ 0) {p : Parts}
    (hp : parts? (nearest num den) = some p) : p.negative = false := by
  obtain ⟨m, e, -, hnearest⟩ := exists_roundsTo num hden
  have hlt : magnitudeBits m e < 0x7FF0000000000000 := by
    rw [← isFinite_ofMagnitude_iff, ← hnearest, isFinite, hp]
    rfl
  obtain ⟨biased, fraction, h⟩ := toBits_of_parts? hp
  have hbits := h.bits_eq
  rw [hnearest, toNat_toBits_ofMagnitude hlt] at hbits
  by_contra hnegative
  rw [if_pos (Bool.not_eq_false _ ▸ hnegative)] at hbits
  omega

/-- **Rounding to the nearest number is off by no more than half a unit**, which lies 54 bits below
any power of two above. -/
theorem abs_toRat_nearest_sub_le (hden : den ≠ 0) {k : Int} (hlt : (num : ℚ) / den < 2 ^ k)
    (hlow : -1021 ≤ k) (hhigh : k ≤ 1023) :
    isFinite (nearest num den) = true ∧ |toRat (nearest num den) - num / den| ≤ 2 ^ (k - 54) := by
  obtain ⟨m, e, hround, hnearest⟩ := exists_roundsTo num hden
  have hge := hround.unit.exponent_ge
  have hexponent := hround.unit.le_of_lt hlt hlow
  have hsignificand := hround.significand_le
  have hbits : magnitudeBits m e < 0x7FF0000000000000 := by
    unfold magnitudeBits
    omega
  rw [hnearest, isFinite_ofMagnitude_iff, hround.toRat_eq hbits]
  refine ⟨hbits, ?_⟩
  have hpos : (0 : ℚ) < 2 ^ e := by positivity
  have herror := mul_le_mul_of_nonneg_right hround.integer.abs_sub_le hpos.le
  calc |(m : ℚ) * 2 ^ e - num / den|
    _ = |(m : ℚ) - num / den / 2 ^ e| * 2 ^ e := by
      rw [← abs_of_pos hpos, ← abs_mul, abs_of_pos hpos, sub_mul, div_mul_cancel₀ _ hpos.ne']
    _ ≤ 1 / 2 * 2 ^ e := herror
    _ = 2 ^ (e - 1) := by rw [zpow_sub_one₀ two_ne_zero, mul_comm, one_div]
    _ ≤ 2 ^ (k - 54) := zpow_le_zpow_right₀ one_le_two (by omega)

/-- Whether a rational number is neither below the numbers with all their bits, nor too large. -/
structure IsNormal (q : ℚ) : Prop where
  low : 2 ^ (-1022 : Int) ≤ q
  high : q < 2 ^ (1023 : Int)

/-- Rational numbers of a moderate size. -/
theorem isNormal_of_le (hlow : 2 ^ (-60 : Int) ≤ q) (hhigh : q < 2 ^ (60 : Int)) : IsNormal q :=
  ⟨(zpow_le_zpow_right₀ one_le_two (by decide)).trans hlow,
    hhigh.trans_le (zpow_le_zpow_right₀ one_le_two (by decide))⟩

/-- A normal number is rounded with an error of `2 ^ -53` of it at most. -/
theorem IsNormal.abs_toRat_nearest_sub_le (h : IsNormal ((num : ℚ) / den)) (hden : den ≠ 0) :
    isFinite (nearest num den) = true ∧
      |toRat (nearest num den) - num / den| ≤ num / den / 2 ^ 53 := by
  have hpos : (0 : ℚ) < num / den := lt_of_lt_of_le (by positivity) h.low
  have hlog := Int.lt_zpow_succ_log_self one_lt_two ((num : ℚ) / den)
  have hlog' := Int.zpow_log_le_self one_lt_two hpos
  push_cast at hlog hlog'
  have hge : -1022 ≤ Int.log 2 ((num : ℚ) / den) := by
    have hlt := (zpow_lt_zpow_iff_right₀ one_lt_two).1 (h.low.trans_lt hlog)
    omega
  have hle : Int.log 2 ((num : ℚ) / den) < 1023 :=
    (zpow_lt_zpow_iff_right₀ one_lt_two).1 (hlog'.trans_lt h.high)
  obtain ⟨hfinite, herror⟩ := Number.abs_toRat_nearest_sub_le hden hlog (by omega) (by omega)
  refine ⟨hfinite, herror.trans ?_⟩
  have hexponent : Int.log 2 ((num : ℚ) / den) + 1 - 54 = Int.log 2 ((num : ℚ) / den) - 53 := by
    ring
  rw [hexponent, zpow_sub₀ two_ne_zero]
  exact div_le_div_of_nonneg_right hlog' (by positivity)

/-- A natural number of up to 53 bits is not rounded. -/
theorem toRat_nearest_one {m : Nat} (h : m < 2 ^ 53) :
    isFinite (nearest m 1) = true ∧ toRat (nearest m 1) = m := by
  obtain ⟨s, e, hround, hnearest⟩ := exists_roundsTo m one_ne_zero
  rw [Nat.cast_one, div_one] at hround
  have hlt : (m : ℚ) < 2 ^ (53 : Int) := by exact_mod_cast h
  have hge := hround.unit.exponent_ge
  have hexponent := hround.unit.le_of_lt hlt (by decide)
  have hs : s = m * 2 ^ (-e).toNat := by
    refine hround.integer.eq ?_
    have hinteger : (m : ℚ) / 2 ^ e = (m * 2 ^ (-e).toNat : Nat) := by
      have he : (2 : ℚ) ^ (-e).toNat = (2 ^ e)⁻¹ := by
        rw [← zpow_natCast, ← zpow_neg, Int.toNat_of_nonneg (by omega)]
      push_cast
      rw [he, div_eq_mul_inv]
    rw [hinteger]
    exact isRounded_natCast _
  have hsignificand := hround.significand_le
  have hbits : magnitudeBits s e < 0x7FF0000000000000 := by
    unfold magnitudeBits
    omega
  rw [hnearest, isFinite_ofMagnitude_iff, hround.toRat_eq hbits, hs]
  refine ⟨by rwa [← hs], ?_⟩
  have he : (2 : ℚ) ^ (-e).toNat * 2 ^ e = 1 := by
    rw [← zpow_natCast, ← zpow_add₀ two_ne_zero, Int.toNat_of_nonneg (by omega), neg_add_cancel,
      zpow_zero]
  push_cast
  rw [mul_assoc, he, mul_one]

end

end Spreadsheet.Number
