import Spreadsheet.Number.Shortest
import Spreadsheet.Proofs.Number.Finite

/-!
# Rounding to the nearest number

A ratio is rounded in the unit `2 ^ exponent` that leaves it 53 bits, or the least unit if that is
larger (`exists_nearest`). The rounding interval of a number (`Interval.Has`) has the ratios that
are rounded to it (`IsMagnitude.nearest_eq`).
-/

namespace Spreadsheet.Number

/-! ## Ratios -/

section
variable (num den : Nat) (exponent : Int)

/-- Shifting a ratio divides it by a power of two. -/
theorem shiftRatio_ratio :
    ((shiftRatio num den exponent).1 : ℚ) / (shiftRatio num den exponent).2 =
      num / den / 2 ^ exponent := by
  cases exponent with
  | ofNat e => simp [shiftRatio, div_div]
  | negSucc e => simp [shiftRatio, zpow_negSucc, div_mul_eq_mul_div]

/-- Scaling a ratio divides it by a power of ten. -/
theorem scaleRatio_ratio :
    ((scaleRatio num den exponent).1 : ℚ) / (scaleRatio num den exponent).2 =
      num / den / 10 ^ exponent := by
  cases exponent with
  | ofNat e => simp [scaleRatio, div_div]
  | negSucc e => simp [scaleRatio, zpow_negSucc, div_mul_eq_mul_div]

variable {den}

/-- A shifted ratio has no zero below. -/
theorem shiftRatio_den_ne_zero (h : den ≠ 0) : (shiftRatio num den exponent).2 ≠ 0 := by
  cases exponent with
  | ofNat e => exact Nat.mul_ne_zero h (Nat.two_pow_pos e).ne'
  | negSucc e => exact h

/-- A shifted ratio other than zero has no zero on top. -/
theorem shiftRatio_num_ne_zero {num : Nat} (h : num ≠ 0) (den : Nat) :
    (shiftRatio num den exponent).1 ≠ 0 := by
  cases exponent with
  | ofNat e => exact h
  | negSucc e => exact Nat.mul_ne_zero h (Nat.two_pow_pos _).ne'

/-- A scaled ratio has no zero below. -/
theorem scaleRatio_den_ne_zero (h : den ≠ 0) : (scaleRatio num den exponent).2 ≠ 0 := by
  cases exponent with
  | ofNat e => exact Nat.mul_ne_zero h (Nat.pow_pos (by decide)).ne'
  | negSucc e => exact h

end

section
variable {num den m : Nat}

/-- A quotient is below an integer if the ratio is. -/
theorem div_lt_iff_ratio (h : den ≠ 0) : num / den < m ↔ (num : ℚ) / den < m := by
  have hpos : (0 : ℚ) < den := Nat.cast_pos.2 (Nat.pos_of_ne_zero h)
  rw [Nat.div_lt_iff_lt_mul (Nat.pos_of_ne_zero h), div_lt_iff₀ hpos]
  exact_mod_cast Iff.rfl

variable {b i j : Nat}

/-- A ratio lies below the quotient of the powers above its numerator and below its denominator. -/
theorem ratio_lt_zpow (hb : b ≠ 0) (hnum : num < b ^ i) (hden : b ^ j ≤ den) :
    (num : ℚ) / den < (b : ℚ) ^ ((i : Int) - j) := by
  have hbase : (b : ℚ) ≠ 0 := Nat.cast_ne_zero.2 hb
  have hpow : (0 : ℚ) < (b : ℚ) ^ j := pow_pos (Nat.cast_pos.2 (Nat.pos_of_ne_zero hb)) j
  have hnum' : (num : ℚ) < (b : ℚ) ^ i := by exact_mod_cast hnum
  have hden' : (b : ℚ) ^ j ≤ den := by exact_mod_cast hden
  rw [zpow_sub₀ hbase, zpow_natCast, zpow_natCast]
  exact div_lt_div₀ hnum' hden' (by positivity) hpow

/-- A ratio lies above the quotient of the powers below its numerator and above its denominator. -/
theorem zpow_lt_ratio (hb : b ≠ 0) (hden : den ≠ 0) (hnum : b ^ i ≤ num) (hlt : den < b ^ j) :
    (b : ℚ) ^ ((i : Int) - j) < num / den := by
  have hbase : (b : ℚ) ≠ 0 := Nat.cast_ne_zero.2 hb
  have hpow : (0 : ℚ) < (b : ℚ) ^ i := pow_pos (Nat.cast_pos.2 (Nat.pos_of_ne_zero hb)) i
  have hnum' : (b : ℚ) ^ i ≤ num := by exact_mod_cast hnum
  have hlt' : (den : ℚ) < (b : ℚ) ^ j := by exact_mod_cast hlt
  have hpos : (0 : ℚ) < den := Nat.cast_pos.2 (Nat.pos_of_ne_zero hden)
  rw [zpow_sub₀ hbase, zpow_natCast, zpow_natCast]
  exact div_lt_div₀' hnum' hlt' (hpow.trans_le hnum') hpos

/-! ## To an integer -/

/-- Division gives an integer that is half the divisor away at most, and less than half if it is
odd. -/
theorem divEven_of_le (hlow : 2 * (den * m) ≤ 2 * num + den) (hhigh : 2 * num ≤ 2 * (den * m) + den)
    (hodd : m % 2 = 1 → 2 * (den * m) < 2 * num + den ∧ 2 * num < 2 * (den * m) + den)
    (hden : den ≠ 0) : divEven num den = m := by
  have hnum := Nat.div_add_mod num den
  have hmod := Nat.mod_lt num (Nat.pos_of_ne_zero hden)
  unfold divEven
  dsimp only
  generalize num / den = q at *
  generalize num % den = r at *
  have hle : q ≤ m := by
    by_contra hlt
    have hmul := Nat.mul_le_mul_left den (Nat.succ_le_of_lt (Nat.lt_of_not_le hlt))
    rw [Nat.mul_succ] at hmul
    omega
  have hge : m ≤ q + 1 := by
    by_contra hlt
    have hmul := Nat.mul_le_mul_left den (Nat.succ_le_of_lt (Nat.lt_of_not_le hlt))
    rw [Nat.mul_succ, Nat.mul_succ] at hmul
    omega
  obtain rfl | rfl : m = q ∨ m = q + 1 := by omega
  · split
    · rfl
    · split <;> omega
  · rw [Nat.mul_succ] at hlow hhigh hodd
    split
    · omega
    · split <;> omega

/-- The integer nearest to a ratio, which is even if the ratio lies between two. -/
theorem divEven_eq (hden : den ≠ 0) (hlow : (m : ℚ) - 1 / 2 ≤ num / den)
    (hhigh : (num : ℚ) / den ≤ m + 1 / 2)
    (hodd : m % 2 = 1 → (m : ℚ) - 1 / 2 < num / den ∧ (num : ℚ) / den < m + 1 / 2) :
    divEven num den = m := by
  have hpos : (0 : ℚ) < den := Nat.cast_pos.2 (Nat.pos_of_ne_zero hden)
  rw [le_div_iff₀ hpos] at hlow
  rw [div_le_iff₀ hpos] at hhigh
  rw [lt_div_iff₀ hpos, div_lt_iff₀ hpos] at hodd
  refine divEven_of_le ?_ ?_ (fun h => ⟨?_, ?_⟩) hden
  · exact_mod_cast (by linarith : (2 * (den * m) : ℚ) ≤ 2 * num + den)
  · exact_mod_cast (by linarith : (2 * num : ℚ) ≤ 2 * (den * m) + den)
  · exact_mod_cast (by linarith [(hodd h).1] : (2 * (den * m) : ℚ) < 2 * num + den)
  · exact_mod_cast (by linarith [(hodd h).2] : (2 * num : ℚ) < 2 * (den * m) + den)

end

/-! ## To a number -/

/-- A ratio is rounded in a unit that leaves it 53 bits, but not below the least unit. -/
theorem exists_nearest {num den : Nat} (hnum : num ≠ 0) (hden : den ≠ 0) :
    ∃ (exponent : Int) (n d : Nat), d ≠ 0 ∧ (n : ℚ) / d = num / den / 2 ^ exponent ∧
      -1074 ≤ exponent ∧ (n : ℚ) / d < 2 ^ 53 ∧ (exponent ≠ -1074 → 2 ^ 52 ≤ (n : ℚ) / d) ∧
      nearest num den =
        (let bits := (exponent + 1074).toNat * Nat.pow 2 52 + divEven n d
        if bits < 0x7FF0000000000000 then Float.ofBits bits.toUInt64 else infinity) := by
  have hlt : (num : ℚ) / den < 2 ^ ((num.log2 + 1 : Nat) - (den.log2 : Nat) : Int) :=
    ratio_lt_zpow two_ne_zero Nat.lt_log2_self (Nat.log2_self_le hden)
  have hgt : (2 : ℚ) ^ ((num.log2 : Nat) - (den.log2 + 1 : Nat) : Int) < num / den :=
    zpow_lt_ratio two_ne_zero hden (Nat.log2_self_le hnum) Nat.lt_log2_self
  unfold nearest
  rw [if_neg hnum]
  dsimp only
  generalize hlow : max ((num.log2 : Int) - den.log2 - 53) (-1074) = low
  have hratio := shiftRatio_ratio num den low
  have hd := shiftRatio_den_ne_zero num low hden
  have hpow : (0 : ℚ) < 2 ^ low := by positivity
  -- the lower unit leaves at most 54 bits, and at least 53 unless it is the least one
  have hsize : (num : ℚ) / den / 2 ^ low < 2 ^ 54 := by
    rw [div_lt_iff₀ hpow, ← zpow_natCast, ← zpow_add₀ two_ne_zero]
    exact hlt.trans_le (zpow_le_zpow_right₀ one_le_two (by omega))
  have hfull : low ≠ -1074 → (2 : ℚ) ^ 52 ≤ num / den / 2 ^ low := by
    intro hne
    rw [le_div_iff₀ hpow, ← zpow_natCast, ← zpow_add₀ two_ne_zero]
    exact (zpow_le_zpow_right₀ one_le_two (by omega)).trans hgt.le
  have hlimit : ((Nat.pow 2 53 : Nat) : ℚ) = 2 ^ 53 := by norm_num
  split
  · next hfits =>
    rw [div_lt_iff_ratio hd, hlimit] at hfits
    refine ⟨low, _, _, hd, hratio, by omega, hfits, fun hne => ?_, rfl⟩
    rw [hratio]
    exact hfull hne
  · next hfits =>
    rw [div_lt_iff_ratio hd, hlimit, not_lt, hratio] at hfits
    have hhalf : (num : ℚ) / den / 2 ^ (low + 1) = num / den / 2 ^ low / 2 := by
      rw [zpow_add_one₀ two_ne_zero, div_mul_eq_div_div]
    have hratio' := shiftRatio_ratio num den (low + 1)
    refine ⟨low + 1, _, _, shiftRatio_den_ne_zero num (low + 1) hden, hratio', by omega,
      ?_, fun _ => ?_, rfl⟩
    · rw [hratio', hhalf]
      linarith
    · rw [hratio', hhalf]
      linarith

/-- Whether a rational number lies in an interval. -/
def Interval.Has (i : Interval) (y : ℚ) : Prop :=
  if i.closed then i.low ≤ y ∧ y ≤ i.high else i.low < y ∧ y < i.high

/-- The test for an interval decides whether a ratio lies in it. -/
theorem Interval.contains_iff {i : Interval} {num den : Nat} (hden : den ≠ 0) :
    i.contains num den = true ↔ i.Has (num / den) := by
  have hpos : (0 : ℚ) < den := Nat.cast_pos.2 (Nat.pos_of_ne_zero hden)
  unfold contains Has
  split
  · rw [Bool.and_eq_true, decide_eq_true_eq, decide_eq_true_eq, le_div_iff₀ hpos,
      div_le_iff₀ hpos]
    exact_mod_cast Iff.rfl
  · rw [Bool.and_eq_true, decide_eq_true_eq, decide_eq_true_eq, lt_div_iff₀ hpos,
      div_lt_iff₀ hpos]
    exact_mod_cast Iff.rfl

/-- Whether `significand · 2 ^ exponent` is a finite number other than zero as it is taken apart:
the significand has 53 bits, or fewer with the least exponent. -/
structure IsMagnitude (significand : Nat) (exponent : Int) : Prop where
  ne_zero : significand ≠ 0
  significand_lt : significand < 2 ^ 53
  exponent_ge : -1074 ≤ exponent
  exponent_le : exponent ≤ 971
  full : exponent ≠ -1074 → 2 ^ 52 ≤ significand

/-- The bits of a magnitude. -/
def magnitudeBits (significand : Nat) (exponent : Int) : Nat :=
  (exponent + 1074).toNat * 2 ^ 52 + significand

section
variable {s num den : Nat} {e : Int} {z : ℚ}

/-- How far below a magnitude its interval begins, in quarters of the unit. -/
def Interval.below (s : Nat) (e : Int) : Nat :=
  if s = 2 ^ 52 ∧ -1074 < e then 1 else 2

/-- The interval of a magnitude, in its unit: the ends belong to it if the significand is even. -/
theorem Interval.has_ofParts_iff (hs : s ≠ 0) :
    (ofParts s e).Has (4 * z) ↔
      if s % 2 = 0 then (s : ℚ) - below s e / 4 ≤ z ∧ z ≤ s + 1 / 2
      else (s : ℚ) - below s e / 4 < z ∧ z < s + 1 / 2 := by
  have hle : below s e ≤ 4 * s := by
    unfold below
    split <;> omega
  have hlow : (ofParts s e).low = 4 * s - below s e := rfl
  have hcast : ((4 * s - below s e : Nat) : ℚ) = 4 * s - below s e := by
    rw [Nat.cast_sub hle]
    norm_num
  have hhigh : ((4 * s + 2 : Nat) : ℚ) = 4 * s + 2 := by norm_num
  change (if (s % 2 == 0) = true then _ else _) ↔ _
  rw [hlow, hcast]
  change (if (s % 2 == 0) = true then _ ∧ 4 * z ≤ ((4 * s + 2 : Nat) : ℚ)
    else _ ∧ 4 * z < ((4 * s + 2 : Nat) : ℚ)) ↔ _
  rw [hhigh]
  simp only [beq_iff_eq]
  split
  · constructor <;> rintro ⟨h, h'⟩ <;> constructor <;> linarith
  · constructor <;> rintro ⟨h, h'⟩ <;> constructor <;> linarith

/-- An interval begins half a unit below its magnitude at most. -/
theorem Interval.below_le (s : Nat) (e : Int) : (below s e : ℚ) ≤ 2 := by
  unfold below
  split <;> norm_num

/-- A ratio that lies in the interval of a magnitude lies nearer to it than half a unit, or at half
a unit if the significand is even. -/
theorem Interval.Has.bounds (h : (ofParts s e).Has (4 * z)) (hs : s ≠ 0) :
    (s : ℚ) - below s e / 4 ≤ z ∧ z ≤ s + 1 / 2 ∧
      (s % 2 = 1 → (s : ℚ) - 1 / 2 < z ∧ z < s + 1 / 2) := by
  have hbelow := below_le s e
  rw [has_ofParts_iff hs] at h
  split at h
  · next heven => exact ⟨h.1, h.2, fun hodd => by omega⟩
  · exact ⟨h.1.le, h.2.le, fun _ => ⟨by linarith, h.2⟩⟩

/-- What lies between the ends of an interval lies in it. -/
theorem Interval.has_of_lt (hs : s ≠ 0) (hlow : (s : ℚ) - below s e / 4 < z)
    (hhigh : z < s + 1 / 2) : (ofParts s e).Has (4 * z) := by
  rw [has_ofParts_iff hs]
  split
  · exact ⟨hlow.le, hhigh.le⟩
  · exact ⟨hlow, hhigh⟩

/-- There are only positive numbers in the interval of a magnitude. -/
theorem Interval.Has.pos (h : (ofParts s e).Has (4 * z)) (hs : s ≠ 0) : 0 < z := by
  obtain ⟨hlow, -, -⟩ := h.bounds hs
  have hbelow := below_le s e
  have hle : (1 : ℚ) ≤ s := by exact_mod_cast Nat.one_le_iff_ne_zero.2 hs
  linarith

/-- The bits of a magnitude are below those of infinity. -/
theorem IsMagnitude.magnitudeBits_lt (h : IsMagnitude s e) :
    magnitudeBits s e < 0x7FF0000000000000 := by
  have hlt := h.significand_lt
  have hge := h.exponent_ge
  have hle := h.exponent_le
  unfold magnitudeBits
  omega

/-- The bits of a ratio in the interval of a magnitude, rounded in a unit that leaves it 53 bits.
The unit is that of the magnitude, or half of it where the ratio lies below a power of two. -/
theorem IsMagnitude.bits_eq (h : IsMagnitude s e) {n d : Nat} {exponent : Int} (hd : d ≠ 0)
    (hratio : (n : ℚ) / d = z * 2 ^ (e - exponent)) (hz : (Interval.ofParts s e).Has (4 * z))
    (hge : -1074 ≤ exponent) (hlt : (n : ℚ) / d < 2 ^ 53)
    (hfull : exponent ≠ -1074 → 2 ^ 52 ≤ (n : ℚ) / d) :
    (exponent + 1074).toNat * 2 ^ 52 + divEven n d = magnitudeBits s e := by
  obtain ⟨hlow, hhigh, hodd⟩ := hz.bounds h.ne_zero
  have hbelow := Interval.below_le s e
  have hpos := (hz.pos h.ne_zero).le
  have hs : (s : ℚ) + 1 ≤ 2 ^ 53 := by exact_mod_cast h.significand_lt
  rcases lt_trichotomy exponent e with hless | rfl | hmore
  · have hfull' := h.full (by omega)
    have hdouble : z * 2 ^ (1 : Int) ≤ n / d := by
      rw [hratio]
      exact mul_le_mul_of_nonneg_left (zpow_le_zpow_right₀ one_le_two (by omega)) hpos
    rw [zpow_one] at hdouble
    obtain rfl : s = 2 ^ 52 := by
      have hle : (s : ℚ) < 2 ^ 52 + 1 := by linarith
      have hle' : s < 2 ^ 52 + 1 := by exact_mod_cast hle
      omega
    have hedge : Interval.below (2 ^ 52) e = 1 := if_pos ⟨rfl, by omega⟩
    rw [hedge] at hlow
    push_cast at hlow
    obtain rfl : e = exponent + 1 := by
      by_contra hne
      have hquadruple : z * 2 ^ (2 : Int) ≤ n / d := by
        rw [hratio]
        exact mul_le_mul_of_nonneg_left (zpow_le_zpow_right₀ one_le_two (by omega)) hpos
      norm_num at hquadruple hlow hlt
      linarith
    have hround : divEven n d = 2 ^ 53 := by
      refine divEven_eq hd ?_ ?_ (fun hodd => absurd hodd (by decide))
      · push_cast
        linarith
      · push_cast
        linarith
    rw [hround]
    unfold magnitudeBits
    omega
  · rw [sub_self, zpow_zero, mul_one] at hratio
    rw [← hratio] at hlow hhigh hodd
    rw [divEven_eq hd (by linarith) hhigh hodd]
    rfl
  · -- the ratio would need more than 53 bits
    have hge' := h.exponent_ge
    have hpow : (2 : ℚ) ^ (e - exponent) ≤ 2 ^ (-1 : Int) :=
      zpow_le_zpow_right₀ one_le_two (by omega)
    have hfull' := hfull (by omega)
    have hmul := mul_le_mul_of_nonneg_left hpow hpos
    norm_num at hmul
    linarith

/-- **A ratio in the interval of a magnitude is rounded to it.** -/
theorem IsMagnitude.nearest_eq (h : IsMagnitude s e) (hden : den ≠ 0)
    (hz : (Interval.ofParts s e).Has (4 * (num / den / 2 ^ e))) :
    nearest num den = Float.ofBits (magnitudeBits s e).toUInt64 := by
  have hnum : num ≠ 0 := by
    rintro rfl
    have hpos := hz.pos h.ne_zero
    rw [Nat.cast_zero, zero_div, zero_div] at hpos
    exact lt_irrefl _ hpos
  obtain ⟨exponent, n, d, hd, hratio, hge, hlt, hfull, hnearest⟩ := exists_nearest hnum hden
  have hshift : (n : ℚ) / d = num / den / 2 ^ e * 2 ^ (e - exponent) := by
    rw [hratio, zpow_sub₀ two_ne_zero]
    field_simp
  have hbits := h.bits_eq hd hshift hz hge hlt hfull
  rw [hnearest, Nat.pow_eq, hbits]
  exact if_pos h.magnitudeBits_lt

end

/-! ## Numbers by their magnitudes -/

/-- A finite number other than the zeros is its magnitude with its sign. -/
theorem isMagnitude_of_parts? {x : Float} {p : Parts} (hp : parts? x = some p)
    (hne : p.significand ≠ 0) :
    IsMagnitude p.significand p.exponent ∧
      signed p.negative (Float.ofBits (magnitudeBits p.significand p.exponent).toUInt64) = x := by
  have hfinite : isFinite x = true := by rw [isFinite, hp]; rfl
  obtain ⟨biased, fraction, hbits⟩ := toBits_of_parts? hp
  have hbiased := hbits.biased_lt
  have hfraction := hbits.fraction_lt
  have hparts : IsMagnitude p.significand p.exponent ∧
      magnitudeBits p.significand p.exponent = biased * 0x10000000000000 + fraction := by
    unfold magnitudeBits
    by_cases hzero : biased = 0
    · obtain ⟨hsignificand, hexponent⟩ := hbits.subnormal hzero
      refine ⟨⟨hne, ?_, ?_, ?_, ?_⟩, ?_⟩ <;> omega
    · obtain ⟨hsignificand, hexponent⟩ := hbits.normal hzero
      refine ⟨⟨hne, ?_, ?_, ?_, ?_⟩, ?_⟩ <;> omega
  refine ⟨hparts.1, signed_ofBits hfinite ?_⟩
  rw [hparts.2, hbits.bits_eq, Nat.add_assoc]

end Spreadsheet.Number
