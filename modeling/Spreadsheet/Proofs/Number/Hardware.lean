import Spreadsheet.Proofs.Number.Nearest
import Spreadsheet.Proofs.Number.Unpacked

/-!
# Rounding by the hardware

The hardware has what it computes as a mantissa with two residual bits that tell the rest
(`CutTo`). It shifts the mantissa to the unit of its number and rounds it (`CutTo.isRounded`), and
packs what comes out to bits (`isPacked_pack`). So a result of the hardware is the exact one,
rounded to the nearest number (`isPacked_roundWithAccuracy`).
-/

namespace Spreadsheet.Number

open Float.Model

/-! ## Residual bits -/

open UnpackedFloat (ExtendedMantissa Accuracy)

/-- What a mantissa and its round bit are together, in halves. -/
def halves (em : ExtendedMantissa) : Nat :=
  2 * em.mantissa + em.roundBit.toNat

/-- Whether a mantissa and its round bit are what a rational number is cut off to, the sticky bit
telling whether anything was cut off. -/
structure CutTo (em : ExtendedMantissa) (z : ℚ) : Prop where
  low : (halves em : ℚ) ≤ 2 * z
  high : 2 * z < halves em + 1
  sticky : em.stickyBit = true ↔ (halves em : ℚ) < 2 * z

section
variable {em : ExtendedMantissa} {z : ℚ}

/-- A shift by one bit cuts off half the number. -/
theorem CutTo.shiftRightOne (h : CutTo em z) : CutTo em.shiftRightOne (z / 2) := by
  have hlow := h.low
  have hhigh := h.high
  have hsticky := h.sticky
  have hhalves : halves em.shiftRightOne = em.mantissa := by
    unfold halves ExtendedMantissa.shiftRightOne
    rcases Nat.mod_two_eq_zero_or_one em.mantissa with hmod | hmod <;> simp [hmod] <;> omega
  have hdouble : 2 * (z / 2) = z := by ring
  obtain ⟨mantissa, roundBit, stickyBit⟩ := em
  cases roundBit with
  | false =>
    simp only [halves, Bool.toNat_false, Nat.add_zero, Nat.cast_mul, Nat.cast_ofNat]
      at hlow hhigh hsticky
    refine ⟨?_, ?_, ?_⟩ <;> rw [hhalves, hdouble]
    · linarith
    · linarith
    · rw [ExtendedMantissa.shiftRightOne, Bool.false_or, hsticky]
      constructor <;> intro <;> linarith
  | true =>
    simp only [halves, Bool.toNat_true, Nat.cast_add, Nat.cast_mul, Nat.cast_ofNat, Nat.cast_one]
      at hlow hhigh
    refine ⟨?_, ?_, ?_⟩ <;> rw [hhalves, hdouble]
    · linarith
    · linarith
    · rw [ExtendedMantissa.shiftRightOne, Bool.true_or]
      exact iff_of_true rfl (by linarith)

/-- A shift by bits cuts off the number over their power of two. -/
theorem CutTo.shiftRight (h : CutTo em z) (n : Nat) : CutTo (em >>> n) (z / 2 ^ n) := by
  induction n with
  | zero => rwa [pow_zero, div_one]
  | succ n ih =>
    rw [pow_succ, ← div_div]
    exact ih.shiftRightOne

/-- The residual bits decide what the number is rounded to. -/
theorem CutTo.isRounded (h : CutTo em z) : IsRounded z em.roundedMantissa := by
  obtain ⟨hlow, hhigh, hsticky⟩ := h
  obtain ⟨mantissa, roundBit, stickyBit⟩ := em
  have hparity := Nat.mod_two_eq_zero_or_one mantissa
  cases roundBit <;> cases stickyBit <;>
    simp only [halves, Bool.toNat_true, Bool.toNat_false, Nat.cast_add, Nat.cast_mul,
      Nat.cast_ofNat, Nat.cast_one, Nat.add_zero, Bool.false_eq_true, false_iff, true_iff, not_lt]
      at hlow hhigh hsticky
  · change IsRounded z mantissa
    refine ⟨?_, ?_, fun _ => ⟨?_, ?_⟩⟩ <;> linarith
  · change IsRounded z mantissa
    refine ⟨?_, ?_, fun _ => ⟨?_, ?_⟩⟩ <;> linarith
  · change IsRounded z (mantissa + mantissa % 2)
    rcases hparity with heven | hodd
    · rw [heven, Nat.add_zero]
      exact ⟨by linarith, by linarith, fun h => absurd h (by omega)⟩
    · rw [hodd]
      refine ⟨?_, ?_, fun h => absurd h (by omega)⟩ <;> push_cast <;> linarith
  · change IsRounded z (mantissa + 1)
    refine ⟨?_, ?_, fun _ => ⟨?_, ?_⟩⟩ <;> push_cast <;> linarith

/-- An integer is cut off to itself. -/
theorem cutTo_exact (m : Nat) :
    CutTo (ExtendedMantissa.ofMantissaAndAccuracy m .exact) m := by
  refine ⟨?_, ?_, iff_of_false Bool.false_ne_true ?_⟩ <;>
    simp [ExtendedMantissa.ofMantissaAndAccuracy, halves]

/-- An integer with a fraction is cut off to the integer, and the accuracy tells of the fraction. -/
theorem cutTo_fraction (m : Nat) {num den : Nat} (h : num < den) :
    CutTo (ExtendedMantissa.ofMantissaAndAccuracy m
      (UnpackedFloat.accuracyOfFraction num den)) (m + num / den) := by
  have hpos : (0 : ℚ) < den := by exact_mod_cast Nat.zero_lt_of_lt h
  have hlt := natCast_div_lt_one h
  unfold UnpackedFloat.accuracyOfFraction
  split
  · next hzero =>
    rw [hzero, Nat.cast_zero, zero_div, add_zero]
    exact cutTo_exact m
  · next hne =>
    have hgt : (0 : ℚ) < num / den := div_pos (by exact_mod_cast Nat.pos_of_ne_zero hne) hpos
    rcases lt_trichotomy (2 * num) den with hless | heq | hmore
    · have hhalf : (num : ℚ) / den < 1 / 2 := by
        rw [div_lt_div_iff₀ hpos two_pos]
        exact_mod_cast (by omega : num * 2 < 1 * den)
      rw [compare_lt_iff_lt.2 hless]
      refine ⟨?_, ?_, iff_of_true rfl ?_⟩ <;>
        simp [ExtendedMantissa.ofMantissaAndAccuracy, halves] <;> linarith
    · have hhalf : (num : ℚ) / den = 1 / 2 := by
        rw [div_eq_div_iff hpos.ne' two_ne_zero]
        exact_mod_cast (by omega : num * 2 = 1 * den)
      rw [compare_eq_iff_eq.2 heq, hhalf]
      refine ⟨?_, ?_, iff_of_false Bool.false_ne_true ?_⟩ <;>
        simp [ExtendedMantissa.ofMantissaAndAccuracy, halves] <;> linarith
    · have hhalf : 1 / 2 < (num : ℚ) / den := by
        rw [div_lt_div_iff₀ two_pos hpos]
        exact_mod_cast (by omega : 1 * den < num * 2)
      rw [compare_gt_iff_gt.2 hmore]
      refine ⟨?_, ?_, iff_of_true rfl ?_⟩ <;>
        simp [ExtendedMantissa.ofMantissaAndAccuracy, halves] <;> linarith

end

/-! ## Packing -/

/-- The bits of a packed number: the sign, the exponent and the mantissa side by side. -/
theorem toNat_packComponents (s : UnpackedFloat.Sign) (e : BitVec Format.binary64.exponentBits)
    (m : BitVec Format.binary64.mantissaBitsWithoutImplicit) :
    (UnpackedFloat.packComponents Format.binary64 s e m).toNat =
      s.toBitVec.toNat * 0x8000000000000000 + e.toNat * 0x10000000000000 + m.toNat := by
  have hm : m.toNat < 2 ^ 52 := m.isLt
  have he : e.toNat < 2 ^ 11 := e.isLt
  change (s.toBitVec ++ e ++ m).toNat = _
  rw [BitVec.toNat_append, BitVec.toNat_append, ← Nat.shiftLeft_add_eq_or_of_lt hm,
    ← Nat.shiftLeft_add_eq_or_of_lt he, Nat.shiftLeft_eq, Nat.shiftLeft_eq]
  omega

/-- The bit of a sign is set for a negative number. -/
theorem toNat_toBitVec_signOf (negative : Bool) :
    (signOf negative).toBitVec.toNat = negative.toNat := by
  cases negative <;> rfl

/-- Whether bits are those of a magnitude with a sign, or of infinity if there is no such number. -/
def IsPacked (b : BitVec Format.binary64.numBits) (negative : Bool) (bits : Nat) : Prop :=
  b.toNat = negative.toNat * 0x8000000000000000 + min bits 0x7FF0000000000000

/-- Packed bits are those of the magnitude with its sign. -/
theorem IsPacked.eq_signed {x : Float} {b : BitVec Format.binary64.numBits} {negative : Bool}
    {bits : Nat} (h : IsPacked b negative bits) (hx : x.toBits = UInt64.ofBitVec b) :
    x = signed negative (ofMagnitude bits) := by
  have hbits : x.toBits.toNat =
      negative.toNat * 0x8000000000000000 + min bits 0x7FF0000000000000 := by
    rw [hx]
    exact h
  by_cases hlt : bits < 0x7FF0000000000000
  · rw [Nat.min_eq_left hlt.le] at hbits
    have hfinite : isFinite x = true := by
      rw [isFinite_iff, hbits]
      cases negative <;> simp <;> omega
    rw [ofMagnitude, if_pos hlt]
    refine (signed_ofBits hfinite ?_).symm
    rw [hbits]
    cases negative <;> simp
  · rw [Nat.min_eq_right (not_lt.1 hlt)] at hbits
    rw [ofMagnitude, if_neg hlt]
    apply eq_of_toBits
    rw [hbits]
    cases negative <;> rfl

/-- The hardware packs a magnitude to its bits. -/
theorem isPacked_pack {m : Nat} {e : Int} (hpos : 0 < m) (hlt : m < 2 ^ 53) (hge : -1074 ≤ e)
    (hfull : e ≠ -1074 → 2 ^ 52 ≤ m) (negative : Bool) :
    IsPacked (UnpackedFloat.pack Format.binary64 (.finite (signOf negative) m e hpos)) negative
      (magnitudeBits m e) := by
  have hbiased : e + (Format.binary64.exponentBias : Int) +
      (Format.binary64.mantissaBitsWithoutImplicit : Int) = e + 1075 := by
    change e + 1023 + 52 = e + 1075
    ring
  unfold IsPacked UnpackedFloat.pack
  dsimp only
  rw [hbiased]
  change (if 2048 ≤ (e + 1075).toNat + 1 then _ else if m.log2 + 1 = 53 then _ else _ :
    BitVec Format.binary64.numBits).toNat = _
  unfold magnitudeBits
  split
  · next hlarge =>
    have hsize := hfull (by omega)
    rw [UnpackedFloat.packedInfinity, toNat_packComponents, toNat_toBitVec_signOf]
    change negative.toNat * 0x8000000000000000 + 2047 * 0x10000000000000 + 0 = _
    omega
  · next hsmall =>
    split
    · next hnormal =>
      have hsize : 2 ^ 52 ≤ m := (Nat.le_log2 hpos.ne').1 (by omega)
      rw [toNat_packComponents, toNat_toBitVec_signOf, BitVec.toNat_ofNat, BitVec.toNat_ofNat]
      change negative.toNat * 0x8000000000000000 + (e + 1075).toNat % 2048 * 0x10000000000000 +
        m % 0x10000000000000 = _
      omega
    · next hsubnormal =>
      have hsize : m < 2 ^ 52 := by
        by_contra hge
        have hlog := (Nat.le_log2 hpos.ne').2 (not_lt.1 hge)
        have hlog' := (Nat.log2_lt hpos.ne').2 hlt
        omega
      rw [toNat_packComponents, toNat_toBitVec_signOf, BitVec.toNat_ofNat]
      change negative.toNat * 0x8000000000000000 + 0 * 0x10000000000000 + m % 0x10000000000000 = _
      omega

/-- A zero is packed to its sign. -/
theorem isPacked_zero (negative : Bool) :
    IsPacked (UnpackedFloat.pack Format.binary64 (.zero (signOf negative))) negative 0 := by
  cases negative <;> rfl

/-! ## Rounding -/

/-- The exponent that is aimed at leaves 53 bits, or is the least one. -/
theorem targetExponent_eq (m : Nat) (e : Int) :
    Format.binary64.targetExponent (totalExponent m e) = max (m.log2 + e - 52) (-1074) := by
  change max ((m.log2 : Int) + 1 + e - 53) (-1074) = _
  omega

/-- A mantissa is shifted to the exponent that is aimed at. -/
theorem shiftToTargetExponent_eq (m : Nat) (e : Int) (accuracy : Accuracy) :
    UnpackedFloat.shiftToTargetExponent Format.binary64 m e accuracy =
      (ExtendedMantissa.ofMantissaAndAccuracy m accuracy >>>
        (max (m.log2 + e - 52) (-1074) - e).toNat,
        e + ((max (m.log2 + e - 52) (-1074) - e).toNat : Int)) := by
  rw [← targetExponent_eq]
  rfl

/-- What the hardware makes of a rounded mantissa: one that has got a bit too long is shifted once
more. -/
theorem isPacked_shifted {q : ℚ} {m : Nat} {e : Int} (h : RoundsTo q m e) (negative : Bool) :
    let shifted := UnpackedFloat.shiftToTargetExponent Format.binary64 m e .exact
    IsPacked (UnpackedFloat.pack Format.binary64 (if h : shifted.1.mantissa = 0 then
      .zero (signOf negative) else .finite (signOf negative) shifted.1.mantissa shifted.2
        (Nat.pos_of_ne_zero h))) negative (magnitudeBits m e) := by
  have hge := h.unit.exponent_ge
  rw [shiftToTargetExponent_eq]
  dsimp only
  rcases lt_or_eq_of_le h.significand_le with hlt | rfl
  · have hstay : (max ((m.log2 : Int) + e - 52) (-1074) - e).toNat = 0 := by
      have hlog : m.log2 ≤ 52 := by
        by_cases hzero : m = 0
        · rw [hzero]
          decide
        · exact Nat.lt_succ_iff.1 ((Nat.log2_lt hzero).2 hlt)
      omega
    rw [hstay]
    change IsPacked (UnpackedFloat.pack Format.binary64 (if h : m = 0 then
      .zero (signOf negative) else .finite (signOf negative) m (e + 0)
        (Nat.pos_of_ne_zero h))) negative (magnitudeBits m e)
    rw [Int.add_zero]
    split
    · next hzero =>
      have he : e = -1074 := by
        by_contra hne
        have hfull := h.le_significand hne
        omega
      rw [hzero, he]
      exact isPacked_zero negative
    · next hne => exact isPacked_pack (Nat.pos_of_ne_zero hne) hlt hge h.le_significand negative
  · have hcarry : (max (((2 ^ 53).log2 : Int) + e - 52) (-1074) - e).toNat = 1 := by
      rw [Nat.log2_two_pow]
      omega
    rw [hcarry]
    change IsPacked (UnpackedFloat.pack Format.binary64 (.finite (signOf negative) (2 ^ 52) (e + 1)
      (by decide))) negative (magnitudeBits (2 ^ 53) e)
    have hbits : magnitudeBits (2 ^ 53) e = magnitudeBits (2 ^ 52) (e + 1) := by
      unfold magnitudeBits
      omega
    rw [hbits]
    exact isPacked_pack (by decide) (by decide) (by omega) (fun _ => le_rfl) negative

/-- What a mantissa and its accuracy stand for is less than one above the mantissa. -/
theorem CutTo.mantissa_le {m : Nat} {accuracy : Accuracy} {z : ℚ}
    (h : CutTo (ExtendedMantissa.ofMantissaAndAccuracy m accuracy) z) :
    (m : ℚ) ≤ z ∧ z < m + 1 := by
  have hhalves : 2 * m ≤ halves (ExtendedMantissa.ofMantissaAndAccuracy m accuracy) ∧
      halves (ExtendedMantissa.ofMantissaAndAccuracy m accuracy) ≤ 2 * m + 1 := by
    unfold ExtendedMantissa.ofMantissaAndAccuracy halves
    split <;> simp
  have hbelow : ((2 * m : Nat) : ℚ) ≤ _ := (Nat.cast_le.2 hhalves.1).trans h.low
  have habove := h.high.trans_le (add_le_add_left (Nat.cast_le.2 hhalves.2) 1)
  push_cast at hbelow habove
  constructor <;> linarith

/-- The unit of a number is told by the integer part that it has in some other unit. -/
theorem hasUnit_max {q : ℚ} {m : Nat} {e : Int} (hm : m ≠ 0) (hlow : (m : ℚ) ≤ q / 2 ^ e)
    (hhigh : q / 2 ^ e < m + 1) : HasUnit q (max (m.log2 + e - 52) (-1074)) := by
  have hpow : (0 : ℚ) < 2 ^ e := by positivity
  have hfewer : (m : ℚ) + 1 ≤ 2 ^ ((m.log2 : Int) + 1) := by
    exact_mod_cast (Nat.lt_log2_self (n := m))
  have hmore : (2 : ℚ) ^ (m.log2 : Int) ≤ m := by exact_mod_cast Nat.log2_self_le hm
  rw [le_div_iff₀ hpow] at hlow
  rw [div_lt_iff₀ hpow] at hhigh
  refine ⟨le_max_right _ _, ?_, fun hne => ?_⟩
  · rw [div_lt_iff₀ (by positivity), ← zpow_natCast, ← zpow_add₀ two_ne_zero]
    calc q
      _ < (m + 1) * 2 ^ e := hhigh
      _ ≤ 2 ^ ((m.log2 : Int) + 1) * 2 ^ e := mul_le_mul_of_nonneg_right hfewer hpow.le
      _ = 2 ^ ((m.log2 : Int) + 1 + e) := (zpow_add₀ two_ne_zero _ _).symm
      _ ≤ _ := zpow_le_zpow_right₀ one_le_two (by omega)
  · rw [le_div_iff₀ (by positivity), ← zpow_natCast, ← zpow_add₀ two_ne_zero]
    calc (2 : ℚ) ^ (((52 : Nat) : Int) + max ((m.log2 : Int) + e - 52) (-1074))
      _ ≤ 2 ^ ((m.log2 : Int) + e) := zpow_le_zpow_right₀ one_le_two (by omega)
      _ = 2 ^ (m.log2 : Int) * 2 ^ e := zpow_add₀ two_ne_zero _ _
      _ ≤ m * 2 ^ e := mul_le_mul_of_nonneg_right hmore hpow.le
      _ ≤ q := hlow

/-- **The hardware rounds to the nearest number** what a mantissa and its accuracy stand for, if
the mantissa has bits enough. -/
theorem isPacked_roundWithAccuracy {q : ℚ} {m : Nat} {e : Int} {accuracy : Accuracy} (hm : m ≠ 0)
    (h : CutTo (ExtendedMantissa.ofMantissaAndAccuracy m accuracy) (q / 2 ^ e))
    (hle : e ≤ max (m.log2 + e - 52) (-1074)) (negative : Bool) :
    ∃ r t, RoundsTo q r t ∧ IsPacked (UnpackedFloat.pack Format.binary64
      (UnpackedFloat.roundWithAccuracy Format.binary64 (signOf negative) m e accuracy)) negative
        (magnitudeBits r t) := by
  obtain ⟨hlow, hhigh⟩ := h.mantissa_le
  have hunit := hasUnit_max hm hlow hhigh
  have hshift := h.shiftRight (max ((m.log2 : Int) + e - 52) (-1074) - e).toNat
  have hexponent : e + ((max ((m.log2 : Int) + e - 52) (-1074) - e).toNat : Int) =
      max (m.log2 + e - 52) (-1074) := by
    omega
  rw [div_div, ← zpow_natCast, ← zpow_add₀ two_ne_zero, hexponent] at hshift
  refine ⟨_, _, ⟨hunit, hshift.isRounded⟩, ?_⟩
  unfold UnpackedFloat.roundWithAccuracy
  rw [shiftToTargetExponent_eq m e accuracy]
  dsimp only
  rw [hexponent]
  exact isPacked_shifted ⟨hunit, hshift.isRounded⟩ negative

/-- The same for a mantissa of any number of bits, which is exact. -/
theorem isPacked_round {q : ℚ} {m : Nat} {e : Int} (hm : m ≠ 0) (hq : q = m * 2 ^ e)
    (negative : Bool) :
    ∃ r t, RoundsTo q r t ∧
      IsPacked (UnpackedFloat.pack Format.binary64 (UnpackedFloat.round Format.binary64
        (signOf negative) m e)) negative (magnitudeBits r t) := by
  unfold UnpackedFloat.round UnpackedFloat.decreaseExponent
  rw [targetExponent_eq]
  dsimp only
  generalize hk : (e - max ((m.log2 : Int) + e - 52) (-1074)).toNat = k
  rw [Nat.shiftLeft_eq]
  have hlog := log2_mul_pow hm k
  refine isPacked_roundWithAccuracy (Nat.mul_ne_zero hm (Nat.two_pow_pos k).ne') ?_ ?_ negative
  · have hexact : q / 2 ^ (e - (k : Int)) = (m * 2 ^ k : Nat) := by
      rw [hq, zpow_sub₀ two_ne_zero, zpow_natCast]
      push_cast
      field_simp
    rw [hexact]
    exact cutTo_exact _
  · rw [hlog]
    omega

end Spreadsheet.Number
