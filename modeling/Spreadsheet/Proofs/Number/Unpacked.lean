import Spreadsheet.Proofs.Number.Order

/-!
# Numbers as the hardware takes them apart

The hardware takes a finite number apart as `parts?` does (`unpack_of_parts?`). So what it does to
the sign of a number is a change of its parts: negation (`parts?_neg`) and the size of a number
(`abs_eq_signed`).
-/

namespace Spreadsheet.Number

open Float.Model

/-! ## Numbers unpacked -/

/-- The sign of a number as the hardware has it. -/
def signOf (negative : Bool) : UnpackedFloat.Sign :=
  if negative then .negative else .positive

/-- The parts of a number as the hardware has them: a zero is its sign alone. -/
def Parts.unpacked (p : Parts) : UnpackedFloat :=
  if h : 0 < p.significand then .finite (signOf p.negative) p.significand p.exponent h
  else .zero (signOf p.negative)

/-- A number other than zero is unpacked to its significand and exponent. -/
theorem Parts.unpacked_of_pos {p : Parts} (h : 0 < p.significand) :
    p.unpacked = .finite (signOf p.negative) p.significand p.exponent h :=
  dif_pos h

/-- A zero is unpacked to its sign. -/
theorem Parts.unpacked_of_zero {p : Parts} (h : p.significand = 0) :
    p.unpacked = .zero (signOf p.negative) :=
  dif_neg (by omega)

/-- The hidden bit stands above the bits of the fraction. -/
theorem toNat_hiddenBit_append {n : Nat} (b : BitVec n) : (1#1 ++ b).toNat = 2 ^ n + b.toNat := by
  rw [BitVec.toNat_append, ← Nat.shiftLeft_add_eq_or_of_lt b.isLt, Nat.shiftLeft_eq]
  simp

/-- The three fields that the hardware takes out of bits. -/
theorem Parts.OfBits.fields {p : Parts} {biased fraction : Nat}
    {b : BitVec Format.binary64.numBits} (h : p.OfBits b.toNat biased fraction) :
    (UnpackedFloat.unpackMantissa b).toNat = fraction ∧
      (UnpackedFloat.unpackExponent b).toNat = biased ∧
      UnpackedFloat.Sign.ofBitVec (UnpackedFloat.unpackSign b) = signOf p.negative := by
  have hbits := h.bits_eq
  have hbiased := h.biased_lt
  have hfraction := h.fraction_lt
  refine ⟨?_, ?_, ?_⟩
  · rw [toNat_unpackMantissa, hbits]
    split <;> omega
  · rw [toNat_unpackExponent, hbits]
    split <;> omega
  · have hbit : UnpackedFloat.unpackSign b = if p.negative then 1#1 else 0#1 := by
      apply BitVec.eq_of_toNat_eq
      rw [toNat_unpackSign, hbits]
      split <;> simp <;> omega
    rw [hbit]
    cases p.negative <;> rfl

/-- The hardware takes bits apart as the parts say. -/
theorem Parts.OfBits.unpack {p : Parts} {biased fraction : Nat}
    {b : BitVec Format.binary64.numBits} (h : p.OfBits b.toNat biased fraction) :
    UnpackedFloat.unpack Format.binary64 b = p.unpacked := by
  obtain ⟨hmantissa, hexponent, hsign⟩ := h.fields
  have hfinite : UnpackedFloat.unpackExponent b ≠ -1#_ := by
    intro heq
    rw [heq] at hexponent
    exact h.biased_lt.ne hexponent.symm
  unfold UnpackedFloat.unpack
  dsimp only
  rw [if_neg hfinite, hsign]
  by_cases hzero : biased = 0
  · obtain ⟨hsignificand, hp⟩ := h.subnormal hzero
    rw [if_pos (BitVec.eq_of_toNat_eq (by rw [hexponent, hzero]; rfl))]
    by_cases hnone : fraction = 0
    · rw [dif_pos (BitVec.eq_of_toNat_eq (by rw [hmantissa, hnone]; rfl)),
        Parts.unpacked_of_zero (by rw [hsignificand, hnone])]
    · have hne : UnpackedFloat.unpackMantissa b ≠ 0#_ := by
        intro heq
        rw [heq] at hmantissa
        exact hnone hmantissa.symm
      rw [dif_neg hne, Parts.unpacked_of_pos (by omega), UnpackedFloat.finite.injEq]
      refine ⟨rfl, by rw [hmantissa, hsignificand], ?_⟩
      rw [hexponent, hzero, hp]
      rfl
  · obtain ⟨hsignificand, hp⟩ := h.normal hzero
    have hne : UnpackedFloat.unpackExponent b ≠ 0#_ := by
      intro heq
      rw [heq] at hexponent
      exact hzero hexponent.symm
    rw [if_neg hne, Parts.unpacked_of_pos (by omega), UnpackedFloat.finite.injEq]
    refine ⟨rfl, ?_, ?_⟩
    · rw [toNat_hiddenBit_append, hmantissa, hsignificand]
      rfl
    · rw [hexponent, hp]
      rfl

/-- The hardware takes a number apart as the display does. -/
theorem unpack_of_parts? {x : Float} {p : Parts} (hp : parts? x = some p) :
    UnpackedFloat.unpack Format.binary64 x.toBits.toBitVec = p.unpacked := by
  obtain ⟨biased, fraction, h⟩ := toBits_of_parts? hp
  exact h.unpack

/-! ## Signs -/

section
variable {x : Float} {p : Parts}

/-- The bits of a finite number tell its parts. -/
theorem parts?_of_ofBits {biased fraction : Nat} (h : p.OfBits x.toBits.toNat biased fraction) :
    parts? x = some p := by
  have hbits := h.bits_eq
  have hbiased := h.biased_lt
  have hfraction := h.fraction_lt
  obtain ⟨negative, significand, exponent⟩ := p
  have hsign : decide (0x8000000000000000 ≤ x.toBits.toNat) = negative := by
    cases negative <;> simp at hbits ⊢ <;> omega
  have hb : x.toBits.toNat / 0x10000000000000 % 0x800 = biased := by
    rw [hbits]
    split <;> omega
  have hf : x.toBits.toNat % 0x10000000000000 = fraction := by
    rw [hbits]
    split <;> omega
  simp only [parts?, Nat.pow_eq, Nat.reducePow, hb, hf, hsign]
  rw [if_neg (by omega)]
  by_cases hzero : biased = 0
  · obtain ⟨hsignificand, hexponent⟩ := h.subnormal hzero
    rw [if_pos hzero]
    simp_all
  · obtain ⟨hsignificand, hexponent⟩ := h.normal hzero
    rw [if_neg hzero]
    simp_all

/-- A number with the other sign. -/
def Parts.neg (p : Parts) : Parts :=
  { p with negative := !p.negative }

/-- Negation changes the sign alone. -/
theorem parts?_neg (hp : parts? x = some p) : parts? (-x) = some p.neg := by
  obtain ⟨biased, fraction, h⟩ := toBits_of_parts? hp
  have hbits := h.bits_eq
  have hbiased := h.biased_lt
  have hfraction := h.fraction_lt
  refine parts?_of_ofBits ⟨?_, hbiased, hfraction, h.subnormal, h.normal⟩
  rw [toBits_neg (by rw [isFinite, hp]; rfl), hbits]
  cases hnegative : p.negative <;> simp [Parts.neg, hnegative] <;> omega

@[simp] theorem signed_false (x : Float) : signed false x = x := rfl

/-- A number with a sign put to it has the same parts but for the sign. -/
theorem parts?_signed (hp : parts? x = some p) (negative : Bool) :
    parts? (signed negative x) = some (if negative then p.neg else p) := by
  cases negative with
  | false => exact hp
  | true => exact parts?_neg hp

/-- Negation changes the value to its negative. -/
theorem toRat_neg (h : isFinite x = true) : toRat (-x) = -toRat x := by
  obtain ⟨p, hp⟩ := Option.isSome_iff_exists.1 h
  rw [toRat, toRat, parts?_neg hp, hp]
  cases hnegative : p.negative <;> simp [Parts.toRat, Parts.neg, hnegative]

/-- A sign put to a number changes its value to its negative or not at all. -/
theorem toRat_signed (h : isFinite x = true) (negative : Bool) :
    toRat (signed negative x) = if negative then -toRat x else toRat x := by
  cases negative with
  | false => rfl
  | true => exact toRat_neg h

/-- A number is below zero if it has a minus sign and is no zero. -/
theorem toRat_neg_iff (hp : parts? x = some p) :
    toRat x < 0 ↔ p.negative = true ∧ p.significand ≠ 0 := by
  have hpow : (0 : ℚ) < 2 ^ p.exponent := by positivity
  rw [toRat, hp, Option.map_some, Option.getD_some, Parts.toRat]
  cases p.negative with
  | false => simpa using by positivity
  | true => simp [hpow, Nat.pos_iff_ne_zero]

/-- Unpacking goes with negation. -/
theorem Parts.unpacked_neg (p : Parts) : p.neg.unpacked = p.unpacked.neg := by
  rcases Nat.eq_zero_or_pos p.significand with hzero | hpos
  · rw [unpacked_of_zero hzero, unpacked_of_zero (p := p.neg) hzero]
    cases hnegative : p.negative <;> simp [neg, hnegative] <;> rfl
  · rw [unpacked_of_pos hpos, unpacked_of_pos (p := p.neg) hpos]
    cases hnegative : p.negative <;> simp [neg, hnegative, UnpackedFloat.neg] <;> rfl

/-- Unpacking goes with the absolute value. -/
theorem Parts.unpacked_abs (p : Parts) :
    p.unpacked.abs = (if p.negative then p.neg else p).unpacked := by
  rcases Nat.eq_zero_or_pos p.significand with hzero | hpos
  · cases hnegative : p.negative <;> simp [unpacked, hzero, neg, hnegative] <;> rfl
  · cases hnegative : p.negative <;> simp [unpacked, hpos, neg, hnegative] <;> rfl

/-- Packing the parts of a number gives its bits. -/
theorem toBits_eq_pack (hp : parts? x = some p) :
    x.toBits = UInt64.ofBitVec (UnpackedFloat.pack Format.binary64 p.unpacked) := by
  have hfinite : isFinite x = true := by rw [isFinite, hp]; rfl
  have hback : p.neg.neg = p := by
    obtain ⟨negative, significand, exponent⟩ := p
    simp [Parts.neg]
  have hbits : (- -x).toBits = UInt64.ofBitVec (UnpackedFloat.pack Format.binary64
      (UnpackedFloat.unpack Format.binary64 (-x).toBits.toBitVec).neg) := rfl
  rwa [neg_neg_of_isFinite hfinite, unpack_of_parts? (parts?_neg hp), ← Parts.unpacked_neg,
    hback] at hbits

/-- A number is equal to zero if it has no significand. -/
theorem beq_zero_iff (hp : parts? x = some p) : (x == 0) = true ↔ p.significand = 0 := by
  have hbeq : (x == 0) = p.unpacked.beq (.zero .positive) := by
    rw [← unpack_of_parts? hp]
    rfl
  rw [hbeq]
  rcases Nat.eq_zero_or_pos p.significand with hzero | hpos
  · rw [Parts.unpacked_of_zero hzero]
    exact iff_of_true rfl hzero
  · rw [Parts.unpacked_of_pos hpos]
    refine iff_of_false ?_ hpos.ne'
    cases p.negative <;> exact Bool.false_ne_true

/-- A number is less than zero if it has a minus sign and a significand. -/
theorem lt_zero_iff (hp : parts? x = some p) :
    x < 0 ↔ p.negative = true ∧ p.significand ≠ 0 := by
  have hlt : x < 0 ↔ p.unpacked.lt (.zero .positive) = true := by
    rw [← unpack_of_parts? hp]
    exact decide_eq_true_iff
  rw [hlt]
  rcases Nat.eq_zero_or_pos p.significand with hzero | hpos
  · rw [Parts.unpacked_of_zero hzero]
    exact iff_of_false (by cases p.negative <;> exact Bool.false_ne_true) fun h => h.2 hzero
  · rw [Parts.unpacked_of_pos hpos]
    cases p.negative with
    | false => exact iff_of_false Bool.false_ne_true nofun
    | true => exact iff_of_true rfl ⟨rfl, hpos.ne'⟩

/-- The size of a number is the number without its sign. -/
theorem abs_eq_signed (hp : parts? x = some p) : x.abs = signed p.negative x := by
  have hbits : x.abs.toBits =
      UInt64.ofBitVec (UnpackedFloat.pack Format.binary64 p.unpacked.abs) := by
    rw [← unpack_of_parts? hp]
    rfl
  apply Float.toBits_inj.1
  rw [hbits, toBits_eq_pack (parts?_signed hp p.negative), Parts.unpacked_abs]

end

/-! ## Sizes -/

/-- The size of a number. -/
def Parts.size (p : Parts) : ℚ :=
  p.significand * 2 ^ p.exponent

/-- The size of a number is not negative. -/
theorem Parts.size_nonneg (p : Parts) : 0 ≤ p.size := by
  unfold size
  positivity

/-- The size of a zero is zero. -/
theorem Parts.size_eq_zero {p : Parts} (h : p.significand = 0) : p.size = 0 := by
  rw [size, h, Nat.cast_zero, zero_mul]

/-- The value of a number is its size with its sign. -/
theorem Parts.toRat_eq_size (p : Parts) :
    p.toRat = if p.negative then -p.size else p.size := by
  unfold toRat size
  split <;> ring

/-- A number without a significand is zero. -/
theorem toRat_of_significand {x : Float} {p : Parts} (hp : parts? x = some p)
    (hzero : p.significand = 0) : toRat x = 0 := by
  rw [toRat, hp, Option.map_some, Option.getD_some, Parts.toRat_eq_size, Parts.size_eq_zero hzero,
    neg_zero, ite_self]

end Spreadsheet.Number
