import Mathlib
import Spreadsheet.Number.Binary64

/-!
# Whole numbers as binary64 numbers

A whole number below `2 ^ 52` is the number nearest to its size, with its sign
(`signed_nearest_whole`): no rounding takes place. The parts of a number are read off its bits
(`toBits_of_parts?`), and a minus sign changes the highest of them (`toBits_neg`).
-/

namespace Spreadsheet.Number

open Float.Model

/-! ## Signs -/

/-- Bits with the highest one changed. -/
def signChanged (b : BitVec Format.binary64.numBits) : BitVec Format.binary64.numBits :=
  b + 0x8000000000000000#64

/-- Changing the sign is adding the highest bit, which carries out of the word. -/
theorem toNat_signChanged (b : BitVec Format.binary64.numBits) :
    (signChanged b).toNat = (b.toNat + 0x8000000000000000) % 0x10000000000000000 :=
  BitVec.toNat_add b 0x8000000000000000#64

/-- The mantissa is the lowest 52 bits. -/
theorem toNat_unpackMantissa (b : BitVec Format.binary64.numBits) :
    (UnpackedFloat.unpackMantissa b).toNat = b.toNat % 0x10000000000000 := by
  rw [UnpackedFloat.unpackMantissa_def, BitVec.extractLsb'_toNat]
  rfl

/-- The exponent is the eleven bits above the mantissa. -/
theorem toNat_unpackExponent (b : BitVec Format.binary64.numBits) :
    (UnpackedFloat.unpackExponent b).toNat = b.toNat / 0x10000000000000 % 0x800 := by
  rw [UnpackedFloat.unpackExponent_def, BitVec.extractLsb'_toNat, Nat.shiftRight_eq_div_pow]
  rfl

/-- The sign is the bit above the exponent. -/
theorem toNat_unpackSign (b : BitVec Format.binary64.numBits) :
    (UnpackedFloat.unpackSign b).toNat = b.toNat / 0x8000000000000000 % 2 := by
  rw [UnpackedFloat.unpackSign_def, BitVec.extractLsb'_toNat, Nat.shiftRight_eq_div_pow]
  rfl

/-- Changing the sign leaves the mantissa as it is. -/
theorem unpackMantissa_signChanged (b : BitVec Format.binary64.numBits) :
    UnpackedFloat.unpackMantissa (signChanged b) = UnpackedFloat.unpackMantissa b := by
  apply BitVec.eq_of_toNat_eq
  rw [toNat_unpackMantissa, toNat_unpackMantissa, toNat_signChanged]
  omega

/-- Changing the sign leaves the exponent as it is. -/
theorem unpackExponent_signChanged (b : BitVec Format.binary64.numBits) :
    UnpackedFloat.unpackExponent (signChanged b) = UnpackedFloat.unpackExponent b := by
  apply BitVec.eq_of_toNat_eq
  rw [toNat_unpackExponent, toNat_unpackExponent, toNat_signChanged]
  omega

/-- Changing the sign changes the bit of the sign. -/
theorem unpackSign_signChanged (b : BitVec Format.binary64.numBits) :
    UnpackedFloat.unpackSign (signChanged b) = ~~~UnpackedFloat.unpackSign b := by
  have hb : b.toNat < 0x10000000000000000 := b.isLt
  apply BitVec.eq_of_toNat_eq
  rw [BitVec.toNat_not, toNat_unpackSign, toNat_unpackSign, toNat_signChanged]
  omega

/-- Negation is a change of the highest bit. -/
theorem neg_unpack (b : BitVec Format.binary64.numBits) :
    (UnpackedFloat.unpack Format.binary64 b).neg =
      UnpackedFloat.unpack Format.binary64 (signChanged b) := by
  have hsign : UnpackedFloat.Sign.ofBitVec (~~~UnpackedFloat.unpackSign b) =
      -UnpackedFloat.Sign.ofBitVec (UnpackedFloat.unpackSign b) := by
    rcases BitVec.eq_zero_or_eq_one (UnpackedFloat.unpackSign b) with h | h <;> rw [h] <;> rfl
  unfold UnpackedFloat.unpack
  simp only [unpackMantissa_signChanged, unpackExponent_signChanged, unpackSign_signChanged, hsign]
  split
  · split <;> rfl
  · split
    · split <;> rfl
    · rfl

/-- A number is finite unless all bits of its exponent are set. -/
theorem isFinite_iff {x : Float} :
    isFinite x = true ↔ x.toBits.toNat / 0x10000000000000 % 0x800 ≠ 2047 := by
  simp only [isFinite, parts?, Nat.pow_eq, Nat.reducePow]
  split
  · next h => simp [h]
  · next h => split <;> simp [h]

/-- Negation changes the highest bit of a finite number. -/
theorem toBits_neg {x : Float} (h : isFinite x = true) :
    (-x).toBits.toNat = (x.toBits.toNat + 0x8000000000000000) % 0x10000000000000000 := by
  have hbits : (-x).toBits = UInt64.ofBitVec (UnpackedFloat.pack Format.binary64
      (UnpackedFloat.unpack Format.binary64 x.toBits.toBitVec).neg) := rfl
  have hexponent : UnpackedFloat.unpackExponent (signChanged x.toBits.toBitVec) ≠ -1#_ := by
    intro hbits
    have hexponent := congrArg BitVec.toNat hbits
    rw [unpackExponent_signChanged, toNat_unpackExponent] at hexponent
    exact isFinite_iff.1 h hexponent
  have hnan : UnpackedFloat.isNaNBits (signChanged x.toBits.toBitVec) = false :=
    decide_eq_false fun h => hexponent h.1
  rw [hbits, neg_unpack, UnpackedFloat.pack_unpack, hnan]
  exact toNat_signChanged _

/-- Negation keeps a number finite. -/
theorem isFinite_neg {x : Float} (h : isFinite x = true) : isFinite (-x) = true := by
  have hx := isFinite_iff.1 h
  rw [isFinite_iff, toBits_neg h]
  omega

/-- A finite number is its own negation twice over. -/
theorem neg_neg_of_isFinite {x : Float} (h : isFinite x = true) : - -x = x := by
  have hx : x.toBits.toNat < 0x10000000000000000 := x.toBits.toNat_lt
  apply Float.toBits_inj.1
  apply UInt64.toNat_inj.1
  rw [toBits_neg (isFinite_neg h), toBits_neg h]
  omega

/-- A finite number is equal to itself. -/
theorem beq_self_of_isFinite {x : Float} (h : isFinite x = true) : (x == x) = true := by
  rw [Float.beq_self_iff]
  rintro rfl
  exact absurd h (by decide)

/-! ## Parts -/

/-- What the parts of a number say of its bits: sign, biased exponent and fraction. -/
structure Parts.OfBits (p : Parts) (bits biased fraction : Nat) : Prop where
  bits_eq : bits =
    (if p.negative then 0x8000000000000000 else 0) + biased * 0x10000000000000 + fraction
  biased_lt : biased < 2047
  fraction_lt : fraction < 0x10000000000000
  subnormal : biased = 0 → p.significand = fraction ∧ p.exponent = -1074
  normal : biased ≠ 0 → p.significand = 0x10000000000000 + fraction ∧
    p.exponent = (biased : Int) - 1075

/-- The parts of a number are those of its bits. -/
theorem toBits_of_parts? {x : Float} {p : Parts} (h : parts? x = some p) :
    ∃ biased fraction, p.OfBits x.toBits.toNat biased fraction := by
  have hx : x.toBits.toNat < 0x10000000000000000 := x.toBits.toNat_lt
  refine ⟨x.toBits.toNat / 0x10000000000000 % 0x800, x.toBits.toNat % 0x10000000000000, ?_⟩
  simp only [parts?, Nat.pow_eq, Nat.reducePow] at h
  generalize x.toBits.toNat = bits at h hx
  split at h
  · cases h
  · split at h <;> cases h
    · next hfinite hzero =>
      refine ⟨?_, ?_, ?_, fun _ => ⟨rfl, rfl⟩, fun hne => absurd hzero hne⟩
      · simp only [decide_eq_true_eq]
        split <;> omega
      all_goals omega
    · next hfinite hzero =>
      refine ⟨?_, ?_, ?_, fun h => absurd h hzero, fun _ => ⟨rfl, rfl⟩⟩
      · simp only [decide_eq_true_eq]
        split <;> omega
      all_goals omega

/-- The significand of a whole number is its size with as many zeros as its exponent takes off. -/
theorem Parts.significand_of_isWhole {p : Parts} {e : Nat} (he : p.exponent = -(e : Int))
    (h : p.isWhole = true) : p.significand = p.whole * 2 ^ e := by
  obtain ⟨negative, significand, exponent⟩ := p
  subst he
  cases e with
  | zero => simp [whole]
  | succ e =>
    have hmod : significand % 2 ^ (e + 1) = 0 := beq_iff_eq.1 h
    exact (Nat.div_mul_cancel (Nat.dvd_of_mod_eq_zero hmod)).symm

/-- A number with a positive exponent is at least as large as its significand. -/
theorem Parts.significand_le_whole {p : Parts} {e : Nat} (he : p.exponent = e) :
    p.significand ≤ p.whole := by
  rw [whole, he]
  exact Nat.le_mul_of_pos_right _ (Nat.pow_pos (by decide))

/-- A shift adds to the number of bits. -/
theorem log2_mul_pow {m : Nat} (hm : m ≠ 0) (e : Nat) : (m * 2 ^ e).log2 = m.log2 + e := by
  induction e with
  | zero => rw [Nat.pow_zero, Nat.mul_one, Nat.add_zero]
  | succ e ih =>
    have hne : m * 2 ^ e ≠ 0 := Nat.mul_ne_zero hm (Nat.two_pow_pos e).ne'
    rw [Nat.pow_succ', Nat.mul_left_comm, Nat.log2_two_mul hne, ih, Nat.add_assoc]

/-- The bits of a whole number other than zero, if it is small enough to have bits to spare. -/
theorem toBits_of_isWhole {x : Float} {p : Parts} (hp : parts? x = some p)
    (hwhole : p.isWhole = true) (hne : p.whole ≠ 0) (hlt : p.whole < 0x10000000000000) :
    x.toBits.toNat = (if p.negative then 0x8000000000000000 else 0) +
      ((p.whole.log2 + 1022) * 0x10000000000000 + p.whole * 2 ^ (52 - p.whole.log2)) := by
  obtain ⟨biased, fraction, h⟩ := toBits_of_parts? hp
  have hfraction := h.fraction_lt
  by_cases hbiased : biased = 0
  · -- A fraction alone would have to end in more zeros than it has bits.
    obtain ⟨hsignificand, hexponent⟩ := h.subnormal hbiased
    have he : ∃ e : Nat, 52 ≤ e ∧ p.exponent = -(e : Int) := ⟨1074, by decide, hexponent⟩
    obtain ⟨e, hle, he⟩ := he
    have hmul := Parts.significand_of_isWhole he hwhole
    have hlarge : 1 * 2 ^ e ≤ p.whole * 2 ^ e := Nat.mul_le_mul_right _ (Nat.pos_of_ne_zero hne)
    have hpow : 2 ^ 52 ≤ 2 ^ e := Nat.pow_le_pow_right (by decide) hle
    omega
  · obtain ⟨hsignificand, hexponent⟩ := h.normal hbiased
    have hsmall : biased < 1075 := by
      refine Nat.lt_of_not_le fun hle => ?_
      have hle' := Parts.significand_le_whole (p := p) (e := biased - 1075) (by omega)
      omega
    have hmul := Parts.significand_of_isWhole (p := p) (e := 1075 - biased) (by omega) hwhole
    have hlog : p.significand.log2 = 52 := (Nat.log2_eq_iff (by omega)).2 (by omega)
    rw [hmul, log2_mul_pow hne] at hlog
    have hback : 52 - p.whole.log2 = 1075 - biased := by omega
    have hbits := h.bits_eq
    rw [hback, ← hmul]
    omega

/-! ## Rounding -/

/-- A ratio times a power of two. -/
theorem shiftRatio_neg (num den e : Nat) :
    shiftRatio num den (-(e : Int)) = (num * 2 ^ e, den) := by
  cases e with
  | zero => simp [shiftRatio]
  | succ e => rfl

/-- Division by one changes nothing. -/
@[simp]
theorem divEven_one (n : Nat) : divEven n 1 = n := by
  simp [divEven, Nat.mod_one]

/-- A natural number of up to 53 bits is represented as it is. -/
theorem nearest_one {m : Nat} (hne : m ≠ 0) (hlt : m < 0x20000000000000) :
    nearest m 1 = Float.ofBits
      ((m.log2 + 1022) * 0x10000000000000 + m * 2 ^ (52 - m.log2)).toUInt64 := by
  have hlog : m.log2 < 53 := (Nat.log2_lt hne).2 hlt
  have hlarge : Nat.pow 2 53 ≤ m * 2 ^ (53 - m.log2) := by
    have hmul := Nat.mul_le_mul_right (2 ^ (53 - m.log2)) (Nat.log2_self_le hne)
    rwa [← Nat.pow_add, Nat.add_sub_cancel' (Nat.le_of_lt hlog)] at hmul
  have hsmall : m * 2 ^ (52 - m.log2) < 2 ^ 53 := by
    have hmul := Nat.mul_lt_mul_of_pos_right (Nat.lt_log2_self (n := m))
      (Nat.two_pow_pos (52 - m.log2))
    rwa [← Nat.pow_add, show m.log2 + 1 + (52 - m.log2) = 53 by omega] at hmul
  have hlow : max ((m.log2 : Int) - (Nat.log2 1 : Nat) - 53) (-1074) =
      -((53 - m.log2 : Nat) : Int) := by
    rw [show Nat.log2 1 = 0 from rfl]
    omega
  have hexponent : -((53 - m.log2 : Nat) : Int) + 1 = -((52 - m.log2 : Nat) : Int) := by omega
  have hbiased : (-((52 - m.log2 : Nat) : Int) + 1074).toNat = m.log2 + 1022 := by omega
  rw [nearest, if_neg hne]
  dsimp only
  rw [hlow, shiftRatio_neg]
  dsimp only
  rw [Nat.div_one, if_neg (Nat.not_lt.2 hlarge), hexponent, shiftRatio_neg]
  dsimp only
  have hfits : (m.log2 + 1022) * Nat.pow 2 52 + m * 2 ^ (52 - m.log2) < 0x7FF0000000000000 := by
    rw [Nat.pow_eq]
    omega
  rw [hbiased, divEven_one, if_pos hfits]

/-- A finite number is what its bits below the sign stand for, with its sign. -/
theorem signed_ofBits {x : Float} {negative : Bool} {bits : Nat} (hfinite : isFinite x = true)
    (hbits : x.toBits.toNat = (if negative then 0x8000000000000000 else 0) + bits) :
    signed negative (Float.ofBits bits.toUInt64) = x := by
  have hx : x.toBits.toNat < 0x10000000000000000 := x.toBits.toNat_lt
  cases negative with
  | false =>
    have hsame : bits.toUInt64 = x.toBits := by
      apply UInt64.toNat_inj.1
      rw [if_neg Bool.false_ne_true, Nat.zero_add] at hbits
      rw [← hbits]
      exact UInt64.toNat_ofNat_of_lt' hx
    rw [hsame, Float.ofBits_toBits]
    rfl
  | true =>
    have hsame : bits.toUInt64 = (-x).toBits := by
      apply UInt64.toNat_inj.1
      rw [if_pos rfl] at hbits
      rw [toBits_neg hfinite]
      have hlt : bits < 0x10000000000000000 := by omega
      have hback : bits.toUInt64.toNat = bits := UInt64.toNat_ofNat_of_lt' hlt
      omega
    rw [hsame, Float.ofBits_toBits]
    exact neg_neg_of_isFinite hfinite

/-- A small whole number is its size rounded, with its sign: there is nothing to round. -/
theorem signed_nearest_whole {x : Float} {p : Parts} (hp : parts? x = some p)
    (hwhole : p.isWhole = true) (hne : p.whole ≠ 0) (hlt : p.whole < 0x10000000000000) :
    signed p.negative (nearest p.whole 1) = x := by
  have hfinite : isFinite x = true := by rw [isFinite, hp]; rfl
  rw [nearest_one hne (by omega)]
  exact signed_ofBits hfinite (toBits_of_isWhole hp hwhole hne hlt)

/-- A number without a significand is one of the two zeros. -/
theorem eq_zero_of_significand {x : Float} {p : Parts} (hp : parts? x = some p)
    (hzero : p.significand = 0) : x = 0 ∨ x = -0 := by
  obtain ⟨biased, fraction, h⟩ := toBits_of_parts? hp
  have hbiased : biased = 0 := by
    by_contra hne
    have hnormal := (h.normal hne).1
    omega
  have hfraction : fraction = 0 := by rw [← (h.subnormal hbiased).1, hzero]
  have hbits := h.bits_eq
  rw [hbiased, hfraction] at hbits
  cases hnegative : p.negative with
  | false =>
    refine .inl (Float.toBits_inj.1 (UInt64.toNat_inj.1 ?_))
    rw [hbits, hnegative]
    rfl
  | true =>
    refine .inr (Float.toBits_inj.1 (UInt64.toNat_inj.1 ?_))
    rw [hbits, hnegative]
    rfl

/-- A number without a significand is a whole number of no size. -/
theorem Parts.whole_of_zero {p : Parts} (h : p.significand = 0) :
    p.isWhole = true ∧ p.whole = 0 := by
  unfold isWhole whole
  rw [h]
  split <;> simp

/-- A whole number of no size has no significand. -/
theorem Parts.significand_eq_zero {p : Parts} (hwhole : p.isWhole = true) (hzero : p.whole = 0) :
    p.significand = 0 := by
  rcases Int.eq_nat_or_neg p.exponent with ⟨e, he | he⟩
  · have hle := Parts.significand_le_whole he
    omega
  · rw [Parts.significand_of_isWhole he hwhole, hzero, Nat.zero_mul]

end Spreadsheet.Number
