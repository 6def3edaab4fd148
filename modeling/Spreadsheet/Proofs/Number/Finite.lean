import Spreadsheet.Number.Numeral
import Spreadsheet.Proofs.Number.Binary64

/-!
# Finite numbers

Numbers that are certainly finite: what is kept by `finiteOrZero`, numerals that are read
(`isFinite_of_ofNumeral?`) and whole numbers that are not too large (`isFinite_ofInt`), among them
all counts.
-/

namespace Spreadsheet.Number

open Float.Model

/-! ## Bits -/

/-- Bits below those of infinity are kept as they are. -/
theorem toBits_ofBits {b : UInt64} (h : b.toNat < 0x7FF0000000000000) :
    (Float.ofBits b).toBits = b := by
  have hbits : (Float.ofBits b).toBits = UInt64.ofBitVec (UnpackedFloat.pack Format.binary64
      (UnpackedFloat.unpack Format.binary64 b.toBitVec)) := rfl
  have hexponent : @UnpackedFloat.unpackExponent Format.binary64 b.toBitVec ≠ -1#_ := by
    intro hexponent
    have hbiased := congrArg BitVec.toNat hexponent
    rw [toNat_unpackExponent] at hbiased
    change b.toNat / 0x10000000000000 % 0x800 = 2047 at hbiased
    omega
  have hnan : @UnpackedFloat.isNaNBits Format.binary64 b.toBitVec = false :=
    decide_eq_false fun h => hexponent h.1
  rw [hbits, UnpackedFloat.pack_unpack, hnan]
  rfl

/-- Bits below those of infinity are those of a finite number. -/
theorem isFinite_ofBits {b : UInt64} (h : b.toNat < 0x7FF0000000000000) :
    isFinite (Float.ofBits b) = true := by
  rw [isFinite_iff, toBits_ofBits h]
  omega

theorem isFinite_zero : isFinite 0 = true := by decide

theorem isFinite_one : isFinite 1 = true := by decide

/-- A sign keeps a number finite. -/
theorem isFinite_signed {x : Float} (h : isFinite x = true) (negative : Bool) :
    isFinite (signed negative x) = true := by
  cases negative with
  | true => exact isFinite_neg h
  | false => exact h

@[simp] theorem isFinite_finiteOrZero (x : Float) : isFinite (finiteOrZero x) = true := by
  unfold finiteOrZero
  split
  · assumption
  · exact isFinite_zero

/-! ## Numerals -/

/-- A numeral that is read is finite. -/
theorem isFinite_of_ofNumeral? {cs : List Char} {x : Float} (h : ofNumeral? cs = some x) :
    isFinite x = true :=
  (Option.filter_eq_some_iff.1 h).2

/-- A text is read to a finite number or to none. -/
theorem isFinite_of_ofText? {s : String} {x : Float} (h : ofText? s = some x) :
    isFinite x = true :=
  isFinite_of_ofNumeral? h

/-! ## Whole numbers -/

/-- Rounding adds one to a quotient at most. -/
theorem divEven_le (num den : Nat) : divEven num den ≤ num / den + 1 := by
  unfold divEven
  dsimp only
  split
  · omega
  · split <;> omega

/-- The size of a whole number in a unit that leaves it at most 54 bits. -/
theorem shiftRatio_one_lt {m : Nat} {exponent : Int} (h : (m.log2 : Int) ≤ exponent + 53) :
    (shiftRatio m 1 exponent).1 / (shiftRatio m 1 exponent).2 < 0x40000000000000 := by
  have hm : m < 2 ^ (m.log2 + 1) := Nat.lt_log2_self
  cases exponent with
  | ofNat e =>
    have hpow : 2 ^ (m.log2 + 1) ≤ 2 ^ (54 + e) :=
      Nat.pow_le_pow_right Nat.two_pos (by simp only [Int.ofNat_eq_natCast] at h; omega)
    rw [shiftRatio, Nat.one_mul, Nat.pow_eq, Nat.div_lt_iff_lt_mul (Nat.two_pow_pos e)]
    rw [Nat.pow_add 2 54] at hpow
    exact Nat.lt_of_lt_of_le hm hpow
  | negSucc e =>
    have hpow : 2 ^ (m.log2 + 1 + (e + 1)) ≤ 2 ^ 54 :=
      Nat.pow_le_pow_right Nat.two_pos (by omega)
    rw [shiftRatio, Nat.div_one, Nat.pow_eq]
    rw [Nat.pow_add] at hpow
    exact Nat.lt_of_lt_of_le (Nat.mul_lt_mul_of_pos_right hm (Nat.two_pow_pos _)) hpow

/-- A natural number is represented by a finite one if it is not too large. -/
theorem isFinite_nearest_one {m : Nat} (h : m.log2 < 1000) : isFinite (nearest m 1) = true := by
  unfold nearest
  split
  · exact isFinite_zero
  · dsimp only
    have hlow : max ((m.log2 : Int) - (Nat.log2 1 : Nat) - 53) (-1074) = m.log2 - 53 := by
      rw [show Nat.log2 1 = 0 from rfl]
      omega
    rw [hlow]
    generalize hexponent : (if (shiftRatio m 1 (m.log2 - 53)).1 /
      (shiftRatio m 1 (m.log2 - 53)).2 < Nat.pow 2 53 then (m.log2 : Int) - 53
      else m.log2 - 53 + 1) = exponent
    have hrange : (m.log2 : Int) - 53 ≤ exponent ∧ exponent ≤ m.log2 - 52 := by
      split at hexponent <;> omega
    have hsize : (shiftRatio m 1 exponent).1 / (shiftRatio m 1 exponent).2 < 0x40000000000000 :=
      shiftRatio_one_lt (by omega)
    have heven := divEven_le (shiftRatio m 1 exponent).1 (shiftRatio m 1 exponent).2
    have hfits : (exponent + 1074).toNat * Nat.pow 2 52 +
        divEven (shiftRatio m 1 exponent).1 (shiftRatio m 1 exponent).2 < 0x7FF0000000000000 := by
      rw [Nat.pow_eq]
      omega
    rw [if_pos hfits]
    apply isFinite_ofBits
    rwa [UInt64.toNat_ofNat_of_lt' (by exact Nat.lt_trans hfits (by decide))]

/-- A whole number of up to 64 bits is represented by a finite one. -/
theorem isFinite_ofInt {n : Int} (h : n.natAbs < 0x10000000000000000) :
    isFinite (ofInt n) = true := by
  refine isFinite_signed (isFinite_nearest_one ?_) _
  by_cases hzero : n.natAbs = 0
  · rw [hzero]
    decide
  · exact Nat.lt_trans ((Nat.log2_lt hzero).2 h) (by decide : 64 < 1000)

end Spreadsheet.Number
