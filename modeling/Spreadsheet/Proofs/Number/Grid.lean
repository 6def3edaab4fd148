import Mathlib
import Spreadsheet.Number.Decimal

/-!
# Rounding on a grid

A rounding looks for a point of the grid of the multiples of a unit (`Rounding.Finds`): the greatest
one not above a rational number, the least one not below it, or the nearest one, of two the greater.
There is one such point, an integer times the unit (`Rounding.finds_iff`). A strategy, which cuts
off digits and may raise the size, computes this integer if it is the right one for the sign
(`Strategy.divide_eq`): halves go up if they go towards zero below it and away from it above.
-/

namespace Spreadsheet.Number.Decimal

/-- Which point of a grid is looked for. -/
inductive Rounding where
  /-- The greatest one not above. -/
  | down
  /-- The least one not below. -/
  | up
  /-- The nearest one, of two the greater. -/
  | nearest
  deriving DecidableEq

/-- Whether a rational number lies on the grid of the multiples of a unit. -/
def OnGrid (unit t : ℚ) : Prop :=
  ∃ n : ℤ, t = n * unit

/-- Whether a point of the grid is the one that a rounding looks for. -/
def Rounding.Finds (r : Rounding) (unit q t : ℚ) : Prop :=
  match r with
  | .down => IsGreatest {t | OnGrid unit t ∧ t ≤ q} t
  | .up => IsLeast {t | OnGrid unit t ∧ q ≤ t} t
  | .nearest => OnGrid unit t ∧
    ∀ t', OnGrid unit t' → |t - q| < |t' - q| ∨ |t - q| = |t' - q| ∧ t' ≤ t

/-- A rational number rounded to an integer. -/
def Rounding.toInt (r : Rounding) (q : ℚ) : ℤ :=
  match r with
  | .down => ⌊q⌋
  | .up => ⌈q⌉
  | .nearest => ⌊q + 1 / 2⌋

section
variable {r : Rounding} {unit q t t' : ℚ}

/-- There is one such point. -/
theorem Rounding.Finds.eq (h : r.Finds unit q t) (h' : r.Finds unit q t') : t = t' := by
  cases r with
  | down => exact IsGreatest.unique h h'
  | up => exact IsLeast.unique h h'
  | nearest =>
    obtain ⟨hgrid, hnearest⟩ := h
    obtain ⟨hgrid', hnearest'⟩ := h'
    rcases hnearest t' hgrid' with hlt | ⟨heq, hle⟩
    · rcases hnearest' t hgrid with hlt' | ⟨heq', -⟩
      · exact absurd hlt hlt'.not_gt
      · exact absurd heq' hlt.ne'
    · rcases hnearest' t hgrid with hlt' | ⟨-, hle'⟩
      · exact absurd heq hlt'.ne'
      · exact le_antisymm hle' hle

/-- The nearest integer, of two the greater. -/
theorem abs_floor_half_sub (z : ℚ) (n : ℤ) :
    |(⌊z + 1 / 2⌋ : ℚ) - z| < |n - z| ∨
      |(⌊z + 1 / 2⌋ : ℚ) - z| = |n - z| ∧ n ≤ ⌊z + 1 / 2⌋ := by
  have hle := Int.floor_le (z + 1 / 2)
  have hlt := Int.lt_floor_add_one (z + 1 / 2)
  generalize ⌊z + 1 / 2⌋ = m at *
  have hhalf : |(m : ℚ) - z| ≤ 1 / 2 := by
    rw [abs_le]
    constructor <;> linarith
  rcases lt_trichotomy n m with hbelow | rfl | habove
  · have hsucc : (n : ℚ) + 1 ≤ m := by exact_mod_cast hbelow
    have hfar : 1 / 2 ≤ |(n : ℚ) - z| := by
      rw [abs_sub_comm]
      exact le_trans (by linarith) (le_abs_self _)
    rcases lt_or_eq_of_le (hhalf.trans hfar) with hlt | heq
    · exact .inl hlt
    · exact .inr ⟨heq, hbelow.le⟩
  · exact .inr ⟨rfl, le_rfl⟩
  · have hsucc : (m : ℚ) + 1 ≤ n := by exact_mod_cast habove
    refine .inl (hhalf.trans_lt (lt_of_lt_of_le ?_ (le_abs_self _)))
    linarith

theorem abs_mul_sub (hunit : 0 < unit) (m q : ℚ) : |m * unit - q| = |m - q / unit| * unit := by
  rw [← abs_of_pos hunit, ← abs_mul, abs_of_pos hunit, sub_mul, div_mul_cancel₀ _ hunit.ne']

/-- The point is an integer times the unit. -/
theorem Rounding.finds_toInt (r : Rounding) (hunit : 0 < unit) (q : ℚ) :
    r.Finds unit q (r.toInt (q / unit) * unit) := by
  cases r with
  | down =>
    refine ⟨⟨⟨_, rfl⟩, ?_⟩, ?_⟩
    · rw [← le_div_iff₀ hunit]
      exact Int.floor_le _
    · rintro t ⟨⟨n, rfl⟩, hle⟩
      rw [← le_div_iff₀ hunit] at hle
      exact mul_le_mul_of_nonneg_right (Int.cast_le.2 (Int.le_floor.2 hle)) hunit.le
  | up =>
    refine ⟨⟨⟨_, rfl⟩, ?_⟩, ?_⟩
    · rw [← div_le_iff₀ hunit]
      exact Int.le_ceil _
    · rintro t ⟨⟨n, rfl⟩, hle⟩
      rw [← div_le_iff₀ hunit] at hle
      exact mul_le_mul_of_nonneg_right (Int.cast_le.2 (Int.ceil_le.2 hle)) hunit.le
  | nearest =>
    refine ⟨⟨_, rfl⟩, ?_⟩
    rintro t ⟨n, rfl⟩
    rw [abs_mul_sub hunit, abs_mul_sub hunit, mul_lt_mul_iff_left₀ hunit, mul_left_inj' hunit.ne',
      mul_le_mul_iff_left₀ hunit, Int.cast_le]
    exact abs_floor_half_sub _ n

theorem Rounding.finds_iff (hunit : 0 < unit) :
    r.Finds unit q t ↔ t = r.toInt (q / unit) * unit := by
  constructor
  · exact fun h => h.eq (r.finds_toInt hunit q)
  · rintro rfl
    exact r.finds_toInt hunit q

/-- The three roundings in their order. -/
theorem Rounding.toInt_le (q : ℚ) :
    Rounding.down.toInt q ≤ Rounding.nearest.toInt q ∧
      Rounding.nearest.toInt q ≤ Rounding.up.toInt q := by
  constructor
  · exact Int.floor_mono (by linarith)
  · refine Int.floor_le_iff.2 ?_
    have hle := Int.le_ceil q
    change q + 1 / 2 < (⌈q⌉ : ℚ) + 1
    linarith

theorem Rounding.toInt_intCast (r : Rounding) (n : ℤ) : r.toInt n = n := by
  cases r with
  | down => exact Int.floor_intCast n
  | up => exact Int.ceil_intCast n
  | nearest =>
    refine Int.floor_eq_iff.2 ⟨?_, ?_⟩ <;> linarith

theorem Rounding.abs_toInt_sub_le (r : Rounding) (q : ℚ) : |(r.toInt q : ℚ) - q| ≤ 1 := by
  rw [abs_le]
  cases r with
  | down =>
    have hle := Int.floor_le q
    have hlt := Int.lt_floor_add_one q
    constructor <;> simp only [toInt] <;> linarith
  | up =>
    have hle := Int.le_ceil q
    have hlt := Int.ceil_lt_add_one q
    constructor <;> simp only [toInt] <;> linarith
  | nearest =>
    have hle := Int.floor_le (q + 1 / 2)
    have hlt := Int.lt_floor_add_one (q + 1 / 2)
    constructor <;> simp only [toInt] <;> linarith

/-- A number nearer to zero than to any other integer. -/
theorem Rounding.toInt_of_small (r : Rounding) (h : |q| < 1 / 2) :
    r.toInt q = match r with
      | .down => if q < 0 then -1 else 0
      | .up => if 0 < q then 1 else 0
      | .nearest => 0 := by
  obtain ⟨hlow, hhigh⟩ := abs_lt.1 h
  cases r with
  | down =>
    dsimp only
    split <;> refine Int.floor_eq_iff.2 ⟨?_, ?_⟩ <;> push_cast <;> linarith
  | up =>
    dsimp only
    split <;> refine Int.ceil_eq_iff.2 ⟨?_, ?_⟩ <;> push_cast <;> linarith
  | nearest => refine Int.floor_eq_iff.2 ⟨?_, ?_⟩ <;> push_cast <;> linarith

/-- What small numbers are rounded to depends on their signs. -/
theorem Rounding.toInt_eq_of_sign (r : Rounding) {z : ℚ} (hq : |q| < 1 / 2) (hz : |z| < 1 / 2)
    (h : SignType.sign z = SignType.sign q) : r.toInt z = r.toInt q := by
  have hneg : z < 0 ↔ q < 0 := by rw [← sign_eq_neg_one_iff, h, sign_eq_neg_one_iff]
  have hpos : 0 < z ↔ 0 < q := by rw [← sign_eq_one_iff, h, sign_eq_one_iff]
  rw [r.toInt_of_small hq, r.toInt_of_small hz]
  simp only [hneg, hpos]

end

/-! ## Strategies -/

/-- Whether a strategy is the right one for a rounding, as far as the sign of an integer goes. -/
def Strategy.Serves (s : Strategy) (r : Rounding) (n : ℤ) : Prop :=
  match r with
  | .down => s = .toNegativeInfinity
  | .up => s = .toPositiveInfinity
  | .nearest => s = .midpointTowardZero ∧ n ≤ 0 ∨ s = .midpointAwayFromZero ∧ 0 ≤ n

/-- For every sign there is a right strategy. -/
theorem Rounding.exists_serves (r : Rounding) (n : ℤ) : ∃ s : Strategy, s.Serves r n := by
  cases r with
  | down => exact ⟨_, rfl⟩
  | up => exact ⟨_, rfl⟩
  | nearest =>
    rcases le_total n 0 with h | h
    · exact ⟨_, .inl ⟨rfl, h⟩⟩
    · exact ⟨_, .inr ⟨rfl, h⟩⟩

/-- A ratio is a natural number and a rest below one, with the sign of the numerator. -/
theorem exists_ratio_eq (n : ℤ) {unit : Nat} (hunit : unit ≠ 0) :
    ∃ f : ℚ, 0 ≤ f ∧ f < 1 ∧ f * unit = (n.natAbs % unit : Nat) ∧
      (n : ℚ) / unit = (if n < 0 then -1 else 1) * ((n.natAbs / unit : Nat) + f) := by
  have hpos : (0 : ℚ) < unit := by exact_mod_cast Nat.pos_of_ne_zero hunit
  have hrest : ((n.natAbs % unit : Nat) : ℚ) < unit := by
    exact_mod_cast Nat.mod_lt _ (Nat.pos_of_ne_zero hunit)
  have hsum : (unit : ℚ) * (n.natAbs / unit : Nat) + (n.natAbs % unit : Nat) = |(n : ℚ)| := by
    rw [← Int.cast_abs, ← Nat.cast_natAbs]
    exact_mod_cast Nat.div_add_mod n.natAbs unit
  refine ⟨(n.natAbs % unit : Nat) / unit, by positivity, (div_lt_one hpos).2 hrest,
    div_mul_cancel₀ _ hpos.ne', ?_⟩
  have hsize : (n.natAbs / unit : Nat) + ((n.natAbs % unit : Nat) : ℚ) / unit =
      |(n : ℚ)| / unit := by
    rw [← hsum]
    field_simp
  rw [hsize]
  split
  · next h => rw [abs_of_neg (Int.cast_lt_zero.2 h), neg_one_mul, neg_div, neg_neg]
  · next h => rw [abs_of_nonneg (Int.cast_nonneg (not_lt.1 h)), one_mul]

/-- When the rest that is cut off raises the size, told by the ratio of the rest to the unit. -/
theorem Strategy.raises_iff (s : Strategy) (negative : Bool) {rest unit : Nat} {f : ℚ}
    (hunit : unit ≠ 0) (hf : f * unit = rest) :
    s.raises negative rest unit = true ↔ match s with
      | .toNegativeInfinity => negative = true ∧ 0 < f
      | .toPositiveInfinity => negative = false ∧ 0 < f
      | .midpointTowardZero => 1 / 2 < f
      | .midpointAwayFromZero => 1 / 2 ≤ f := by
  have hpos : (0 : ℚ) < unit := by exact_mod_cast Nat.pos_of_ne_zero hunit
  have hsome : rest ≠ 0 ↔ 0 < f := by
    rw [← Nat.pos_iff_ne_zero, ← Nat.cast_pos (α := ℚ), ← hf, mul_pos_iff_of_pos_right hpos]
  have htwice : ((2 * rest : Nat) : ℚ) = 2 * f * unit := by
    push_cast
    rw [← hf, mul_assoc]
  cases s with
  | toNegativeInfinity => simp [raises, hsome]
  | toPositiveInfinity => simp [raises, hsome]
  | midpointTowardZero =>
    have hover : unit < 2 * rest ↔ 1 < 2 * f := by
      rw [← Nat.cast_lt (α := ℚ), htwice, lt_mul_iff_one_lt_left hpos]
    rw [raises, decide_eq_true_iff, hover]
    constructor <;> intro h <;> linarith
  | midpointAwayFromZero =>
    have hover : unit ≤ 2 * rest ↔ 1 ≤ 2 * f := by
      rw [← Nat.cast_le (α := ℚ), htwice, le_mul_iff_one_le_left hpos]
    rw [raises, decide_eq_true_iff, hover]
    constructor <;> intro h <;> linarith

/-- **A strategy that serves computes the integer that a rounding looks for.** -/
theorem Strategy.divide_eq {s : Strategy} {r : Rounding} {n : ℤ} (h : s.Serves r n) {unit : Nat}
    (hunit : unit ≠ 0) : s.divide n unit = r.toInt (n / unit) := by
  obtain ⟨f, hnonneg, hless, hf, hratio⟩ := exists_ratio_eq n hunit
  have hraises := s.raises_iff (n < 0) hunit hf
  have hzero : n = 0 → n.natAbs / unit = 0 ∧ f = 0 := by
    rintro rfl
    refine ⟨Nat.zero_div unit, ?_⟩
    rw [Int.natAbs_zero, Nat.zero_mod, Nat.cast_zero] at hf
    exact (mul_eq_zero.1 hf).resolve_right (Nat.cast_ne_zero.2 hunit)
  unfold divide
  rw [hratio]
  generalize n.natAbs / unit = size at hzero
  cases r with
  | down =>
    obtain rfl : s = .toNegativeInfinity := h
    simp only [hraises, decide_eq_true_iff]
    refine (Int.floor_eq_iff.2 ?_).symm
    split_ifs <;> push_cast <;> constructor <;> grind
  | up =>
    obtain rfl : s = .toPositiveInfinity := h
    simp only [hraises, decide_eq_false_iff_not]
    refine (Int.ceil_eq_iff.2 ?_).symm
    split_ifs <;> push_cast <;> constructor <;> grind
  | nearest =>
    -- below zero a half stays where it is, and above zero it is raised: both go up
    refine (Int.floor_eq_iff.2 ?_).symm
    rcases h with ⟨rfl, hn⟩ | ⟨rfl, hn⟩ <;> simp only [hraises] <;> split_ifs <;> push_cast <;>
      constructor <;> grind

end Spreadsheet.Number.Decimal
