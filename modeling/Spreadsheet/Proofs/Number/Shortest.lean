import Spreadsheet.Proofs.Number.Rounding
import Spreadsheet.Proofs.Text.Digits

/-!
# The shortest decimals

The decimal that `shortest` finds for a magnitude lies in the rounding interval of the magnitude
(`IsMagnitude.shortest_has`), so no other number is nearer to it. It does find one: the points of a
grid of 17 digits lie closer together than numbers of 53 bits do, so of two neighbours on it one
lies in the interval (`IsMagnitude.exists_neighbour?`).
-/

namespace Spreadsheet.Number

open Text

/-- A ratio is no less than the power of ten of its size less one. -/
theorem zpow_decimalSize_le {num den : Nat} (hnum : num ≠ 0) (hden : den ≠ 0) :
    (10 : ℚ) ^ (decimalSize num den - 1) ≤ num / den := by
  unfold decimalSize
  dsimp only
  generalize hk : (digitCount num : Int) - digitCount den = k
  have hd := scaleRatio_den_ne_zero num k hden
  have hratio := scaleRatio_ratio num den k
  split
  · have hlt : ((10 : Nat) : ℚ) ^ (((digitCount num - 1 : Nat) : Int) - digitCount den) <
        num / den :=
      zpow_lt_ratio (by decide) hden (pow_digitCount_le hnum) (lt_pow_digitCount den)
    have hpos := digitCount_pos num
    have hexponent : ((digitCount num - 1 : Nat) : Int) - digitCount den = k - 1 := by omega
    rw [hexponent, Nat.cast_ofNat] at hlt
    exact hlt.le
  · next hle =>
    rw [not_lt] at hle
    have hone : (1 : ℚ) ≤ (scaleRatio num den k).1 / (scaleRatio num den k).2 := by
      rw [le_div_iff₀ (Nat.cast_pos.2 (Nat.pos_of_ne_zero hd)), one_mul]
      exact_mod_cast hle
    rw [hratio, le_div_iff₀ (by positivity), one_mul] at hone
    rwa [add_sub_cancel_right]

/-- The rational number that a decimal is. -/
def Decimals.toRat (d : Decimals) : ℚ :=
  d.coefficient * 10 ^ d.exponent

section
variable {s : Nat} {e grid : Int}

/-- Whether a point of the grid of `10 ^ grid` lies in the interval of a magnitude. -/
def isInside (s : Nat) (e grid : Int) (point : Nat) : Bool :=
  let (p, q) := scaleRatio (4 * point) 1 (-grid)
  let (p, q) := shiftRatio p q e
  (Interval.ofParts s e).contains p q

/-- A neighbour is looked for on the grid by shifting and dividing. -/
theorem neighbour?_eq (s : Nat) (e grid : Int) : neighbour? s e grid =
    let (n, d) := shiftRatio s 1 (-e)
    let (n, d) := scaleRatio n d grid
    if isInside s e grid (n / d) &&
        (2 * n < (2 * (n / d) + 1) * d || !isInside s e grid (n / d + 1)) then some (n / d)
    else if isInside s e grid (n / d + 1) then some (n / d + 1)
    else none := rfl

/-- A point of the grid is inside if it lies in the interval. -/
theorem isInside_iff {point : Nat} : isInside s e grid point = true ↔
    (Interval.ofParts s e).Has (4 * (point * 10 ^ grid / 2 ^ e)) := by
  have hratio : ((shiftRatio (scaleRatio (4 * point) 1 (-grid)).1
      (scaleRatio (4 * point) 1 (-grid)).2 e).1 : ℚ) /
        (shiftRatio (scaleRatio (4 * point) 1 (-grid)).1
          (scaleRatio (4 * point) 1 (-grid)).2 e).2 = 4 * (point * 10 ^ grid / 2 ^ e) := by
    rw [shiftRatio_ratio, scaleRatio_ratio, zpow_neg]
    push_cast
    field_simp
  have hden := shiftRatio_den_ne_zero (scaleRatio (4 * point) 1 (-grid)).1 e
    (scaleRatio_den_ne_zero (4 * point) (-grid) one_ne_zero)
  rw [← hratio, ← Interval.contains_iff hden]
  rfl

/-- A neighbour that is found is inside. -/
theorem isInside_of_neighbour? {point : Nat} (h : neighbour? s e grid = some point) :
    isInside s e grid point = true := by
  rw [neighbour?_eq] at h
  dsimp only at h
  split at h
  · next hinside =>
    cases h
    exact (Bool.and_eq_true_iff.1 hinside).1
  · split at h
    · next hinside =>
      cases h
      exact hinside
    · cases h

/-- Of two points around a magnitude that lie close together, one lies in the interval. -/
theorem IsMagnitude.has_or_has (h : IsMagnitude s e) {z u : ℚ} (hle : z ≤ s) (hlt : s < z + u)
    (hu : u * 10 ^ 16 ≤ s) :
    (Interval.ofParts s e).Has (4 * z) ∨ (Interval.ofParts s e).Has (4 * (z + u)) := by
  by_contra hneither
  rw [not_or] at hneither
  have hbelow : z ≤ s - Interval.below s e / 4 :=
    not_lt.1 fun hlow => hneither.1 (Interval.has_of_lt h.ne_zero hlow (by linarith))
  have hnonneg : (0 : ℚ) ≤ Interval.below s e := Nat.cast_nonneg _
  have habove : s + 1 / 2 ≤ z + u :=
    not_lt.1 fun hhigh => hneither.2 (Interval.has_of_lt h.ne_zero (by linarith) hhigh)
  have hs : (s : ℚ) < 2 ^ 53 := by exact_mod_cast h.significand_lt
  -- the interval is narrower below a power of two, where the magnitude has fewer digits
  unfold Interval.below at hbelow
  split at hbelow
  · next hedge =>
    rw [hedge.1] at hu
    norm_num at hu hbelow habove
    linarith
  · norm_num at hu hbelow
    linarith

/-- On a grid whose points lie closer together than the interval is wide, one of the two neighbours
of a magnitude lies in the interval. -/
theorem IsMagnitude.exists_neighbour? (h : IsMagnitude s e)
    (hgrid : (10 : ℚ) ^ grid * 10 ^ 16 ≤ s * 2 ^ e) :
    ∃ point, neighbour? s e grid = some point := by
  have hd : (scaleRatio (shiftRatio s 1 (-e)).1 (shiftRatio s 1 (-e)).2 grid).2 ≠ 0 :=
    scaleRatio_den_ne_zero _ grid (shiftRatio_den_ne_zero s (-e) one_ne_zero)
  have hratio := scaleRatio_ratio (shiftRatio s 1 (-e)).1 (shiftRatio s 1 (-e)).2 grid
  rw [shiftRatio_ratio, Nat.cast_one, div_one, zpow_neg, div_inv_eq_mul] at hratio
  rw [neighbour?_eq]
  dsimp only
  generalize (scaleRatio (shiftRatio s 1 (-e)).1 (shiftRatio s 1 (-e)).2 grid).1 = n at *
  generalize (scaleRatio (shiftRatio s 1 (-e)).1 (shiftRatio s 1 (-e)).2 grid).2 = d at *
  have hunit : (0 : ℚ) < 2 ^ e := by positivity
  have hten : (0 : ℚ) < 10 ^ grid := by positivity
  have hfloor : ((n / d : Nat) : ℚ) * 10 ^ grid ≤ s * 2 ^ e := by
    rw [← le_div_iff₀ hten, ← hratio]
    exact Nat.cast_div_le
  have hceil : (s : ℚ) * 2 ^ e < ((n / d : Nat) + 1) * 10 ^ grid := by
    rw [← div_lt_iff₀ hten, ← hratio]
    exact_mod_cast (div_lt_iff_ratio hd).1 (Nat.lt_succ_self (n / d))
  have hinside : isInside s e grid (n / d) = true ∨ isInside s e grid (n / d + 1) = true := by
    rw [isInside_iff, isInside_iff, Nat.cast_add_one, add_one_mul, add_div]
    refine h.has_or_has ?_ ?_ ?_
    · rwa [div_le_iff₀ hunit]
    · rwa [← add_div, ← add_one_mul, lt_div_iff₀ hunit]
    · rwa [div_mul_eq_mul_div, div_le_iff₀ hunit]
  split
  · exact ⟨_, rfl⟩
  · next hfirst =>
    split
    · exact ⟨_, rfl⟩
    · next hsecond =>
      rcases hinside with hbelow | habove
      · exact absurd (by simp [hbelow, hsecond]) hfirst
      · exact absurd habove hsecond

/-- **The shortest decimal lies in the interval of its magnitude.** -/
theorem IsMagnitude.shortest_has (h : IsMagnitude s e) :
    (Interval.ofParts s e).Has (4 * ((shortest s e).toRat / 2 ^ e)) := by
  have hnum := shiftRatio_num_ne_zero (-e) h.ne_zero 1
  have hden := shiftRatio_den_ne_zero s (-e) one_ne_zero
  have hsize := zpow_decimalSize_le hnum hden
  rw [shiftRatio_ratio, Nat.cast_one, div_one, zpow_neg, div_inv_eq_mul] at hsize
  unfold shortest
  dsimp only
  generalize decimalSize (shiftRatio s 1 (-e)).1 (shiftRatio s 1 (-e)).2 = size at *
  generalize hfound : List.findSome? _ _ = found
  cases found with
  | none =>
    rw [List.findSome?_eq_none_iff] at hfound
    have hlast := hfound 16 (by decide)
    obtain ⟨point, hpoint⟩ : ∃ point, neighbour? s e (size - (16 + 1 : Nat)) = some point := by
      refine h.exists_neighbour? ?_
      have hgrid : (size : Int) - (16 + 1 : Nat) + (16 : Nat) = size - 1 := by omega
      rwa [← zpow_natCast, ← zpow_add₀ (by norm_num), hgrid]
    rw [hpoint] at hlast
    cases hlast
  | some d =>
    obtain ⟨i, -, hi⟩ := List.exists_of_findSome?_eq_some hfound
    obtain ⟨point, hpoint, rfl⟩ := Option.map_eq_some_iff.1 hi
    have hinside := isInside_iff.1 (isInside_of_neighbour? hpoint)
    rw [Option.getD_some]
    split
    · next hcarry =>
      -- the point that ends the grid is the one that begins the next coarser one
      have hgrid : ((i + 1 : Nat) : Int) + (size - (i + 1 : Nat)) = size := by omega
      rw [hcarry, Nat.pow_eq, Nat.cast_pow, Nat.cast_ofNat, ← zpow_natCast,
        ← zpow_add₀ (by norm_num), hgrid] at hinside
      rwa [Decimals.toRat, Nat.cast_one, one_mul]
    · exact hinside

end

end Spreadsheet.Number
