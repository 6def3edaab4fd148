import Spreadsheet.Function.Catalogue
import Spreadsheet.Proofs.Number.Conversion

/-!
# The functions that round

`ROUNDDOWN`, `ROUND` and `ROUNDUP` convert the decimal that their rounding looks for on the grid of
the digits (`rounds_on_grid`), so that they are in order, and leave what is on the grid as it is.
`ROUND` chooses its strategy by the sign of the number, and so halves go up
(`roundingStrategy_serves`). The quotient that is rounded to digits before the point has 28 places,
and where it is a zero in these, so is the result.
-/

namespace Spreadsheet.Function

open Spreadsheet.Number
open Decimal (Rounding OnGrid Strategy)

/-- The function that rounds so. -/
def roundingName : Rounding → String
  | .down => "ROUNDDOWN"
  | .up => "ROUNDUP"
  | .nearest => "ROUND"

/-- The strategy that it rounds a number with. -/
def roundingStrategy (r : Rounding) (x : Float) : Strategy :=
  match r with
  | .down => .toNegativeInfinity
  | .up => .toPositiveInfinity
  | .nearest => if x < 0 then .midpointTowardZero else .midpointAwayFromZero

theorem find?_roundingName (r : Rounding) (s : Surroundings) (args : List Value) :
    (find? (roundingName r)).map (·.result s args) =
      some (roundWith (roundingStrategy r (numberArg args 0 0)) (roundDigits args)
        (numberArg args 0 0)) := by
  cases r <;> rfl

/-- **Halves go up.** The strategy that a function chooses by the sign of the number is the right
one for what it looks for. -/
theorem roundingStrategy_serves (r : Rounding) {x : Float} {d : Decimal}
    (h : Decimal.ofFloat? x = some d) : (roundingStrategy r x).Serves r d.coefficient := by
  have hsign := Decimal.sign_of_ofFloat? h
  cases r with
  | down | up => rfl
  | nearest =>
    unfold roundingStrategy
    dsimp only
    split
    · next hlt => exact .inl ⟨rfl, by rwa [if_pos hlt] at hsign⟩
    · next hnot => exact .inr ⟨rfl, by rwa [if_neg hnot] at hsign⟩

theorem clampToInt_mem {low high : Int} (h : low ≤ high) (x : Float) :
    low ≤ clampToInt low high x ∧ clampToInt low high x ≤ high := by
  unfold clampToInt
  split
  · omega
  · split
    · omega
    · split <;> omega

/-- A number whose decimal is rounded to one within the limits. -/
theorem roundWith_eq_number {args : List Value} {d : Decimal} {places : Int} {r : Rounding}
    (hd : Decimal.ofFloat? (numberArg args 0 0) = some d)
    (hplaces : clampToInt (-15) 15 (numberArg args 1 0) = places)
    (hfits : r.Fits places d.toRat) :
    d.roundTo? (roundingStrategy r (numberArg args 0 0)) places = some (d.rounded r places) ∧
      isFinite (d.rounded r places).toFloat = true ∧
        roundWith (roundingStrategy r (numberArg args 0 0)) (roundDigits args)
          (numberArg args 0 0) = .number (d.rounded r places).toFloat := by
  have hreduced := Decimal.isReduced_of_ofFloat? hd
  obtain ⟨hlow, hhigh⟩ := clampToInt_mem (by decide : (-15 : Int) ≤ 15) (numberArg args 1 0)
  rw [hplaces] at hlow hhigh
  have hround := hreduced.roundTo?_eq (roundingStrategy_serves r hd) (hlow.trans' (by decide)) hfits
  have hfinite := hreduced.isFinite_rounded hlow hhigh hfits
  refine ⟨hround, hfinite, ?_⟩
  rw [roundWith, roundDigits, maxRoundDigits, hplaces, hd, Option.bind_some, hround]
  dsimp only
  rw [Value.ofFinite, finiteOrZero, if_pos hfinite]

/-- **Rounding finds the point of the grid.** A function that rounds converts the decimal that it
looks for among the multiples of the unit, if this is within the limits, and if a quotient by a unit
above one is still told from zero in the places of a decimal. The three functions are in order, and
a decimal on the grid stays as it is. -/
theorem rounds_on_grid (s : Surroundings) (args : List Value) {d : Decimal} {places : Int}
    (hd : Decimal.ofFloat? (numberArg args 0 0) = some d)
    (hplaces : clampToInt (-15) 15 (numberArg args 1 0) = places) :
    ∃ e : Rounding → Decimal,
      (∀ r : Rounding, r.Fits places d.toRat →
        d.roundTo? (roundingStrategy r (numberArg args 0 0)) places = some (e r) ∧
        isFinite (e r).toFloat = true ∧
        (find? (roundingName r)).map (·.result s args) = some (.number (e r).toFloat) ∧
        ((places < 0 → r.Survives (d.toRat / 10 ^ (-places))) →
          r.Finds (10 ^ (-places)) d.toRat (e r).toRat)) ∧
      ((∀ r : Rounding, r.Fits places d.toRat) →
        toRat (e .down).toFloat ≤ toRat (e .nearest).toFloat ∧
        toRat (e .nearest).toFloat ≤ toRat (e .up).toFloat) ∧
      (OnGrid (10 ^ (-places)) d.toRat → ∀ r : Rounding, r.Fits places d.toRat ∧ e r = d) := by
  have hreduced := Decimal.isReduced_of_ofFloat? hd
  obtain ⟨hlow, hhigh⟩ := clampToInt_mem (by decide : (-15 : Int) ≤ 15) (numberArg args 1 0)
  rw [hplaces] at hlow hhigh
  have hlow' : -(Decimal.maxScale : Int) ≤ places := hlow.trans' (by decide)
  refine ⟨fun r => d.rounded r places, fun r hfits => ?_, hreduced.rounded_order hlow hhigh,
    fun hgrid r => ⟨hreduced.fits_of_onGrid hgrid r, hreduced.rounded_eq_self hlow' hgrid r⟩⟩
  obtain ⟨hround, hfinite, hresult⟩ := roundWith_eq_number hd hplaces hfits
  refine ⟨hround, hfinite, ?_, hreduced.rounded_finds hlow'⟩
  rw [find?_roundingName, hresult]

/-- A half below zero is rounded upwards. -/
theorem rounds_on_grid_hundreds :
    Decimal.ofFloat? (-1250) = some ⟨-1250, 0⟩ ∧ clampToInt (-15) 15 (-2) = -2 ∧
      ∃ e : Rounding → Decimal,
        (∀ r : Rounding, r.Fits (-2) (-1250) ∧ r.Survives (-1250 / 10 ^ (2 : ℤ)) ∧
          (find? (roundingName r)).map (·.result ⟨0, 0⟩ [.number (-1250), .number (-2)]) =
            some (.number (e r).toFloat) ∧
          r.Finds (10 ^ (2 : ℤ)) (-1250) (e r).toRat) ∧
        (e .nearest).toRat = -1200 := by
  have hd : Decimal.ofFloat? (-1250) = some ⟨-1250, 0⟩ := by decide +kernel
  have hplaces : clampToInt (-15) 15 (-2) = -2 := by decide +kernel
  have hvalue : Decimal.toRat ⟨-1250, 0⟩ = -1250 := by norm_num [Decimal.toRat]
  obtain ⟨e, hall, -, -⟩ := rounds_on_grid ⟨0, 0⟩ [.number (-1250), .number (-2)] hd hplaces
  rw [hvalue] at hall
  have hfits : ∀ r : Rounding, r.Fits (-2) (-1250) := by
    intro r
    exact r.fits_of_lt (by norm_num [Decimal.sizeLimit])
  have hsurvives : ∀ r : Rounding, r.Survives (-1250 / 10 ^ (2 : ℤ)) := by
    intro r
    cases r <;> norm_num [Decimal.Rounding.Survives, Decimal.maxScale]
  have hfinds := fun r => (hall r (hfits r)).2.2.2 fun _ => hsurvives r
  refine ⟨hd, hplaces, e,
    fun r => ⟨hfits r, hsurvives r, (hall r (hfits r)).2.2.1, hfinds r⟩, ?_⟩
  rw [(Decimal.Rounding.finds_iff (by norm_num)).1 (hfinds .nearest)]
  norm_num [Decimal.Rounding.toInt]

/-- Where the quotient is a zero in the places of a decimal, a number above zero is not rounded
up. -/
theorem not_rounds_on_grid_tiny :
    ¬ ∀ (args : List Value) (d : Decimal) (places : Int),
      Decimal.ofFloat? (numberArg args 0 0) = some d →
      clampToInt (-15) 15 (numberArg args 1 0) = places →
      ∀ r : Rounding, r.Fits places d.toRat →
        ∃ e, d.roundTo? (roundingStrategy r (numberArg args 0 0)) places = some e ∧
          r.Finds (10 ^ (-places)) d.toRat e.toRat := by
  intro h
  have hvalue : Decimal.toRat ⟨1, 14⟩ = 1 / 10 ^ 14 := by norm_num [Decimal.toRat]
  obtain ⟨e, hround, hfinds⟩ := h [.number 0.00000000000001, .number (-15)] ⟨1, 14⟩ (-15)
    (by decide +kernel) (by decide +kernel) .up
    (Rounding.fits_of_lt .up (by norm_num [hvalue, Decimal.sizeLimit]))
  have hzero : Decimal.roundTo? .toPositiveInfinity (-15) ⟨1, 14⟩ = some ⟨0, 0⟩ := by
    decide +kernel
  obtain rfl := Option.some.inj (hzero.symm.trans hround)
  have hle := hfinds.1.2
  norm_num [hvalue, Decimal.toRat] at hle

end Spreadsheet.Function
