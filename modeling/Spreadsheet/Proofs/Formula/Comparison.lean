import Spreadsheet.Formula.Operation
import Spreadsheet.Proofs.Number.Order

/-!
# Comparisons of numbers

Two values that have finite numbers are compared as these are, whether they are numbers or numerals
in text: each operator of comparison tells how the two rational numbers are related
(`Operator.apply_relates`). The one exception are the two zeros: the one with a minus sign, which is
the sum of no numbers and the negation of zero, comes before the other one
(`Operator.not_apply_relates_zeros`).
-/

namespace Spreadsheet

open Number

/-- Whether rational numbers are related as an operator of comparison says. -/
def Operator.relates (op : Operator) (p q : ℚ) : Bool :=
  match op with
  | .equal => p = q
  | .notEqual => p ≠ q
  | .less => p < q
  | .lessEqual => p ≤ q
  | .greater => p > q
  | .greaterEqual => p ≥ q
  | _ => false

section
variable {op : Operator} {v w : Value} {a b : Float} {p q : ℚ}

/-- Values that have numbers are compared as these. -/
theorem Value.compareTo_of_number? (hv : v.number? = some a) (hw : w.number? = some b) :
    v.compareTo w = compareTotal a b := by
  rw [Value.compareTo, hv, hw]

/-- Values that are compared as rational numbers are related as these. -/
theorem Operator.apply_of_compareTo (hop : op.isComparison = true)
    (h : v.compareTo w = compare p q) : op.apply v w = .ofBool (op.relates p q) := by
  cases op with
  | equal =>
    have heq : (compare p q == .eq) = decide (p = q) :=
      Bool.eq_iff_iff.2 (by rw [beq_iff_eq, compare_eq_iff_eq, decide_eq_true_iff])
    rw [apply, relates, h, heq]
  | notEqual =>
    have hne : (compare p q != .eq) = decide (p ≠ q) :=
      Bool.eq_iff_iff.2 (by rw [bne_iff_ne, Ne, compare_eq_iff_eq, decide_eq_true_iff])
    rw [apply, relates, h, hne]
  | less =>
    have hlt : (compare p q == .lt) = decide (p < q) :=
      Bool.eq_iff_iff.2 (by rw [beq_iff_eq, compare_lt_iff_lt, decide_eq_true_iff])
    rw [apply, relates, h, hlt]
  | lessEqual =>
    have hle : (compare p q != .gt) = decide (p ≤ q) :=
      Bool.eq_iff_iff.2 (by rw [bne_iff_ne, compare_le_iff_le, decide_eq_true_iff])
    rw [apply, relates, h, hle]
  | greater =>
    have hgt : (compare p q == .gt) = decide (p > q) :=
      Bool.eq_iff_iff.2 (by rw [beq_iff_eq, compare_gt_iff_gt, decide_eq_true_iff])
    rw [apply, relates, h, hgt]
  | greaterEqual =>
    have hge : (compare p q != .lt) = decide (p ≥ q) :=
      Bool.eq_iff_iff.2 (by rw [bne_iff_ne, compare_ge_iff_ge, decide_eq_true_iff])
    rw [apply, relates, h, hge]
  | _ => cases hop

/-- **Numbers are compared as rational numbers**, and so are numerals in text: what a comparison
gives is told by the order of the two, unless one is zero and the other is zero with a minus sign,
which is less. -/
theorem Operator.apply_relates (hop : op.isComparison = true) (hv : v.number? = some a)
    (hw : w.number? = some b) (ha : isFinite a = true) (hb : isFinite b = true) :
    (¬(a = -0 ∧ b = 0) → ¬(a = 0 ∧ b = -0) →
      op.apply v w = .ofBool (op.relates (toRat a) (toRat b))) ∧
    (a = -0 ∧ b = 0 → op.apply v w = .ofBool (op.relates (-1) 0)) ∧
    (a = 0 ∧ b = -0 → op.apply v w = .ofBool (op.relates 0 (-1))) := by
  have hcompare : v.compareTo w = compareTotal a b := Value.compareTo_of_number? hv hw
  refine ⟨fun hbelow habove => ?_, fun hzeros => ?_, fun hzeros => ?_⟩
  · refine apply_of_compareTo hop (hcompare.trans (compareTotal_eq ha hb fun heq => ?_))
    rcases eq_or_zeros_of_toRat_eq ha hb heq with hsame | hzeros | hzeros
    · exact hsame
    · exact absurd hzeros hbelow
    · exact absurd hzeros habove
  · have hless : compareTotal (-0) 0 = compare (-1 : ℚ) 0 := by decide +kernel
    exact apply_of_compareTo hop (by rw [hcompare, hzeros.1, hzeros.2, hless])
  · have hgreater : compareTotal 0 (-0) = compare (0 : ℚ) (-1) := by decide +kernel
    exact apply_of_compareTo hop (by rw [hcompare, hzeros.1, hzeros.2, hgreater])

/-- As text, `2.5` would come after `10`. -/
theorem Operator.less_apply_relates_text :
    Operator.less.apply (.text "2.5") (.number 10) =
      .ofBool (Operator.less.relates (5 / 2) 10) := by
  have hfive : toRat 2.5 = 5 / 2 := by decide +kernel
  have hten : toRat 10 = 10 := by decide +kernel
  have htext : (Value.text "2.5").number? = some 2.5 := by decide +kernel
  have hnumber : (Value.number 10).number? = some 10 := rfl
  have hcomparison : Operator.less.isComparison = true := rfl
  have happly := (Operator.apply_relates hcomparison htext hnumber (by decide) (by decide)).1
    (by decide +kernel) (by decide +kernel)
  rwa [hfive, hten] at happly

/-- The two zeros are one rational number, yet they are not compared as equal. -/
theorem Operator.not_apply_relates_zeros :
    ¬ ∀ (op : Operator) (v w : Value) (a b : Float), op.isComparison = true →
      v.number? = some a → w.number? = some b → isFinite a = true → isFinite b = true →
      op.apply v w = .ofBool (op.relates (toRat a) (toRat b)) := by
  intro h
  have hequal := h .equal (.number (-0)) (.number 0) (-0) 0 rfl rfl rfl (by decide) (by decide)
  exact absurd hequal (by decide +kernel)

end

end Spreadsheet
