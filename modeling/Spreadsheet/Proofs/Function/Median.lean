import Spreadsheet.Function.Catalogue
import Spreadsheet.Proofs.Number.Order

/-!
# The median

`MEDIAN` looks at nothing but the numbers among its arguments, and at these in no order: arguments
may change places, and texts and blanks may come and go (`rearranged_iff`). Numbers have only one
arrangement in the total order (`eq_sorted_iff`), in which even the two zeros do not show how they
were given. The number in its middle has at most half of all numbers below it and at most half above
it (`InOrder.isMiddle`), and where two are in the middle, their mean is the median
(`median_in_middle`).
-/

namespace Spreadsheet.Function

open Spreadsheet.Number

/-! ## Arguments with the same numbers -/

/-- Arguments that become others when they change places and when texts and blanks are put in or
left out. -/
inductive Rearranged : List Value → List Value → Prop where
  | permuted {args args' : List Value} (h : args.Perm args') : Rearranged args args'
  | putIn (before after : List Value) {v : Value} (h : v.isNumber = false) :
    Rearranged (before ++ after) (before ++ v :: after)
  | leftOut (before after : List Value) {v : Value} (h : v.isNumber = false) :
    Rearranged (before ++ v :: after) (before ++ after)
  | trans {args₁ args₂ args₃ : List Value} (h₁ : Rearranged args₁ args₂)
    (h₂ : Rearranged args₂ args₃) : Rearranged args₁ args₃

section
variable {args args' : List Value}

/-- Texts and blanks do not count among the numbers. -/
theorem numbers_insert (before after : List Value) {v : Value} (h : v.isNumber = false) :
    numbers (before ++ v :: after) = numbers (before ++ after) := by
  have hnone : plainNumber? v = none := by
    cases v with
    | number => cases h
    | blank | text => rfl
  rw [numbers, numbers, List.filterMap_append, List.filterMap_append, List.filterMap_cons, hnone]

/-- Arguments that are rearranged have the same numbers in another order. -/
theorem Rearranged.perm_numbers (h : Rearranged args args') :
    (numbers args).Perm (numbers args') := by
  induction h with
  | permuted h => exact h.filterMap _
  | putIn before after h => exact .of_eq (numbers_insert before after h).symm
  | leftOut before after h => exact .of_eq (numbers_insert before after h)
  | trans _ _ ih₁ ih₂ => exact ih₁.trans ih₂

/-- Rearranging can be undone. -/
theorem Rearranged.symm (h : Rearranged args args') : Rearranged args' args := by
  induction h with
  | permuted h => exact .permuted h.symm
  | putIn before after h => exact .leftOut before after h
  | leftOut before after h => exact .putIn before after h
  | trans _ _ ih₁ ih₂ => exact ih₂.trans ih₁

/-- Arguments may be rearranged behind another one. -/
theorem Rearranged.cons (v : Value) (h : Rearranged args args') :
    Rearranged (v :: args) (v :: args') := by
  induction h with
  | permuted h => exact .permuted (h.cons v)
  | putIn before after h => exact .putIn (v :: before) after h
  | leftOut before after h => exact .leftOut (v :: before) after h
  | trans _ _ ih₁ ih₂ => exact ih₁.trans ih₂

/-- All texts and blanks may be left out. -/
theorem rearranged_numbers (args : List Value) :
    Rearranged args ((numbers args).map .number) := by
  induction args with
  | nil => exact .permuted .nil
  | cons v rest ih =>
    cases v with
    | number n => exact ih.cons (.number n)
    | blank | text => exact (Rearranged.leftOut [] rest rfl).trans ih

/-- Arguments are rearranged if they have the same numbers, each as often. -/
theorem rearranged_iff : Rearranged args args' ↔ (numbers args).Perm (numbers args') := by
  refine ⟨Rearranged.perm_numbers, fun h => ?_⟩
  have hnumbers : Rearranged ((numbers args).map .number) ((numbers args').map .number) :=
    .permuted (h.map _)
  exact ((rearranged_numbers args).trans hnumbers).trans (rearranged_numbers args').symm

end

/-! ## Numbers in order -/

/-- Whether numbers stand in their total order. -/
def InOrder (xs : List Float) : Prop :=
  xs.Pairwise fun x y => orderKey x ≤ orderKey y

instance (xs : List Float) : Decidable (InOrder xs) :=
  inferInstanceAs (Decidable (xs.Pairwise _))

section
variable {xs ys : List Float}

/-- Sorting only changes the order. -/
theorem perm_sorted (xs : List Float) : (sorted xs).Perm xs :=
  List.mergeSort_perm ..

/-- Sorted numbers are in order. -/
theorem inOrder_sorted (xs : List Float) : InOrder (sorted xs) := by
  have hsorted : (sorted xs).Pairwise fun x y => decide (orderKey x ≤ orderKey y) = true := by
    refine List.pairwise_mergeSort (fun x y z hxy hyz => ?_) (fun x y => ?_) xs
    · exact decide_eq_true ((of_decide_eq_true hxy).trans (of_decide_eq_true hyz))
    · rw [Bool.or_eq_true, decide_eq_true_iff, decide_eq_true_iff]
      exact le_total _ _
  exact hsorted.imp of_decide_eq_true

/-- Sorting finds the one arrangement of numbers that is in order. -/
theorem eq_sorted_iff : ys = sorted xs ↔ ys.Perm xs ∧ InOrder ys := by
  constructor
  · rintro rfl
    exact ⟨perm_sorted xs, inOrder_sorted xs⟩
  · rintro ⟨hperm, hordered⟩
    have hsame := hperm.trans (perm_sorted xs).symm
    exact hsame.eq_of_pairwise
      (fun x y _ _ hxy hyx => orderKey_injective (le_antisymm hxy hyx)) hordered
      (inOrder_sorted xs)

/-- Sorting does not depend on the order before it. -/
theorem sorted_congr (h : xs.Perm ys) : sorted xs = sorted ys :=
  eq_sorted_iff.2 ⟨(perm_sorted xs).trans h, inOrder_sorted xs⟩

/-- The median does not depend on the order of the numbers. -/
theorem median_congr (h : xs.Perm ys) : median xs = median ys := by
  rw [median, median, sorted_congr h]

/-! ## The middle -/

/-- A number among others with at most half of all below it and at most half above it. -/
structure IsMiddle (m : Float) (xs : List Float) : Prop where
  mem : m ∈ xs
  below : 2 * xs.countP (fun x => toRat x < toRat m) ≤ xs.length
  above : 2 * xs.countP (fun x => toRat m < toRat x) ≤ xs.length

/-- Being in the middle does not depend on the order of the numbers. -/
theorem IsMiddle.perm {m : Float} (h : IsMiddle m xs) (hperm : xs.Perm ys) : IsMiddle m ys where
  mem := hperm.mem_iff.1 h.mem
  below := by
    rw [← hperm.countP_eq, ← hperm.length_eq]
    exact h.below
  above := by
    rw [← hperm.countP_eq, ← hperm.length_eq]
    exact h.above

/-- Keys rise along numbers that are in order. -/
theorem InOrder.orderKey_le (h : InOrder ys) {i j : Nat} (hij : i ≤ j) (hj : j < ys.length) :
    orderKey ys[i] ≤ orderKey ys[j] := by
  rcases Nat.lt_or_eq_of_le hij with hlt | rfl
  · exact List.pairwise_iff_getElem.1 h i j (Nat.lt_trans hlt hj) hj hlt
  · exact le_rfl

/-- Finite numbers that are in order rise. -/
theorem InOrder.toRat_le (h : InOrder ys) (hfinite : ∀ y ∈ ys, isFinite y = true) {i j : Nat}
    (hij : i ≤ j) (hj : j < ys.length) : toRat ys[i] ≤ toRat ys[j] :=
  toRat_le_of_orderKey_le (hfinite _ (List.getElem_mem _)) (hfinite _ (List.getElem_mem _))
    (h.orderKey_le hij hj)

/-- What is counted is counted before a place and from there on. -/
theorem countP_cut (p : Float → Bool) (ys : List Float) (i : Nat) :
    ys.countP p = (ys.take i).countP p + (ys.drop i).countP p := by
  rw [← List.countP_append, List.take_append_drop]

/-- Only the numbers before a place may be below the number in it. -/
theorem InOrder.countP_below_le (h : InOrder ys) (hfinite : ∀ y ∈ ys, isFinite y = true) {i : Nat}
    (hi : i < ys.length) : ys.countP (fun y => toRat y < toRat ys[i]) ≤ i := by
  have hrest : (ys.drop i).countP (fun y => toRat y < toRat ys[i]) = 0 := by
    refine List.countP_eq_zero.2 fun y hy hlt => ?_
    obtain ⟨j, hj, rfl⟩ := List.mem_drop_iff_getElem.1 hy
    exact absurd (of_decide_eq_true hlt) (not_lt.2 (h.toRat_le hfinite (Nat.le_add_right i j) _))
  calc ys.countP (fun y => toRat y < toRat ys[i])
    _ = (ys.take i).countP (fun y => toRat y < toRat ys[i]) := by
      rw [countP_cut _ ys i, hrest, Nat.add_zero]
    _ ≤ (ys.take i).length := List.countP_le_length
    _ ≤ i := List.length_take_le ..

/-- Only the numbers after a place may be above the number in it. -/
theorem InOrder.countP_above_lt (h : InOrder ys) (hfinite : ∀ y ∈ ys, isFinite y = true) {i : Nat}
    (hi : i < ys.length) : ys.countP (fun y => toRat ys[i] < toRat y) + i < ys.length := by
  have hfirst : (ys.take (i + 1)).countP (fun y => toRat ys[i] < toRat y) = 0 := by
    refine List.countP_eq_zero.2 fun y hy hlt => ?_
    obtain ⟨j, hj, rfl⟩ := List.mem_take_iff_getElem.1 hy
    have hji : j ≤ i := Nat.le_of_lt_succ (Nat.lt_of_lt_of_le hj (Nat.min_le_left ..))
    exact absurd (of_decide_eq_true hlt) (not_lt.2 (h.toRat_le hfinite hji hi))
  have hcount : ys.countP (fun y => toRat ys[i] < toRat y) ≤ ys.length - (i + 1) :=
    calc ys.countP (fun y => toRat ys[i] < toRat y)
      _ = (ys.drop (i + 1)).countP (fun y => toRat ys[i] < toRat y) := by
        rw [countP_cut _ ys (i + 1), hfirst, Nat.zero_add]
      _ ≤ (ys.drop (i + 1)).length := List.countP_le_length
      _ = ys.length - (i + 1) := List.length_drop
  omega

/-- The number in the middle place is in the middle. -/
theorem InOrder.isMiddle (h : InOrder ys) (hfinite : ∀ y ∈ ys, isFinite y = true) {k : Nat}
    (hk : k < ys.length) (hlength : ys.length = 2 * k + 1) : IsMiddle ys[k] ys where
  mem := List.getElem_mem hk
  below := by
    have hbelow := h.countP_below_le hfinite hk
    omega
  above := by
    have habove := h.countP_above_lt hfinite hk
    omega

/-- The median of no numbers is zero. -/
theorem median_nil : median [] = 0 := by
  rw [median, sorted, List.mergeSort_nil, List.isEmpty_nil, if_pos rfl]

/-- The median of an odd number of numbers stands in the middle. -/
theorem median_odd {k : Nat} (hlength : (sorted xs).length = 2 * k + 1) :
    (sorted xs)[k]? = some (median xs) := by
  have hmiddle : (sorted xs).length / 2 = k := by omega
  have hodd : (sorted xs).length % 2 = 1 := by omega
  have hk : k < (sorted xs).length := by omega
  have hne : (sorted xs).isEmpty = false :=
    List.isEmpty_eq_false_iff.2 (List.ne_nil_of_length_pos (by omega))
  rw [median, hne, if_neg Bool.false_ne_true, if_pos hodd, hmiddle, List.getD_eq_getElem _ _ hk,
    List.getElem?_eq_getElem hk]

/-- The median of an even number of numbers is halfway between the two in the middle. -/
theorem median_even {k : Nat} (hlength : (sorted xs).length = 2 * k + 2) :
    ∃ a b, (sorted xs)[k]? = some a ∧ (sorted xs)[k + 1]? = some b ∧ median xs = (a + b) / 2 := by
  have hmiddle : (sorted xs).length / 2 = k + 1 := by omega
  have heven : ¬(sorted xs).length % 2 = 1 := by omega
  have hne : (sorted xs).isEmpty = false :=
    List.isEmpty_eq_false_iff.2 (List.ne_nil_of_length_pos (by omega))
  refine ⟨(sorted xs)[k], (sorted xs)[k + 1], List.getElem?_eq_getElem _,
    List.getElem?_eq_getElem _, ?_⟩
  rw [median, hne, if_neg Bool.false_ne_true, if_neg heven, hmiddle, Nat.add_sub_cancel,
    List.getD_eq_getElem _ _ (by omega), List.getD_eq_getElem _ _ (by omega)]

end

/-! ## The function -/

/-- What the function of the name comes to: the median of the numbers among its arguments. -/
theorem find?_median (s : Surroundings) (args : List Value) :
    (find? "MEDIAN").map (·.result s args) = some (.ofFinite (median (numbers args))) :=
  rfl

/-- **The median is in the middle.** The result is the same for all arguments that have the same
numbers, each as often, and these are the arguments that the given ones can be rearranged to. The
numbers have one arrangement in order. If they are finite and their count is odd, the result is the
one in the middle place, with at most half of all below it and at most half above it. If the count
is even, the result is the mean of the two in the middle, or zero if that is not finite; of no
numbers it is zero. -/
theorem median_in_middle (s : Surroundings) (args : List Value) :
    ∃ (v : Value) (ys : List Float),
      (find? "MEDIAN").map (·.result s args) = some v ∧
      (∀ args', (Rearranged args args' ↔ (numbers args).Perm (numbers args')) ∧
        (Rearranged args args' → ∀ s', (find? "MEDIAN").map (·.result s' args') = some v)) ∧
      (∀ zs, zs = ys ↔ zs.Perm (numbers args) ∧ InOrder zs) ∧
      (numbers args = [] → v = .number 0) ∧
      (∀ k, (numbers args).length = 2 * k + 1 → (∀ x ∈ numbers args, isFinite x = true) →
        ∃ m, ys[k]? = some m ∧ v = .number m ∧ IsMiddle m (numbers args)) ∧
      ∀ k, (numbers args).length = 2 * k + 2 →
        ∃ a b, ys[k]? = some a ∧ ys[k + 1]? = some b ∧
          v = .number (if isFinite ((a + b) / 2) then (a + b) / 2 else 0) := by
  have hperm := perm_sorted (numbers args)
  refine ⟨.ofFinite (median (numbers args)), sorted (numbers args), find?_median s args,
    fun args' => ⟨rearranged_iff, fun h s' => ?_⟩, fun zs => eq_sorted_iff, fun hnone => ?_,
    fun k hlength hfinite => ?_, fun k hlength => ?_⟩
  · rw [find?_median, median_congr h.perm_numbers]
  · rw [hnone, median_nil]
    rfl
  · have hmedian := median_odd (hperm.length_eq.trans hlength)
    obtain ⟨hk, hmiddle⟩ := List.getElem?_eq_some_iff.1 hmedian
    have hisMiddle := (inOrder_sorted (numbers args)).isMiddle
      (fun y hy => hfinite y (hperm.mem_iff.1 hy)) hk (hperm.length_eq.trans hlength)
    rw [hmiddle] at hisMiddle
    have hm := hisMiddle.perm hperm
    refine ⟨_, hmedian, ?_, hm⟩
    rw [Value.ofFinite, finiteOrZero, if_pos (hfinite _ hm.mem)]
  · obtain ⟨a, b, ha, hb, hmean⟩ := median_even (hperm.length_eq.trans hlength)
    refine ⟨a, b, ha, hb, ?_⟩
    rw [hmean, Value.ofFinite, finiteOrZero]

/-- With a numeral in text, a blank and both zeros, the median is the lesser of the zeros, and
stays so without the text and with the zeros in the other order; a mean too large is zero. -/
theorem median_in_middle_zeros :
    (find? "MEDIAN").map (·.result ⟨0, 0⟩ [.number 0, .text "7", .number (-3), .blank,
        .number (-0)]) = some (.number (-0)) ∧
      (find? "MEDIAN").map (·.result ⟨0, 0⟩ [.number (-0), .number (-3), .number 0, .blank]) =
        some (.number (-0)) ∧
      IsMiddle (-0) [0, -3, -0] ∧
      (find? "MEDIAN").map (·.result ⟨0, 0⟩ [.number 1e308, .text "", .number 1.5e308]) =
        some (.number 0) := by
  obtain ⟨v, ys, hv, hsame, hys, -, hodd, -⟩ := median_in_middle ⟨0, 0⟩
    [.number 0, .text "7", .number (-3), .blank, .number (-0)]
  obtain ⟨w, zs, hw, -, hzs, -, -, heven⟩ := median_in_middle ⟨0, 0⟩
    [.number 1e308, .text "", .number 1.5e308]
  obtain rfl := (hys [-3, -0, 0]).2 ⟨by decide, by decide⟩
  obtain rfl := (hzs [1e308, 1.5e308]).2 ⟨.refl _, by decide +kernel⟩
  obtain ⟨m, hm, rfl, hmiddle⟩ := hodd 1 rfl (by decide)
  obtain rfl := Option.some.inj hm
  obtain ⟨a, b, ha, hb, rfl⟩ := heven 0 rfl
  obtain rfl := Option.some.inj ha
  obtain rfl := Option.some.inj hb
  have hlarge : isFinite ((1e308 + 1.5e308) / 2) = false := by decide +kernel
  refine ⟨hv, (hsame _).2 ((hsame _).1.2 ?_) _, hmiddle, ?_⟩
  · exact (by decide : [(0 : Float), -3, -0].Perm [-0, -3, 0])
  · rw [hw, hlarge, if_neg Bool.false_ne_true]

end Spreadsheet.Function
