import Spreadsheet.Formula.Error
import Spreadsheet.Formula.Operation
import Spreadsheet.Function.Catalogue
import Spreadsheet.Proofs.Calendar.Small
import Spreadsheet.Proofs.Number.Finite

/-!
# Results that can be displayed

Text and finite numbers can be displayed (`Value.Displayable`). Every operator results in such a
value, whatever its operands are, and so does every function of the catalogue if no argument is an
infinite number or NaN (`Function.displays_of_find?`). Functions that hand an argument back make
empty text of a blank one.
-/

namespace Spreadsheet

namespace Value

/-- Whether a value is not an infinite number or NaN. -/
def IsFinite : Value → Prop
  | .number n => Number.isFinite n = true
  | .blank | .text _ => True

/-- Whether a value is text or a finite number. -/
def Displayable : Value → Prop
  | .blank => False
  | .number n => Number.isFinite n = true
  | .text _ => True

variable {v : Value}

/-- What can be displayed is finite. -/
theorem Displayable.isFinite (h : v.Displayable) : v.IsFinite := by
  cases v with
  | blank | text => trivial
  | number => exact h

/-- What is finite can be displayed unless it is blank. -/
theorem IsFinite.displayable (h : v.IsFinite) (hne : v ≠ .blank) : v.Displayable := by
  cases v with
  | blank => exact hne rfl
  | text => trivial
  | number => exact h

/-- What a formula shows for a finite value can be displayed. -/
theorem IsFinite.displayed (h : v.IsFinite) : v.displayed.Displayable := by
  cases v with
  | blank | text => trivial
  | number => exact h

/-- A finite value can be displayed as an operand. -/
theorem IsFinite.asOperand (h : v.IsFinite) : v.asOperand.Displayable := by
  cases v with
  | blank => exact Number.isFinite_zero
  | text => trivial
  | number => exact h

@[simp] theorem displayable_text (s : String) : (text s).Displayable :=
  trivial

@[simp] theorem displayable_number {n : Float} :
    (number n).Displayable ↔ Number.isFinite n = true :=
  Iff.rfl

/-- A number with zero in place of what is not finite can be displayed. -/
@[simp] theorem displayable_ofFinite (x : Float) : (ofFinite x).Displayable :=
  Number.isFinite_finiteOrZero x

/-- The numbers for truth values can be displayed. -/
@[simp] theorem displayable_ofBool (b : Bool) : (ofBool b).Displayable := by
  cases b
  · exact Number.isFinite_zero
  · exact Number.isFinite_one

/-- Every count is a finite number. -/
@[simp] theorem displayable_ofNat (n : Nat) : (ofNat n).Displayable := by
  refine Number.isFinite_ofInt ?_
  have hlimit : countLimit = 0xFFFFFFFFFFFFFFFF := rfl
  omega

/-- Input stands for nothing, for text or for a finite number. -/
theorem isFinite_ofInput (raw : String) : (ofInput raw).IsFinite := by
  unfold ofInput
  split
  · trivial
  · split
    · next h => exact Number.isFinite_of_ofText? h
    · trivial

end Value

/-- Every text that stands for an error can be displayed. -/
@[simp] theorem Sentinel.displayable_value (x : Sentinel) : x.value.Displayable :=
  Value.displayable_text _

/-- A division can be displayed, by zero too. -/
theorem divideBy_displayable (f : Float → Float → Float) (a b : Value) :
    (divideBy f a b).Displayable := by
  unfold divideBy
  split
  · exact Number.isFinite_zero
  · exact Value.displayable_ofFinite _

/-- An operation always has a result that can be displayed. -/
theorem Operator.displayable_apply (op : Operator) (a b : Value) : (op.apply a b).Displayable := by
  cases op with
  | divide | modulo => exact divideBy_displayable _ a b
  | add | subtract | multiply | power => exact Value.displayable_ofFinite _
  | concat => exact Value.displayable_text _
  | and | or | equal | notEqual | less | lessEqual | greater | greaterEqual =>
    exact Value.displayable_ofBool _

/-- Whether all numbers that are drawn are finite. -/
def Supply.IsFinite (s : Supply) : Prop :=
  ∀ current drawn, Number.isFinite (s.draw current drawn) = true

/-- The next number that is drawn is finite if all are. -/
theorem Supply.IsFinite.next {s : Surroundings} (h : s.random.IsFinite) :
    Number.isFinite s.next = true :=
  h none 0

/-- A supply of one finite number is finite. -/
theorem Supply.isFinite_always {x : Float} (h : Number.isFinite x = true) : (always x).IsFinite :=
  fun _ _ => h

namespace Function

/-- Whether a function has results that can be displayed, if its arguments and the numbers that are
drawn are finite. -/
def Displays (f : Function) : Prop :=
  ∀ (s : Surroundings) (args : List Value), s.random.IsFinite →
    (∀ v ∈ args, v.IsFinite) → (f.result s args).Displayable
variable {args : List Value}

/-- An argument is finite if all are; a missing one is blank. -/
theorem isFinite_arg (h : ∀ v ∈ args, v.IsFinite) (i : Nat) : (arg args i).IsFinite := by
  rw [arg, List.getD_eq_getElem?_getD]
  cases hi : args[i]? with
  | none => trivial
  | some v => exact h v (List.mem_of_getElem? hi)

/-- What a formula shows for an argument can be displayed. -/
theorem displayable_arg (h : ∀ v ∈ args, v.IsFinite) (i : Nat) :
    (arg args i).displayed.Displayable :=
  (isFinite_arg h i).displayed

/-- How often an argument occurs can be displayed. -/
theorem displayable_countSame (args : List Value) : (countSame args).Displayable := by
  unfold countSame
  split
  · exact Number.isFinite_zero
  · exact Value.displayable_ofNat _

/-- The argument that is chosen can be displayed. -/
theorem displayable_choose (h : ∀ v ∈ args, v.IsFinite) : (choose args).Displayable := by
  refine Value.IsFinite.displayed ?_
  split
  · exact isFinite_arg h 1
  · exact isFinite_arg h 2

/-- A payment can be displayed. -/
theorem displayable_payment (args : List Value) : (payment args).Displayable := by
  unfold payment
  dsimp only
  split <;> exact Value.displayable_ofFinite _

theorem isFinite_pi : Number.isFinite pi = true := by
  decide +kernel

/-- A rounded number can be displayed. -/
theorem displayable_roundWith (s : Number.Decimal.Strategy) (digits : Int) (x : Float) :
    (roundWith s digits x).Displayable := by
  unfold roundWith
  split <;> exact Value.displayable_ofFinite _

/-- A part of a date is a finite number if it is small. -/
theorem displayable_datePart {part : Moment → Int}
    (hpart : ∀ m : Moment, m.Small → (part m).natAbs < 1000000) (args : List Value) :
    (datePart part args).Displayable := by
  unfold datePart
  split
  · next s _ =>
    cases hm : Moment.ofText? s with
    | none => exact Number.isFinite_zero
    | some m =>
      have hsmall := hpart m (Moment.small_of_ofText? hm)
      exact Number.isFinite_ofInt (Nat.lt_trans hsmall (by decide))
  · exact Number.isFinite_zero

/-- All aggregating functions have results that can be displayed. -/
theorem displays_aggregates : ∀ f ∈ aggregates, f.Displays := by
  simp [aggregates, Displays, steady, ofNumbers, count, countFilled, displayable_countSame]

/-- All functions of numbers have results that can be displayed. -/
theorem displays_numerics : ∀ f ∈ numerics, f.Displays := by
  simp +contextual [numerics, Displays, steady, ambient, ofNumber, round, roundTowards,
    displayable_roundWith, displayable_payment, Supply.IsFinite.next, isFinite_pi]

/-- All functions of truth and kind have results that can be displayed. -/
theorem displays_logics : ∀ f ∈ logics, f.Displays := by
  simp +contextual [logics, Displays, steady, displayable_choose, displayable_arg]

/-- All functions of text have results that can be displayed. -/
theorem displays_wordings : ∀ f ∈ wordings, f.Displays := by
  simp [wordings, Displays, steady, textOf, join, left, right, middle]

/-- A part of a date can be displayed, as it is small. -/
theorem displays_datePart {part : Moment → Int} (name : String)
    (h : ∀ m : Moment, m.Small → (part m).natAbs < 1000000) :
    (steady .date name (datePart part)).Displays :=
  fun _ args _ _ => displayable_datePart h args

/-- The functions that tell the time can be displayed. -/
theorem displays_clock (name : String) (text : Surroundings → String) :
    (ambient .date name fun s => .text (text s)).Displays :=
  fun _ _ _ _ => Value.displayable_text _

/-- All functions of dates have results that can be displayed. -/
theorem displays_dates : ∀ f ∈ dates, f.Displays := by
  simp only [dates, List.forall_mem_cons]
  refine ⟨displays_clock _ _, displays_clock _ _, displays_datePart _ fun m h => h.year,
    displays_datePart _ fun m h => ?_, displays_datePart _ fun m h => ?_,
    displays_datePart _ fun m h => ?_, displays_datePart _ fun m h => ?_,
    displays_datePart _ fun m h => ?_, nofun⟩
  · simpa using h.month
  · simpa using h.day
  · simpa using h.hour
  · simpa using h.minute
  · simpa using h.second

/-- Every function of the catalogue has results that can be displayed. -/
theorem displays_of_mem_all {f : Function} (h : f ∈ all) : f.Displays := by
  simp only [all, List.mem_append] at h
  rcases h with (((h | h) | h) | h) | h
  · exact displays_aggregates f h
  · exact displays_numerics f h
  · exact displays_logics f h
  · exact displays_wordings f h
  · exact displays_dates f h

/-- Every function that a name finds has results that can be displayed. -/
theorem displays_of_find? {name : String} {f : Function} (h : find? name = some f) :
    f.Displays := by
  unfold find? at h
  exact displays_of_mem_all (List.mem_of_find?_eq_some h)

end Function

end Spreadsheet
