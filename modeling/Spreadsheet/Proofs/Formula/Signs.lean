import Mathlib.Algebra.Ring.Parity
import Spreadsheet.Proofs.Formula.Words

/-!
# Signs in front of operands

A primary is an operand without signs in front. Signs in front of it are folded while they are read:
an odd number of minus signs negates it once, and an even number leaves it as it is
(`SpellsPrimary.signed`). Each minus sign of a nested negation `-(-(…))` negates it instead
(`SpellsOperand.negations`).
-/

namespace Spreadsheet

open Token

/-! ## Primaries -/

/-- Whether a token is a sign. -/
def Token.isSign (t : Token) : Bool :=
  t.isOperator "-" || t.isOperator "+"

/-- Tokens that spell one operand and have no sign in front. -/
structure SpellsPrimary (o : Options) (ts : List Token) (x : Expr) : Prop where
  spells : SpellsOperand o ts x
  unsigned : ∀ t, ts.head? = some t → t.isSign = false

section
variable {o o' : Options} {ts : List Token} {t : Token} {x : Expr}

/-! ## Folded signs -/

/-- The number of minus signs among some tokens. -/
def Token.minuses (signs : List Token) : Nat :=
  signs.countP (·.isOperator "-")

theorem Token.minuses_cons (t : Token) (signs : List Token) :
    minuses (t :: signs) = minuses signs + if t.isOperator "-" then 1 else 0 :=
  List.countP_cons

/-- One more minus sign turns the sign. -/
theorem odd_succ_xor (negated : Bool) (n : Nat) :
    (!negated ^^ decide (Odd n)) = (negated ^^ decide (Odd (n + 1))) := by
  rw [Bool.not_xor, ← Bool.xor_not, ← decide_not, decide_eq_decide.2 Nat.odd_add_one]

/-- The rest of what has been read is not looked at. -/
theorem Descent.exists_within {α : Type} {m n : Nat} {h : m ≤ n} {x : α}
    {result : Except FormulaError (Phrase α m)} :
    (∃ p, (·.within h) <$> result = .ok p ∧ p.value = x ∧ p.rest = []) ↔
      ∃ p, result = .ok p ∧ p.value = x ∧ p.rest = [] := by
  cases result with
  | error error => exact ⟨nofun, nofun⟩
  | ok p => simp [Phrase.within, Functor.map, Except.map]

/-- Signs are folded in front of an operand: each minus sign turns the sign it has. -/
theorem Descent.exists_operand_signs {signs : List Token} (hsigns : ∀ t ∈ signs, t.isSign = true)
    (room : Nat) (negated : Bool) :
    (∃ p, operand o room negated (signs ++ ts) = .ok p ∧ p.value = x ∧ p.rest = []) ↔
      ∃ p, operand o room (negated ^^ decide (Odd (minuses signs))) ts = .ok p ∧ p.value = x ∧
        p.rest = [] := by
  induction signs generalizing negated with
  | nil =>
    have hodd : (negated ^^ decide (Odd (minuses []))) = negated := by simp [minuses]
    rw [hodd, List.nil_append]
  | cons t signs ih =>
    obtain ⟨ht, hrest⟩ := List.forall_mem_cons.1 hsigns
    rw [List.cons_append, operand, Token.minuses_cons]
    split
    · next hminus => rw [exists_within, ih hrest, odd_succ_xor]
    · next hminus =>
      have hplus : t.isOperator "+" = true := (Bool.or_eq_true_iff.1 ht).resolve_left hminus
      rw [if_pos hplus, exists_within, ih hrest, Nat.add_zero]

/-- Behind its signs, an operand is read in the same way, and what is read gets the sign. -/
theorem Descent.exists_operand_unsigned (h : ∀ t, ts.head? = some t → t.isSign = false)
    {room : Nat} (hx : ∃ p, operand o room false ts = .ok p ∧ p.value = x ∧ p.rest = [])
    (negated : Bool) :
    ∃ p, operand o room negated ts = .ok p ∧ p.value = signed negated x ∧ p.rest = [] := by
  cases ts with
  | nil =>
    rw [operand] at hx
    obtain ⟨p, ⟨⟩, -⟩ := hx
  | cons t rest =>
    obtain ⟨hminus, hplus⟩ := Bool.or_eq_false_iff.1 (h t rfl)
    rw [operand] at hx ⊢
    simp only [hminus, hplus] at hx ⊢
    cases hprimary : primary o room (t :: rest) with
    | error error =>
      rw [hprimary] at hx
      obtain ⟨p, ⟨⟩, -⟩ := hx
    | ok p =>
      rw [hprimary] at hx
      obtain ⟨-, ⟨⟩, rfl, hrest⟩ := hx
      exact ⟨_, rfl, rfl, hrest⟩

/-- **Signs are folded.** An odd number of minus signs negates a primary, an even number leaves it
as it is, and plus signs do nothing. -/
theorem SpellsPrimary.signed (h : SpellsPrimary o ts x) {signs : List Token}
    (hsigns : ∀ t ∈ signs, t.isSign = true) :
    SpellsOperand o (signs ++ ts) (if Odd (minuses signs) then x.negated else x) := by
  have hsigned : (if Odd (minuses signs) then x.negated else x) =
      Descent.signed (decide (Odd (minuses signs))) x := by
    simp [Descent.signed]
  rw [hsigned]
  refine (Descent.exists_operand_signs hsigns o.maxNesting false).2 ?_
  rw [Bool.false_xor]
  exact Descent.exists_operand_unsigned h.unsigned h.spells _

/-! ## Nested negations -/

/-- Some tokens with so many negations around them, each but the innermost of a parenthesis. -/
def Token.negations : Nat → List Token → List Token
  | 0, ts => ts
  | n + 1, ts => mark "-" :: grouped (negations n ts)

/-- What spells one operand is read as it, with room enough. -/
theorem SpellsOperand.readsAs (h : SpellsOperand o ts x) (ho : o'.grouping = o.grouping)
    {room : Nat} (hroom : o.maxNesting ≤ room) : ReadsAs o' room ts x := by
  intro opened
  obtain ⟨r, negated, hr, hlevel, hopened, hafter⟩ :=
    h.foldlM_eq (l := .fresh room) opened ho rfl hroom
  refine ⟨r, x, hr, ?_, hopened, hafter, ?_⟩
  · rw [hlevel]
    rfl
  · rw [hlevel]
    exact Level.close_of_nil rfl x

/-- A minus sign negates what stands between parentheses. -/
theorem SpellsOperand.negation (h : SpellsOperand o ts x) :
    SpellsOperand (o.deepen 1) (mark "-" :: grouped ts) x.negated := by
  have hgrouping : (o.deepen 1).grouping = o.grouping := rfl
  have hreads : ReadsAs (o.deepen 1) o.maxNesting ts x := h.readsAs hgrouping (Nat.le_refl _)
  let b : Level := { Level.fresh (o.maxNesting + 1) with negated := true }
  have hgrouped : (grouped ts).foldlM (·.step (o.deepen 1)) (⟨.operand, b, []⟩ : Reader) =
      .ok ⟨.operator x.negated, b, []⟩ := hreads.grouped rfl []
  refine spellsOperand_iff.2 ⟨⟨.operator x.negated, b, []⟩, ?_, rfl, rfl, ?_⟩
  · have hminus : Reader.step (o.deepen 1) (Reader.start (o.deepen 1)) (mark "-") =
        .ok ⟨.operand, b, []⟩ := rfl
    rw [foldlM_of_step hminus, hgrouped]
  · exact congrArg Except.ok (Level.close_of_nil rfl _)

/-- **Nested negations negate one after the other.** -/
theorem SpellsOperand.negations (h : SpellsOperand o ts x) (n : Nat) :
    SpellsOperand (o.deepen n) (Token.negations n ts) (Expr.negated^[n] x) := by
  induction n with
  | zero => exact h
  | succ n ih =>
    rw [Function.iterate_succ_apply']
    exact ih.negation

end

end Spreadsheet
