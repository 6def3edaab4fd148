import Spreadsheet.Evaluation.Expression
import Spreadsheet.Proofs.Formula.LeftToRight

/-!
# Values of chains from left to right

The value of operands that are joined one after the other is a fold over the values of the operands,
in one level of the evaluation (`Expr.value_joined`). So from left to right, a chain is evaluated up
to its first comparison and no further (`Expr.ofTokens_leftToRight`).
-/

namespace Spreadsheet

open Evaluation Token

section
variable (e : Evaluator) (resolve : Coord → Evaluation Value)

/-- The operations of a chain one after the other, from the value of what stands before them. -/
def Chain.operations (v : Value) (rest : List (Operator × Expr)) : Evaluation Value :=
  rest.foldlM (fun v p => return p.1.apply v (← p.2.value e resolve false)) v

variable {e resolve}

/-- On the left of an operator, joined operands belong to its chain. -/
theorem Expr.value_joined_onLeft (x : Expr) (rest : List (Operator × Expr)) :
    (x.joined rest).value e resolve true =
      x.value e resolve true >>= fun v => Chain.operations e resolve v rest := by
  induction rest generalizing x with
  | nil => exact (bind_pure _).symm
  | cons p rest ih =>
    obtain ⟨op, y⟩ := p
    have hjoined : x.joined ((op, y) :: rest) = (Expr.binary op x y).joined rest := rfl
    have hbinary : (Expr.binary op x y).value e resolve true = (do
        return op.apply (← x.value e resolve true) (← y.value e resolve false)) := by
      rw [Expr.value, if_pos rfl]
    rw [hjoined, ih, hbinary]
    simp only [Chain.operations, List.foldlM_cons, bind_assoc]

/-- **Joined operands are evaluated one after the other**, in one level. -/
theorem Expr.value_joined (x : Expr) {rest : List (Operator × Expr)} (hne : rest ≠ []) :
    (x.joined rest).value e resolve false =
      level e.options (do Chain.operations e resolve (← x.value e resolve true) rest) := by
  rw [← Expr.value_joined_onLeft]
  rcases List.eq_nil_or_concat rest with hnil | ⟨before, ⟨op, y⟩, hlast⟩
  · exact absurd hnil hne
  · have hjoined : x.joined rest = .binary op (x.joined before) y := by
      rw [hlast, List.concat_eq_append, Expr.joined, List.foldl_append]
      rfl
    rw [hjoined, Expr.value, Expr.value, if_pos rfl]
    rfl

end

theorem Chain.kept_ne_nil {rest : List (Operator × Expr)} (h : rest ≠ []) : kept rest ≠ [] := by
  cases rest with
  | nil => exact absurd rfl h
  | cons p rest => exact List.cons_ne_nil _ _

/-- **From left to right, a chain is one fold that stops at the first comparison.** Operands with
operators between them are read to the operations up to the first comparison, one after the other,
if each operand may nest as deep as it does. Their value is that of these operations, in order and
in one level, and nothing behind them is evaluated. Tokens that are no formula make none when they
are put behind the chain and an operator, be it behind the comparison. -/
theorem Expr.ofTokens_leftToRight {o o' : Options} (c : SpelledChain o)
    (ho : o.grouping = .leftToRight) (ho' : o'.grouping = .leftToRight)
    (hnesting : o.maxNesting ≤ o'.maxNesting) :
    Expr.ofTokens o' c.tokens = .ok (c.first.joined (Chain.kept (Link.pairs c.links))) ∧
    (∀ (e : Evaluator) (resolve : Coord → Evaluation Value),
      (c.first.joined (Chain.kept (Link.pairs c.links))).value e resolve false =
        if c.links = [] then c.first.value e resolve false
        else level e.options (do
          Chain.operations e resolve (← c.first.value e resolve true)
            (Chain.kept (Link.pairs c.links)))) ∧
    ∀ (t : Token) (op : Operator), t.kind = .operator → Operator.ofText? t.text = some op →
      Expr.ofTokens o' (c.tokens ++ [t]) = .error (.badSyntax .unexpectedEnd) ∧
      ∀ (rest : List Token) (error : FormulaError), rest ≠ [] →
        Expr.ofTokens o' rest = .error error →
          Expr.ofTokens o' (c.tokens ++ t :: rest) = .error error := by
  refine ⟨(c.readsAs_leftToRight ho ho' hnesting).ofTokens, fun e resolve => ?_,
    fun t op hkind hop => ⟨?_, fun rest error hne herror => ?_⟩⟩
  · split
    · next hnil =>
      rw [hnil]
      rfl
    · next hne =>
      have hpairs : Link.pairs c.links ≠ [] := mt List.map_eq_nil_iff.1 hne
      exact Expr.value_joined c.first (Chain.kept_ne_nil hpairs)
  · exact ((c.ofTokens_append ho ho' hnesting hkind hop []).error_iff _).1 rfl
  · refine ((c.ofTokens_append ho ho' hnesting hkind hop rest).error_iff error).1 ?_
    rw [Expr.ofTokens_eq, List.isEmpty_eq_false_iff.2 hne] at herror
    exact herror

/-- `A1 + ( 2 * 3 ) < "b" & "c" ^ "d"`, which stops at `"b"`, and with `+ )` behind it. -/
theorem Expr.ofTokens_leftToRight_comparison :
    let o : Options := { maxNesting := 1 }
    let x : Expr := .binary .less
      (.binary .add (.cell ⟨0, 0⟩) (.binary .multiply (.text "2") (.text "3"))) (.text "b")
    ∃ c : SpelledChain o, c.tokens = [word "A1", mark "+", mark "(", quoted "2", mark "*",
        quoted "3", mark ")", mark "<", quoted "b", mark "&", quoted "c", mark "^", quoted "d"] ∧
      Expr.ofTokens o c.tokens = .ok x ∧
      (∀ (e : Evaluator) (resolve : Coord → Evaluation Value), x.value e resolve false =
        level e.options (do
          Chain.operations e resolve (← (Expr.cell ⟨0, 0⟩).value e resolve true)
            [(.add, .binary .multiply (.text "2") (.text "3")), (.less, .text "b")])) ∧
      Expr.ofTokens o (c.tokens ++ [mark "+", mark ")"]) =
        .error (.badSyntax (.unexpected ")")) := by
  intro o x
  let c : SpelledChain o := {
    tokens₀ := [word "A1"], first := .cell ⟨0, 0⟩
    spells₀ := spellsOperand_iff.2 ⟨_, rfl, rfl, rfl, rfl⟩
    links := [
      { mark := mark "+", op := .add, kind_mark := rfl, ofText?_mark := rfl
        tokens := [mark "(", quoted "2", mark "*", quoted "3", mark ")"]
        operand := .binary .multiply (.text "2") (.text "3")
        spells := spellsOperand_iff.2 ⟨_, rfl, rfl, rfl, rfl⟩ },
      { mark := mark "<", op := .less, kind_mark := rfl, ofText?_mark := rfl
        tokens := [quoted "b"], operand := .text "b"
        spells := spellsOperand_iff.2 ⟨_, rfl, rfl, rfl, rfl⟩ },
      { mark := mark "&", op := .concat, kind_mark := rfl, ofText?_mark := rfl
        tokens := [quoted "c"], operand := .text "c"
        spells := spellsOperand_iff.2 ⟨_, rfl, rfl, rfl, rfl⟩ },
      { mark := mark "^", op := .power, kind_mark := rfl, ofText?_mark := rfl
        tokens := [quoted "d"], operand := .text "d"
        spells := spellsOperand_iff.2 ⟨_, rfl, rfl, rfl, rfl⟩ }] }
  have hgrouping : o.grouping = .leftToRight := rfl
  obtain ⟨hread, hvalue, herror⟩ := Expr.ofTokens_leftToRight c hgrouping hgrouping (Nat.le_refl _)
  have htail : Expr.ofTokens o [mark ")"] = .error (.badSyntax (.unexpected ")")) :=
    Expr.ofTokens_eq_read (List.cons_ne_nil _ _)
  exact ⟨c, rfl, hread, hvalue, (herror (mark "+") .add rfl rfl).2 [mark ")"] _ nofun htail⟩

end Spreadsheet
