import Spreadsheet.Proofs.Formula.Chains

/-!
# Chains from left to right

From left to right, a chain is folded up to its first comparison (`Chain.toExpr_groupLeft`), and no
operator takes a level of nesting (`SpelledChain.readsAs_leftToRight`). What stands behind is read
nevertheless: the operands before it are only waiting (`Likeness.any_together`), so a chain is read
if the tokens after any of its operators are (`SpelledChain.ofTokens_append`).
-/

namespace Spreadsheet

open Token

/-! ## Folding -/

/-- The operators of a chain with their operands, up to the first comparison. -/
def Chain.kept (rest : List (Operator × Expr)) : List (Operator × Expr) :=
  rest.take (rest.findIdx (·.1.isComparison) + 1)

/-- Operands joined to an expression one after the other. -/
def Expr.joined (x : Expr) (rest : List (Operator × Expr)) : Expr :=
  rest.foldl (fun x p => .binary p.1 x p.2) x

/-- **From left to right, a chain is folded up to its first comparison.** -/
theorem Chain.toExpr_groupLeft (t : Tree) (rest : List (Operator × Expr)) :
    (groupLeft t rest).toExpr = t.toExpr.joined (kept rest) := by
  induction rest generalizing t with
  | nil => rfl
  | cons p rest ih =>
    obtain ⟨op, y⟩ := p
    rw [groupLeft, kept, List.findIdx_cons]
    cases hop : op.isComparison with
    | true => rfl
    | false =>
      rw [List.take_succ_cons]
      exact ih (.join op t (.operand y))

/-! ## Reading -/

namespace SpelledChain

variable {o o' : Options} (c : SpelledChain o)

/-- **From left to right, a chain is read to the fold up to its first comparison**, and no operator
takes a level of nesting. -/
theorem readsAs_leftToRight (ho : o.grouping = .leftToRight) (ho' : o'.grouping = .leftToRight)
    {room : Nat} (hroom : o.maxNesting ≤ room) :
    ReadsAs o' room c.tokens (c.first.joined (Chain.kept (Link.pairs c.links))) := by
  have hlevels : o.maxNesting + Link.levels o'.grouping c.links ≤ room := by
    rw [ho']
    exact hroom
  have hreads := c.readsAs (ho'.trans ho.symm) hlevels
  rw [ho'] at hreads
  have htree : (c.chain.tree .leftToRight).toExpr =
      c.first.joined (Chain.kept (Link.pairs c.links)) := Chain.toExpr_groupLeft _ _
  rwa [htree] at hreads

/-- **What follows an operator decides on the errors.** The tokens of a chain, an operator and more
tokens are a formula if these tokens are, and they fail as these do, wherever the first comparison
is. -/
theorem ofTokens_append (ho : o.grouping = .leftToRight) (ho' : o'.grouping = .leftToRight)
    (hroom : o.maxNesting ≤ o'.maxNesting) {t : Token} {op : Operator}
    (hkind : t.kind = .operator) (hop : Operator.ofText? t.text = some op) (rest : List Token) :
    SameOutcome (fun _ _ => True) ((Reader.start o').read o' rest)
      (Expr.ofTokens o' (c.tokens ++ t :: rest)) := by
  obtain ⟨r, y, hr, hbase, hopened, hafter, -⟩ := foldlM_links (l := .fresh o'.maxNesting) []
    (ho'.trans ho.symm) c.links c.spells₀ rfl (Nat.le_refl _) (by rw [ho']; exact hroom)
  let link : Link o := ⟨t, op, hkind, hop, c.tokens₀, c.first, c.spells₀⟩
  have hnot : ¬(o'.grouping = .byBinding ∧ op = .power) := by
    rw [ho']
    exact nofun
  have hstep : r.step o' t = .ok ⟨.operand, { r.level with
      before := (y, op) :: r.level.before, room := r.level.base, negated := false }, []⟩ := by
    have hmark : r.step o' t = (r.level.push o' y op).map fun l => ⟨.operand, l, r.opened⟩ :=
      hafter.step_mark link
    rw [hmark, Level.push, if_neg hnot, hopened]
    rfl
  have hread : Expr.ofTokens o' (c.tokens ++ t :: rest) = Reader.read o' ⟨.operand, { r.level with
      before := (y, op) :: r.level.before, room := r.level.base, negated := false }, []⟩ rest := by
    rw [Expr.ofTokens_eq_read (by simp), SpelledChain.tokens, Reader.start, Reader.read_append hr,
      Reader.read_cons, hstep]
    rfl
  have hsame : (Reader.start o').Compared .any Level.SameRoom ⟨.operand, { r.level with
      before := (y, op) :: r.level.before, room := r.level.base, negated := false }, []⟩ :=
    ⟨.operand, ⟨rfl, hbase.symm, hbase.symm⟩, .nil⟩
  rw [hread]
  exact hsame.read_of_together (Likeness.any_together o') rest

end SpelledChain

end Spreadsheet
