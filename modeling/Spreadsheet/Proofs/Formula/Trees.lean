import Mathlib.Data.List.Forall2
import Spreadsheet.Formula.Expr
import Spreadsheet.Formula.Options

/-!
# Trees of chains

Operands joined by binary operators, `x₀ op₁ x₁ … opₙ xₙ`, and the tree they are grouped to. The
leaves of the tree are the operands, whatever is inside them. From left to right, the first
comparison ends the chain and what follows it is dropped; by binding, each operand is grafted to the
tree of those before it. A tree read from left to right is a chain (`Tree.chain`). Grouping by
binding keeps the chain (`Chain.chain_tree_byBinding`), and so does grouping from left to right, as
long as no comparison ends it early (`Chain.chain_tree_leftToRight`). No grouping looks at the
operands, so chains of related operands have trees of related operands (`Chain.Related.tree`).
-/

namespace Spreadsheet

/-! ## Grouping -/

/-- A chain of operands, each but the first with the operator in front of it. -/
structure Chain where
  first : Expr
  rest : List (Operator × Expr)
  deriving Repr

/-- A chain that has been grouped. -/
inductive Tree where
  | operand (x : Expr)
  | join (op : Operator) (left right : Tree)
  deriving Repr

namespace Tree

/-- The expression of a tree. -/
def toExpr : Tree → Expr
  | operand x => x
  | join op left right => .binary op left.toExpr right.toExpr

/-- The operator that a tree joins its operands by. -/
def root? : Tree → Option Operator
  | operand _ => none
  | join op _ _ => some op

/-- Whether an operator leaves its right operand to the operator that comes after it. -/
def givesWay (p op : Operator) : Bool :=
  p.binding < op.binding || (p == .power && op == .power)

/-- Joins one more operand to a tree: the operator takes the part of the right edge that the
operators above it give way for. -/
def graft (op : Operator) (y : Expr) : Tree → Tree
  | operand x => join op (operand x) (operand y)
  | join p left right =>
    if givesWay p op then join p left (graft op y right)
    else join op (join p left right) (operand y)

end Tree

namespace Chain

/-- The chain that ends with an operand and has others before it, each with the operator after it,
the last given first. -/
def ofBefore (x : Expr) (after : List (Operator × Expr)) : List (Expr × Operator) → Chain
  | [] => ⟨x, after⟩
  | (w, op) :: before => ofBefore w ((op, x) :: after) before

/-- Groups from left to right, up to the first comparison. -/
def groupLeft (tree : Tree) : List (Operator × Expr) → Tree
  | [] => tree
  | (op, y) :: rest =>
    let joined := Tree.join op tree (.operand y)
    if op.isComparison then joined else groupLeft joined rest

/-- Groups by binding. -/
def groupBinding (tree : Tree) (rest : List (Operator × Expr)) : Tree :=
  rest.foldl (fun tree (op, y) => tree.graft op y) tree

/-- The tree of a chain. -/
def tree (grouping : Grouping) (c : Chain) : Tree :=
  match grouping with
  | .leftToRight => groupLeft (.operand c.first) c.rest
  | .byBinding => groupBinding (.operand c.first) c.rest

end Chain

/-! ## Trees from left to right -/

/-- Chains with the same operands and operators are the same. -/
@[ext] theorem Chain.ext {c c' : Chain} (hfirst : c.first = c'.first) (hrest : c.rest = c'.rest) :
    c = c' := by
  cases c
  cases c'
  cases hfirst
  cases hrest
  rfl

namespace Tree

/-- The operands of a tree from left to right, with the operators between them. -/
def chain : Tree → Chain
  | operand x => ⟨x, []⟩
  | join op left right =>
    ⟨left.chain.first, left.chain.rest ++ (op, right.chain.first) :: right.chain.rest⟩

/-- Grafting puts an operand behind those of the tree. -/
theorem chain_graft (t : Tree) (op : Operator) (y : Expr) :
    (t.graft op y).chain = ⟨t.chain.first, t.chain.rest ++ [(op, y)]⟩ := by
  induction t with
  | operand x => rfl
  | join p left right _ ih =>
    rw [graft]
    split
    · rw [chain, ih, chain, List.append_assoc]
      rfl
    · rfl

/-- Grouping by binding keeps the operands and the operators in their order. -/
theorem chain_groupBinding (t : Tree) (rest : List (Operator × Expr)) :
    (Chain.groupBinding t rest).chain = ⟨t.chain.first, t.chain.rest ++ rest⟩ := by
  induction rest generalizing t with
  | nil =>
    rw [List.append_nil]
    rfl
  | cons p rest ih =>
    obtain ⟨op, y⟩ := p
    have hstep : Chain.groupBinding t ((op, y) :: rest) =
        Chain.groupBinding (t.graft op y) rest := rfl
    rw [hstep, ih, chain_graft, List.append_assoc]
    rfl

/-- Grouping from left to right keeps all operands if there is no comparison. -/
theorem chain_groupLeft (t : Tree) {rest : List (Operator × Expr)}
    (h : ∀ p ∈ rest, p.1.isComparison = false) :
    (Chain.groupLeft t rest).chain = ⟨t.chain.first, t.chain.rest ++ rest⟩ := by
  induction rest generalizing t with
  | nil =>
    rw [List.append_nil]
    rfl
  | cons p rest ih =>
    obtain ⟨op, y⟩ := p
    have hop : op.isComparison = false := h (op, y) (.head _)
    have hstep : Chain.groupLeft t ((op, y) :: rest) =
        Chain.groupLeft (join op t (operand y)) rest := by
      rw [Chain.groupLeft, hop]
      rfl
    rw [hstep, ih _ fun p hp => h p (.tail _ hp), chain, List.append_assoc]
    rfl

end Tree

namespace Chain

/-- The tree of a chain that binds has the operands of the chain. -/
theorem chain_tree_byBinding (c : Chain) : (c.tree .byBinding).chain = c :=
  Tree.chain_groupBinding (.operand c.first) c.rest

/-- The tree of a chain from left to right has the operands of the chain, if there is no comparison.
-/
theorem chain_tree_leftToRight {c : Chain} (h : ∀ p ∈ c.rest, p.1.isComparison = false) :
    (c.tree .leftToRight).chain = c :=
  Tree.chain_groupLeft (.operand c.first) h

end Chain

/-! ## Related operands -/

section
variable {R : Expr → Expr → Prop}

/-- Whether two trees have the same shape and operators, and related operands. -/
inductive Tree.Related (R : Expr → Expr → Prop) : Tree → Tree → Prop
  | operand {x y : Expr} (h : R x y) : Related R (.operand x) (.operand y)
  | join (op : Operator) {left left' right right' : Tree} (hleft : Related R left left')
    (hright : Related R right right') : Related R (.join op left right) (.join op left' right')

/-- Whether two chains have the same operators and related operands. -/
structure Chain.Related (R : Expr → Expr → Prop) (c c' : Chain) : Prop where
  first : R c.first c'.first
  rest : List.Forall₂ (fun p p' => p.1 = p'.1 ∧ R p.2 p'.2) c.rest c'.rest

variable {t t' : Tree}

/-- A relation that operations hand on is handed on by trees. -/
theorem Tree.Related.toExpr (hbinary : ∀ (op : Operator) {x x' y y' : Expr}, R x x' → R y y' →
    R (.binary op x y) (.binary op x' y')) (h : t.Related R t') : R t.toExpr t'.toExpr := by
  induction h with
  | operand h => exact h
  | join op _ _ ihl ihr => exact hbinary op ihl ihr

/-- Related operands are grafted to related trees in the same place. -/
theorem Tree.Related.graft (h : t.Related R t') (op : Operator) {y y' : Expr} (hy : R y y') :
    (t.graft op y).Related R (t'.graft op y') := by
  induction h with
  | operand h => exact .join op (.operand h) (.operand hy)
  | join p hleft hright _ ih =>
    unfold Tree.graft
    split
    · exact .join p hleft ih
    · exact .join op (.join p hleft hright) (.operand hy)

namespace Chain

variable {rest rest' : List (Operator × Expr)}

/-- Related chains are grouped from left to right to related trees. -/
theorem related_groupLeft (h : t.Related R t')
    (hrest : List.Forall₂ (fun p p' => p.1 = p'.1 ∧ R p.2 p'.2) rest rest') :
    (groupLeft t rest).Related R (groupLeft t' rest') := by
  induction hrest generalizing t t' with
  | nil => exact h
  | @cons p p' _ _ hp _ ih =>
    obtain ⟨op, y⟩ := p
    obtain ⟨_, y'⟩ := p'
    obtain ⟨rfl, hy⟩ := hp
    have hjoined := Tree.Related.join op h (.operand hy)
    unfold groupLeft
    dsimp only
    split
    · exact hjoined
    · exact ih hjoined

/-- Related chains are grouped by binding to related trees. -/
theorem related_groupBinding (h : t.Related R t')
    (hrest : List.Forall₂ (fun p p' => p.1 = p'.1 ∧ R p.2 p'.2) rest rest') :
    (groupBinding t rest).Related R (groupBinding t' rest') := by
  induction hrest generalizing t t' with
  | nil => exact h
  | @cons p p' _ _ hp _ ih =>
    obtain ⟨op, y⟩ := p
    obtain ⟨_, y'⟩ := p'
    obtain ⟨rfl, hy⟩ := hp
    exact ih (h.graft op hy)

/-- Either grouping relates the trees of related chains. -/
theorem Related.tree {c c' : Chain} (h : c.Related R c') (g : Grouping) :
    (c.tree g).Related R (c'.tree g) := by
  cases g with
  | leftToRight => exact related_groupLeft (.operand h.first) h.rest
  | byBinding => exact related_groupBinding (.operand h.first) h.rest

/-- Chains are related if their operands are, before and after one of them. -/
theorem Related.ofBefore {x x' : Expr} {after after' : List (Operator × Expr)}
    {before before' : List (Expr × Operator)} (hx : R x x')
    (hafter : List.Forall₂ (fun p p' => p.1 = p'.1 ∧ R p.2 p'.2) after after')
    (hbefore : List.Forall₂ (fun p p' => R p.1 p'.1 ∧ p.2 = p'.2) before before') :
    (ofBefore x after before).Related R (ofBefore x' after' before') := by
  induction hbefore generalizing x x' after after' with
  | nil => exact ⟨hx, hafter⟩
  | cons hp _ ih => exact ih hp.1 (.cons ⟨hp.2, hx⟩ hafter)

end Chain

end

end Spreadsheet
