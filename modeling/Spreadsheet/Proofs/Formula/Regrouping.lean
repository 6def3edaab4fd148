import Mathlib.Data.List.Forall2
import Spreadsheet.Proofs.Formula.Chains

/-!
# What grouping leaves alone

The loops from left to right and those of the levels of binding are readers that differ in how they
group operators. As long as the limit on nesting is out of reach, these go together
(`Likeness.regrouped_together`). So the grouping has no say in which tokens are a formula, nor in
why they are none. Where no comparison ends a chain early, the two expressions also read the same
from left to right (`Expr.symbols`); they differ in nothing but the grouping
(`Expr.ofTokens_regroup`).
-/

namespace Spreadsheet

/-! ## Expressions from left to right -/

/-- A part of an expression as it is read from left to right. -/
inductive Symbol where
  /-- A number, a text, a word, a cell or a range. -/
  | leaf (x : Expr)
  | operator (op : Operator)
  /-- The sign in front of a negated expression. -/
  | minus
  | call (name : String)
  /-- The end of an argument. -/
  | comma
  /-- The end of a negated expression or of a call. -/
  | close

mutual

/-- The parts of an expression from left to right. Nothing tells how its operators are grouped. -/
def Expr.symbols : Expr → List Symbol
  | .number n => [.leaf (.number n)]
  | .text s => [.leaf (.text s)]
  | .bare s => [.leaf (.bare s)]
  | .cell c => [.leaf (.cell c)]
  | .range r => [.leaf (.range r)]
  | .binary op left right => left.symbols ++ .operator op :: right.symbols
  | .negate x => .minus :: (x.symbols ++ [.close])
  | .call name args => .call name :: Expr.argumentSymbols args

/-- The parts of arguments, up to the end of their call. -/
def Expr.argumentSymbols : List Expr → List Symbol
  | [] => [.close]
  | x :: args => x.symbols ++ .comma :: Expr.argumentSymbols args

end

/-- Every expression has a part. -/
theorem Expr.symbols_ne_nil (x : Expr) : x.symbols ≠ [] := by
  cases x with
  | binary op left right =>
    exact List.append_ne_nil_of_right_ne_nil _ (List.cons_ne_nil _ _)
  | number | text | bare | cell | range | negate | call => exact List.cons_ne_nil _ _

/-- An expression that reads as a number is this number. -/
theorem Expr.eq_number_of_symbols {x : Expr} {n : Float}
    (h : x.symbols = [.leaf (.number n)]) : x = .number n := by
  cases x with
  | number m =>
    cases h
    rfl
  | binary op left right =>
    rw [Expr.symbols, List.append_eq_singleton_iff] at h
    rcases h with ⟨hleft, -⟩ | ⟨-, hright⟩
    · exact absurd hleft left.symbols_ne_nil
    · cases hright
  | text | bare | cell | range | negate | call => cases h

/-- The parts of a chain from left to right. -/
def Chain.symbols (c : Chain) : List Symbol :=
  c.first.symbols ++ c.rest.flatMap fun p => .operator p.1 :: p.2.symbols

/-- The expression of a tree reads as the chain of the tree. -/
theorem Tree.symbols_toExpr (t : Tree) : t.toExpr.symbols = t.chain.symbols := by
  induction t with
  | operand x => exact (List.append_nil _).symm
  | join op left right ihl ihr =>
    rw [toExpr, Expr.symbols, ihl, ihr, chain]
    simp [Chain.symbols]

/-! ## Expressions that differ in grouping only -/

/-- Two expressions that read the same from left to right, unless a comparison may have ended a
chain in one of them. -/
def Expr.Alike (plain : Prop) (x y : Expr) : Prop :=
  plain → x.symbols = y.symbols

section
variable {plain : Prop} {x y : Expr}

/-- An expression reads like itself. -/
theorem Expr.Alike.refl (x : Expr) : x.Alike plain x := fun _ => rfl

/-- A sign in front changes nothing about how two expressions read. -/
theorem Expr.Alike.negated (h : x.Alike plain y) : x.negated.Alike plain y.negated := by
  intro hplain
  have hxy := h hplain
  cases x with
  | number n =>
    have hy : y = .number n := Expr.eq_number_of_symbols hxy.symm
    rw [hy]
  | text | bare | cell | range | binary | negate | call =>
    cases y with
    | number n => cases Expr.eq_number_of_symbols hxy
    | text | bare | cell | range | binary | negate | call =>
      exact congrArg (fun symbols => Symbol.minus :: (symbols ++ [.close])) hxy

/-- Arguments that are alike have the same parts. -/
theorem Expr.argumentSymbols_congr {args args' : List Expr}
    (h : List.Forall₂ (Expr.Alike plain) args args') (hplain : plain) :
    Expr.argumentSymbols args = Expr.argumentSymbols args' := by
  induction h with
  | nil => rfl
  | cons hx _ ih => rw [Expr.argumentSymbols, hx hplain, ih, Expr.argumentSymbols]

/-- Calls of one function with arguments that are alike are alike. -/
theorem Expr.Alike.call (name : String) {args args' : List Expr}
    (h : List.Forall₂ (Expr.Alike plain) args args') :
    (Expr.call name args).Alike plain (.call name args') := by
  intro hplain
  rw [Expr.symbols, Expr.argumentSymbols_congr h hplain, Expr.symbols]

end

/-! ## Chains that differ in grouping only -/

/-- Whether a token is an operator that compares. -/
def Token.isComparison (t : Token) : Bool :=
  match t.binary? with
  | some op => op.isComparison
  | none => false

/-- Two operands before the same operator, which may end a chain only if not all is plain. -/
structure BeforeAlike (plain : Prop) (p p' : Expr × Operator) : Prop where
  operand : p.1.Alike plain p'.1
  operator : p.2 = p'.2
  plain : plain → p.2.isComparison = false

/-- Two operands after the same operator. -/
structure AfterAlike (plain : Prop) (p p' : Operator × Expr) : Prop where
  operand : p.2.Alike plain p'.2
  operator : p.1 = p'.1
  plain : plain → p.1.isComparison = false

/-- Two chains of operands that read the same. -/
structure Chain.Alike (plain : Prop) (c c' : Chain) : Prop where
  first : c.first.Alike plain c'.first
  rest : List.Forall₂ (AfterAlike plain) c.rest c'.rest

section
variable {plain : Prop} {x y : Expr} {before before' : List (Expr × Operator)} {c c' : Chain}

/-- Chains are alike if their operands are, before and after one of them. -/
theorem Chain.Alike.ofBefore (hx : x.Alike plain y)
    (hbefore : List.Forall₂ (BeforeAlike plain) before before')
    {after after' : List (Operator × Expr)}
    (hafter : List.Forall₂ (AfterAlike plain) after after') :
    (Chain.ofBefore x after before).Alike plain (Chain.ofBefore y after' before') := by
  induction hbefore generalizing x y after after' with
  | nil => exact ⟨hx, hafter⟩
  | cons hp _ ih =>
    refine ih hp.operand (.cons ⟨hx, hp.operator, hp.plain⟩ hafter)

/-- Where all is plain, there is no comparison in chains that are alike. -/
theorem Chain.Alike.isComparison (h : c.Alike plain c') (hplain : plain) :
    (∀ p ∈ c.rest, p.1.isComparison = false) ∧ ∀ p ∈ c'.rest, p.1.isComparison = false := by
  obtain ⟨first, rest⟩ := c
  obtain ⟨first', rest'⟩ := c'
  obtain ⟨-, hrest : List.Forall₂ _ rest rest'⟩ := h
  induction hrest with
  | nil => exact ⟨nofun, nofun⟩
  | cons hp _ ih =>
    simp only [List.forall_mem_cons]
    exact ⟨⟨hp.plain hplain, ih.1⟩, ⟨hp.operator ▸ hp.plain hplain, ih.2⟩⟩

/-- Where all is plain, chains that are alike have the same parts. -/
theorem Chain.Alike.symbols_eq (h : c.Alike plain c') (hplain : plain) :
    c.symbols = c'.symbols := by
  obtain ⟨first, rest⟩ := c
  obtain ⟨first', rest'⟩ := c'
  obtain ⟨hfirst : first.Alike plain first', hrest : List.Forall₂ _ rest rest'⟩ := h
  have hsame : rest.flatMap (fun p => Symbol.operator p.1 :: p.2.symbols) =
      rest'.flatMap fun p => Symbol.operator p.1 :: p.2.symbols := by
    clear hfirst
    induction hrest with
    | nil => rfl
    | cons hp _ ih =>
      rw [List.flatMap_cons, List.flatMap_cons, ih, hp.operator, hp.operand hplain]
  rw [Chain.symbols, Chain.symbols, hfirst hplain, hsame]

/-- A chain without comparisons reads as its tree, in either grouping. -/
theorem Chain.symbols_tree (g : Grouping) (h : ∀ p ∈ c.rest, p.1.isComparison = false) :
    (c.tree g).toExpr.symbols = c.symbols := by
  rw [Tree.symbols_toExpr]
  cases g with
  | leftToRight => rw [Chain.chain_tree_leftToRight h]
  | byBinding => rw [Chain.chain_tree_byBinding]

/-- Chains that read the same have trees that do, however they are grouped. -/
theorem Chain.Alike.tree (h : c.Alike plain c') (g g' : Grouping) :
    (c.tree g).toExpr.Alike plain (c'.tree g').toExpr := by
  intro hplain
  obtain ⟨hc, hc'⟩ := h.isComparison hplain
  rw [Chain.symbols_tree g hc, Chain.symbols_tree g' hc', h.symbols_eq hplain]

end

/-! ## Readers that differ in grouping only -/

/-- Reading the same from left to right, as a likeness. -/
def Likeness.regrouped (plain : Prop) : Likeness where
  Alike := Expr.Alike plain
  Args := List.Forall₂ (Expr.Alike plain)
  word _ := .refl _
  text _ := .refl _
  range _ := .refl _
  negated h := h.negated
  nil := .nil
  cons hx h := .cons hx h
  call name _ _ h := .call name (List.rel_reverse h)

/-- Two chains under way that read the same, with room for so many more levels. -/
structure Level.Alike (plain : Prop) (n : Nat) (l l' : Level) : Prop where
  before : List.Forall₂ (BeforeAlike plain) l.before l'.before
  negated : l.negated = l'.negated
  room : n ≤ l.room ∧ l.room ≤ l.base ∧ n ≤ l'.room ∧ l'.room ≤ l'.base

section
variable {plain : Prop} {n : Nat} {x y : Expr} {l l' : Level} (o o' : Options)

/-- Chains that begin are alike. -/
theorem Level.Alike.fresh {a a' : Nat} (h : n ≤ a) (h' : n ≤ a') :
    (Level.fresh a).Alike plain n (Level.fresh a') :=
  ⟨.nil, rfl, h, Nat.le_refl a, h', Nat.le_refl a'⟩

/-- An operand and an operator go to chains that are alike; one level of room may be used by a
power. -/
theorem Level.Alike.push (h : l.Alike plain (n + 1) l') (hx : x.Alike plain y) {op : Operator}
    (hop : plain → op.isComparison = false) :
    SameOutcome (Level.Alike plain n) (l.push o x op) (l'.push o' y op) := by
  obtain ⟨hbefore, -, hroom, hbase, hroom', hbase'⟩ := h
  have hpower : ∀ o : Options,
      n + (if o.grouping = .byBinding ∧ op = .power then 1 else 0) ≤ n + 1 := by
    intro o
    split <;> omega
  obtain ⟨l₁, hpush, hl, hnegated, hn, hle, -⟩ :=
    Level.exists_push o x op hbase (Nat.le_trans (hpower o) hroom)
  obtain ⟨l₁', hpush', hl', hnegated', hn', hle', -⟩ :=
    Level.exists_push o' y op hbase' (Nat.le_trans (hpower o') hroom')
  rw [hpush, hpush']
  refine .ok ⟨?_, hnegated.trans hnegated'.symm, hn, hle, hn', hle'⟩
  rw [hl, hl']
  exact .cons ⟨hx, rfl, hop⟩ hbefore

/-- Chains that read the same go with the likeness of reading the same. -/
theorem Likeness.regrouped_chains (plain : Prop) (n : Nat) :
    (regrouped plain).Chains o o' (Level.Alike plain n) where
  negated_eq h := h.negated
  resign := by
    rintro l l' ⟨hbefore, -, hroom⟩ negated
    exact ⟨hbefore, rfl, hroom⟩
  close h hx := (Chain.Alike.ofBefore hx h.before .nil).tree o.grouping o'.grouping

/-- **Readers that differ in grouping go together** as long as the limits on nesting are out of
reach. -/
theorem Likeness.regrouped_together (plain : Prop) (n : Nat) :
    (regrouped plain).Together o o' (fun op => plain → op.isComparison = false)
      (Level.Alike plain (n + 1)) (Level.Alike plain n) where
  toChains := regrouped_chains o o' plain (n + 1)
  weaken := by
    rintro l l' ⟨hbefore, hnegated, hroom⟩
    exact ⟨hbefore, hnegated, by omega⟩
  fresh := by
    rintro l l' ⟨-, -, hroom⟩
    exact .fresh (by omega) (by omega)
  enter := by
    rintro l l' ⟨-, -, hroom, -, hroom', -⟩
    exact .inr ⟨l.room - 1, l'.room - 1, by omega, by omega, .fresh (by omega) (by omega)⟩
  push h hx hop := h.push o o' hx hop

end

/-! ## Whole formulas -/

/-- Tokens that the limits on nesting do not cut off are read alike with any options. -/
theorem Expr.ofTokens_alike {plain : Prop} {o o' : Options} {tokens : List Token}
    (h : tokens.length ≤ o.maxNesting) (h' : tokens.length ≤ o'.maxNesting)
    (hplain : plain → ∀ t ∈ tokens, t.isComparison = false) :
    SameOutcome (Expr.Alike plain) (Expr.ofTokens o tokens) (Expr.ofTokens o' tokens) := by
  refine Expr.ofTokens_together (Likeness.regrouped_together o o' plain)
    (Likeness.regrouped_chains o o' plain 0) (.fresh h h') fun t ht op hop hplain' => ?_
  have hcomparison := hplain hplain' t ht
  rwa [Token.isComparison, hop] at hcomparison

/-- **Grouping changes no acceptance.** Tokens that are no longer than the limit on nesting are a
formula in both groupings or in none, and then for the same reason. Without a comparison, the two
expressions read the same from left to right. -/
theorem Expr.ofTokens_regroup (o : Options) (tokens : List Token)
    (h : tokens.length ≤ o.maxNesting) :
    let left := Expr.ofTokens { o with grouping := .leftToRight } tokens
    let binding := Expr.ofTokens { o with grouping := .byBinding } tokens
    ((∃ x, left = .ok x) ↔ ∃ y, binding = .ok y) ∧
      (∀ error, left = .error error ↔ binding = .error error) ∧
      ((∀ t ∈ tokens, t.isComparison = false) → ∀ x y, left = .ok x → binding = .ok y →
        x.symbols = y.symbols) := by
  intro left binding
  have hboth : SameOutcome (Expr.Alike (∀ t ∈ tokens, t.isComparison = false)) left binding :=
    Expr.ofTokens_alike h h id
  exact ⟨hboth.ok_iff, hboth.error_iff, fun hplain x y hx hy => hboth.related hx hy hplain⟩

/-- `"a" + "b" * - ( "c" - "d" ^ "e" )`, which the two groupings read differently. -/
theorem Expr.ofTokens_regroup_product :
    let o : Options := { maxNesting := 12 }
    let tokens := [Token.quoted "a", Token.mark "+", Token.quoted "b", Token.mark "*",
      Token.mark "-", Token.mark "(", Token.quoted "c", Token.mark "-", Token.quoted "d",
      Token.mark "^", Token.quoted "e", Token.mark ")"]
    let x : Expr := .binary .multiply (.binary .add (.text "a") (.text "b"))
      (.negate (.binary .power (.binary .subtract (.text "c") (.text "d")) (.text "e")))
    let y : Expr := .binary .add (.text "a") (.binary .multiply (.text "b")
      (.negate (.binary .subtract (.text "c") (.binary .power (.text "d") (.text "e")))))
    tokens.length ≤ o.maxNesting ∧ (∀ t ∈ tokens, t.isComparison = false) ∧
      Expr.ofTokens { o with grouping := .leftToRight } tokens = .ok x ∧
      Expr.ofTokens { o with grouping := .byBinding } tokens = .ok y ∧ x.symbols = y.symbols := by
  intro o tokens x y
  have hlength : tokens.length ≤ o.maxNesting := by decide
  have hplain : ∀ t ∈ tokens, t.isComparison = false := by decide
  have hx : Expr.ofTokens { o with grouping := .leftToRight } tokens = .ok x :=
    Expr.ofTokens_eq_read (List.cons_ne_nil _ _)
  have hy : Expr.ofTokens { o with grouping := .byBinding } tokens = .ok y :=
    Expr.ofTokens_eq_read (List.cons_ne_nil _ _)
  obtain ⟨-, -, hsymbols⟩ := Expr.ofTokens_regroup o tokens hlength
  exact ⟨hlength, hplain, hx, hy, hsymbols hplain x y hx hy⟩

end Spreadsheet
