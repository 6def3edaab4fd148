import Spreadsheet.Proofs.Formula.Chains
import Spreadsheet.Proofs.Formula.Trees

/-!
# Grouping by binding

Where operators bind, a chain is grouped by the table of `Operator.levels`: the right operand of an
operator holds tighter ones only, or powers if it is a power, and its left operand no looser ones,
and none at all if it is a power (`Tree.Grouped`). There is one such tree for each chain
(`Tree.Grouped.ext`), and the tokens of a chain are read to it (`Expr.ofTokens_byBinding`). Signs
are part of the operand that they stand in front of, so they bind tighter than every operator.
-/

namespace Spreadsheet

/-! ## The table -/

namespace Operator

/-- The levels of binding, the loosest first, each with the tokens of its operators. -/
def levels : List (List String) :=
  [["&&", "||"], ["=", "==", "<>", "!=", "<", "<=", ">", ">="], ["&"], ["+", "-"], ["*", "/", "%"],
   ["^"]]

/-- How tightly an operator binds by the table. -/
def level (op : Operator) : Nat :=
  levels.findIdx (·.contains op.text)

/-- Every token of an operator stands in the level of its operator. -/
theorem level_of_ofText? {s : String} {op : Operator} (h : ofText? s = some op) :
    levels.findIdx (·.contains s) = op.level := by
  unfold ofText? at h
  split at h <;> cases h <;> rfl

/-- The bindings of the operators are their levels in the table. -/
theorem binding_eq_level (op : Operator) : op.binding = op.level + 1 := by
  cases op <;> rfl

/-- No operator but the power is at the last level. -/
theorem eq_power_of_level_le {op : Operator} (h : power.level ≤ op.level) : op = power := by
  cases op with
  | power => rfl
  | _ => exact absurd h (by decide)

end Operator

/-! ## Trees -/

namespace Tree

/-- A tree that is grouped by the table of binding. -/
def Grouped : Tree → Prop
  | operand _ => True
  | join p left right => left.Grouped ∧ right.Grouped ∧
      (∀ q, left.root? = some q → p.level ≤ q.level ∧ p ≠ .power) ∧
      ∀ q, right.root? = some q → p.level < q.level ∨ p = .power ∧ q = .power

variable {t : Tree} {p q op : Operator}

/-- An operator gives way to a tighter level, and a power to a power. -/
theorem givesWay_iff : givesWay p op = true ↔ p.level < op.level ∨ p = .power ∧ op = .power := by
  simp [givesWay, Operator.binding_eq_level]

/-- An operator that does not give way stands below the one that comes after it. -/
theorem le_of_not_givesWay (h : ¬ givesWay p op = true) : op.level ≤ p.level ∧ op ≠ .power := by
  rw [givesWay_iff, not_or] at h
  have hle := Nat.not_lt.1 h.1
  refine ⟨hle, ?_⟩
  rintro rfl
  exact h.2 ⟨Operator.eq_power_of_level_le hle, rfl⟩

/-! ### One more operand -/

/-- The root of a tree with one more operand is its own or the new operator. -/
theorem root?_graft {y : Expr} (h : (t.graft op y).root? = some q) :
    q = op ∨ t.root? = some q := by
  cases t with
  | operand x => exact .inl (Option.some.inj h).symm
  | join p left right =>
    rw [graft] at h
    split at h
    · exact .inr h
    · exact .inl (Option.some.inj h).symm

/-- A tree that is grouped stays so when an operand is grafted to it. -/
theorem Grouped.graft (h : t.Grouped) (op : Operator) (y : Expr) : (t.graft op y).Grouped := by
  induction t with
  | operand x => exact ⟨trivial, trivial, nofun, nofun⟩
  | join p left right _ ih =>
    obtain ⟨hleft, hright, hl, hr⟩ := h
    rw [Tree.graft]
    split
    · next hway =>
      refine ⟨hleft, ih hright, hl, fun q hq => ?_⟩
      rcases root?_graft hq with rfl | hq
      · exact givesWay_iff.1 hway
      · exact hr q hq
    · next hway =>
      refine ⟨⟨hleft, hright, hl, hr⟩, trivial, fun q hq => ?_, nofun⟩
      cases hq
      exact le_of_not_givesWay hway

/-! ### Whole chains -/

/-- Grouping by binding leaves a grouped tree grouped. -/
theorem Grouped.groupBinding (h : t.Grouped) (rest : List (Operator × Expr)) :
    (Chain.groupBinding t rest).Grouped := by
  induction rest generalizing t with
  | nil => exact h
  | cons p rest ih => exact ih (h.graft p.1 p.2)

/-! ### One tree for each chain -/

/-- The operators of a tree bind no looser than its root. -/
theorem Grouped.root_le (h : t.Grouped) (hp : t.root? = some p) {x : Operator × Expr}
    (hx : x ∈ t.chain.rest) : p.level ≤ x.1.level := by
  induction t generalizing p with
  | operand y => cases hp
  | join op left right ihl ihr =>
    cases hp
    obtain ⟨hleft, hright, hl, hr⟩ := h
    rw [chain, List.mem_append, List.mem_cons] at hx
    rcases hx with hx | rfl | hx
    · cases hroot : left.root? with
      | none =>
        cases left with
        | operand y => cases hx
        | join => cases hroot
      | some q => exact Nat.le_trans (hl q hroot).1 (ihl hleft hroot hx)
    · exact Nat.le_refl _
    · cases hroot : right.root? with
      | none =>
        cases right with
        | operand y => cases hx
        | join => cases hroot
      | some q =>
        refine Nat.le_trans ?_ (ihr hright hroot hx)
        rcases hr q hroot with hlt | ⟨rfl, rfl⟩
        · exact Nat.le_of_lt hlt
        · exact Nat.le_refl _

/-- A tree with an operator has one at its root. -/
theorem exists_root? {x : Operator × Expr} (hx : x ∈ t.chain.rest) : ∃ q, t.root? = some q := by
  cases t with
  | operand y => cases hx
  | join p left right => exact ⟨p, rfl⟩

variable {left right : Tree}

/-- All operators on the left of a root bind as tightly as it does. -/
theorem Grouped.le_left (h : (join p left right).Grouped) {x : Operator × Expr}
    (hx : x ∈ left.chain.rest) : p.level ≤ x.1.level ∧ p ≠ .power := by
  obtain ⟨hleft, -, hl, -⟩ := h
  obtain ⟨q, hq⟩ := exists_root? hx
  exact ⟨Nat.le_trans (hl q hq).1 (hleft.root_le hq hx), (hl q hq).2⟩

/-- All operators on the right of a root bind tighter, or are powers as it is. -/
theorem Grouped.lt_right (h : (join p left right).Grouped) {x : Operator × Expr}
    (hx : x ∈ right.chain.rest) : p.level < x.1.level ∨ p = .power ∧ x.1 = .power := by
  obtain ⟨-, hright, -, hr⟩ := h
  obtain ⟨q, hq⟩ := exists_root? hx
  have hle := hright.root_le hq hx
  rcases hr q hq with hlt | ⟨rfl, rfl⟩
  · exact .inl (Nat.lt_of_lt_of_le hlt hle)
  · exact .inr ⟨rfl, Operator.eq_power_of_level_le hle⟩

/-- Of two operators of a chain, not both can be the root with the other one on its side. -/
theorem Grouped.not_crossed {left' right' : Tree} (h : (join p left right).Grouped)
    (h' : (join q left' right').Grouped) {x y : Expr} (hp : (p, x) ∈ left'.chain.rest)
    (hq : (q, y) ∈ right.chain.rest) : False := by
  obtain ⟨hle, hpower⟩ := h'.le_left hp
  rcases h.lt_right hq with hlt | ⟨-, rfl⟩
  · exact Nat.not_lt.2 hle hlt
  · exact hpower rfl

/-- Two elements at which a list can be cut are one, or each lies on a side of the other. -/
theorem cut_cases {α : Type} {l l' r r' : List α} {a a' : α} (h : l ++ a :: r = l' ++ a' :: r') :
    (l = l' ∧ a = a' ∧ r = r') ∨ (a ∈ l' ∧ a' ∈ r) ∨ (a' ∈ l ∧ a ∈ r') := by
  rcases List.append_eq_append_iff.1 h with ⟨between, hl, hr⟩ | ⟨between, hl, hr⟩
  · cases between with
    | nil =>
      obtain ⟨ha, hr⟩ := List.cons.inj hr
      exact .inl ⟨(hl.trans (List.append_nil l)).symm, ha, hr⟩
    | cons b between =>
      obtain ⟨rfl, rfl⟩ := List.cons.inj hr
      exact .inr (.inl (by simp [hl]))
  · cases between with
    | nil =>
      obtain ⟨ha, hr⟩ := List.cons.inj hr
      exact .inl ⟨hl.trans (List.append_nil l'), ha.symm, hr.symm⟩
    | cons b between =>
      obtain ⟨rfl, rfl⟩ := List.cons.inj hr
      exact .inr (.inr (by simp [hl]))

/-- **A chain is grouped in one way.** -/
theorem Grouped.ext {t' : Tree} (h : t.Grouped) (h' : t'.Grouped) (hchain : t.chain = t'.chain) :
    t = t' := by
  induction t generalizing t' with
  | operand x =>
    cases t' with
    | operand y => exact congrArg operand (congrArg Chain.first hchain)
    | join p left right =>
      have hrest := congrArg Chain.rest hchain
      exact absurd hrest.symm (List.append_ne_nil_of_right_ne_nil _ (List.cons_ne_nil _ _))
  | join p left right ihl ihr =>
    cases t' with
    | operand y =>
      have hrest := congrArg Chain.rest hchain
      exact absurd hrest (List.append_ne_nil_of_right_ne_nil _ (List.cons_ne_nil _ _))
    | join q left' right' =>
      rw [chain, chain, Chain.mk.injEq] at hchain
      obtain ⟨hfirst, hrest⟩ := hchain
      rcases cut_cases hrest with ⟨hl, hroot, hr⟩ | ⟨hp, hq⟩ | ⟨hq, hp⟩
      · obtain ⟨rfl, hright⟩ := Prod.mk.inj hroot
        have hleft : left = left' := ihl h.1 h'.1 (Chain.ext hfirst hl)
        rw [hleft, ihr h.2.1 h'.2.1 (Chain.ext hright hr)]
      · exact (h.not_crossed h' hp hq).elim
      · exact (h'.not_crossed h hq hp).elim

end Tree

/-! ## Reading -/

/-- **Operators group by the table.** Where operators bind, the tokens of a chain of operands are
read, with a level of nesting for each power, to the one tree that has this chain from left to right
and is grouped by the table. -/
theorem Expr.ofTokens_byBinding {o o' : Options} (c : SpelledChain o) (ho : o.grouping = .byBinding)
    (ho' : o'.grouping = .byBinding)
    (hnesting : o.maxNesting + Link.powers c.links ≤ o'.maxNesting) :
    ∃ t : Tree, Expr.ofTokens o' c.tokens = .ok t.toExpr ∧ t.chain = c.chain ∧ t.Grouped ∧
      ∀ t' : Tree, t'.chain = c.chain → t'.Grouped → t' = t := by
  have hread := c.ofTokens_tokens (ho'.trans ho.symm) hnesting
  rw [ho'] at hread
  have hchain : (c.chain.tree .byBinding).chain = c.chain := c.chain.chain_tree_byBinding
  have hgrouped : (c.chain.tree .byBinding).Grouped :=
    Tree.Grouped.groupBinding (t := .operand c.first) trivial (Link.pairs c.links)
  exact ⟨_, hread, hchain, hgrouped, fun t' ht' h' => h'.ext hgrouped (ht'.trans hchain.symm)⟩

/-- `- A1 ^ ( "b" & C3 ) ^ "d" * + "e" >= "f"`, with a sign, a group and two powers. -/
theorem Expr.ofTokens_byBinding_mixed :
    let o : Options := { grouping := .byBinding, maxNesting := 1 }
    let o' : Options := { grouping := .byBinding, maxNesting := 3 }
    ∃ c : SpelledChain o, c.tokens = [Token.mark "-", Token.word "A1", Token.mark "^",
        Token.mark "(", Token.quoted "b", Token.mark "&", Token.word "C3", Token.mark ")",
        Token.mark "^", Token.quoted "d", Token.mark "*", Token.mark "+", Token.quoted "e",
        Token.mark ">=", Token.quoted "f"] ∧
      o.maxNesting + Link.powers c.links ≤ o'.maxNesting ∧
      ∃ t : Tree, Expr.ofTokens o' c.tokens = .ok t.toExpr ∧ t.chain = c.chain ∧ t.Grouped := by
  intro o o'
  let c : SpelledChain o := {
    tokens₀ := [Token.mark "-", Token.word "A1"]
    first := .negate (.cell ⟨0, 0⟩)
    spells₀ := spellsOperand_iff.2 ⟨_, rfl, rfl, rfl, rfl⟩
    links := [
      { mark := Token.mark "^", op := .power, kind_mark := rfl, ofText?_mark := rfl
        tokens := [Token.mark "(", Token.quoted "b", Token.mark "&", Token.word "C3",
          Token.mark ")"]
        operand := .binary .concat (.text "b") (.cell ⟨2, 2⟩)
        spells := spellsOperand_iff.2 ⟨_, rfl, rfl, rfl, rfl⟩ },
      { mark := Token.mark "^", op := .power, kind_mark := rfl, ofText?_mark := rfl
        tokens := [Token.quoted "d"], operand := .text "d"
        spells := spellsOperand_iff.2 ⟨_, rfl, rfl, rfl, rfl⟩ },
      { mark := Token.mark "*", op := .multiply, kind_mark := rfl, ofText?_mark := rfl
        tokens := [Token.mark "+", Token.quoted "e"], operand := .text "e"
        spells := spellsOperand_iff.2 ⟨_, rfl, rfl, rfl, rfl⟩ },
      { mark := Token.mark ">=", op := .greaterEqual, kind_mark := rfl, ofText?_mark := rfl
        tokens := [Token.quoted "f"], operand := .text "f"
        spells := spellsOperand_iff.2 ⟨_, rfl, rfl, rfl, rfl⟩ }] }
  have hnesting : o.maxNesting + Link.powers c.links ≤ o'.maxNesting := by decide
  obtain ⟨t, hread, hchain, hgrouped, -⟩ := Expr.ofTokens_byBinding c rfl rfl hnesting
  exact ⟨c, rfl, hnesting, t, hread, hchain, hgrouped⟩

end Spreadsheet
