import Spreadsheet.Proofs.Formula.Nesting
import Spreadsheet.Proofs.Formula.RoundTrip

/-!
# Reading chains

The descent reads an operand whatever chain it stands in. So tokens that spell one operand
(`SpellsOperand`) are read to it in every chain with as much room (`SpellsOperand.foldlM_eq`), and
operands with operators between them are read to the tree of their chain
(`SpelledChain.ofTokens_tokens`), in either grouping.
-/

namespace Spreadsheet

open Token

/-! ## The outermost chain -/

/-- The outermost of some chains, each with what is opened in the next one. -/
def Level.outermost : Level → List (Opening × Level) → Level
  | l, [] => l
  | _, (_, l) :: opened => outermost l opened

/-- The outermost chain of a reader. -/
def Reader.outermost (r : Reader) : Level :=
  r.level.outermost r.opened

section
variable {o o' : Options} {l l' : Level} {ts : List Token} {t : Token} {x : Expr} {op : Operator}
variable {r r' : Reader}

/-- A chain keeps what comes before an operator. -/
theorem Reader.before_push (h : l.push o x op = .ok l') : l'.before = (x, op) :: l.before := by
  unfold Level.push at h
  split at h
  · split at h <;> cases h
    rfl
  · cases h
    rfl

/-- Opening something leaves the outermost chain as it is. -/
theorem Reader.outermost_enter {opening : Opening} {expecting : Expecting}
    (h : r.enter o opening expecting = .ok r') : r'.outermost = r.outermost := by
  unfold enter at h
  split at h <;> cases h
  rfl

/-- No operand is taken out of the outermost chain. -/
theorem Reader.before_outermost_step (h : r.step o t = .ok r') :
    r.outermost.before <:+ r'.outermost.before := by
  obtain ⟨result, hsteps⟩ := r.exists_steps o t
  rw [h] at hsteps
  generalize houtcome : Except.ok r' = outcome at hsteps
  obtain ⟨expecting, level, opened⟩ := r
  cases hsteps with
  | group | call =>
    have houtermost := outermost_enter houtcome.symm
    exact houtermost ▸ List.suffix_rfl
  | push =>
    obtain ⟨l, hpush, ⟨⟩⟩ := exists_of_bind_eq_ok houtcome.symm
    cases opened with
    | nil => exact ⟨[_], (before_push hpush).symm⟩
    | cons p opened => exact List.suffix_rfl
  | close hopened | argument hopened =>
    cases houtcome
    cases hopened
    exact List.suffix_rfl
  | stay =>
    cases houtcome
    cases opened <;> exact List.suffix_rfl
  | badSyntax | badReference => cases houtcome

/-- What comes before an operand of the outermost chain stays there. -/
theorem Reader.before_outermost_foldlM (h : ts.foldlM (·.step o) r = .ok r') :
    r.outermost.before <:+ r'.outermost.before := by
  induction ts generalizing r with
  | nil =>
    cases h
    exact List.suffix_rfl
  | cons t ts ih =>
    rw [List.foldlM_cons] at h
    obtain ⟨r₁, hstep, hrest⟩ := exists_of_bind_eq_ok h
    exact (before_outermost_step hstep).trans (ih hrest)

/-- Nothing follows an operand that is alone in its chain in the end. -/
theorem Reader.Holds.eq_nil {rest : List Token} (h : r.Holds o l [] x rest)
    (hrun : rest.foldlM (·.step o) r = .ok r') (hopened : r'.opened = [])
    (hbefore : r'.level.before = []) : rest = [] := by
  cases rest with
  | nil => rfl
  | cons t rest =>
    rw [List.foldlM_cons, h.step t rfl] at hrun
    obtain ⟨r₁, hstep, hrest⟩ := exists_of_bind_eq_ok hrun
    change operatorStep o _ x t = _ at hstep
    unfold operatorStep at hstep
    split at hstep
    · obtain ⟨l', hpush, ⟨⟩⟩ := exists_of_bind_eq_ok hstep
      have hsuffix : l'.before <:+ r'.outermost.before := before_outermost_foldlM hrest
      have houtermost : r'.outermost = r'.level := by rw [outermost, hopened]; rfl
      rw [houtermost, hbefore, List.suffix_nil, before_push hpush] at hsuffix
      cases hsuffix
    · cases hstep

/-! ## Operands -/

/-- Reading an operand goes with the steps of a reader, in any chain without signs so far. -/
theorem Descent.operand_retraced (o : Options) (ts : List Token) (hnegated : l.negated = false)
    (opened : List (Opening × Level)) :
    (⟨.operand, l, opened⟩ : Reader).Retraces o ts (Reader.HasOperand o l opened)
      (operand o l.room false ts) :=
  hnegated ▸ operand_retraces (fun ts _ => retraced o ts) (Nat.le_refl ts.length) l

/-- One operand is read from tokens if a reader of them ends in a chain of this operand alone. -/
theorem Descent.operand_eq_iff {room : Nat} :
    (∃ p, operand o room false ts = .ok p ∧ p.value = x ∧ p.rest = []) ↔
      ∃ r, ts.foldlM (·.step o) (⟨.operand, .fresh room, []⟩ : Reader) = .ok r ∧ r.opened = [] ∧
        r.level.before = [] ∧ r.finish o = .ok x := by
  have hread : (⟨.operand, .fresh room, []⟩ : Reader).Retraces o ts
      (Reader.HasOperand o (.fresh room) []) (operand o room false ts) :=
    operand_retraced (l := .fresh room) o ts rfl []
  have hclose (y : Expr) (negated : Bool) :
      Reader.finish o ⟨.operator y, { Level.fresh room with negated }, []⟩ = .ok y :=
    congrArg Except.ok (Level.close_of_nil rfl y)
  constructor
  · rintro ⟨⟨x, rest, hshort⟩, hoperand, rfl, rfl⟩
    rw [hoperand] at hread
    obtain ⟨front, r, hts, hfront, negated, hr⟩ := hread
    rw [List.append_nil] at hts
    exact ⟨r, hts ▸ hfront, hr.opened_eq, congrArg Level.before hr.level_eq,
      hr.finish.trans (hclose x negated)⟩
  · rintro ⟨r, hr, hopened, hbefore, hfinish⟩
    cases hoperand : operand o room false ts with
    | error error =>
      rw [hoperand] at hread
      have hx : (⟨.operand, .fresh room, []⟩ : Reader).read o ts = .ok x := by
        rw [Reader.read, hr]
        exact hfinish
      cases hread.symm.trans hx
    | ok p =>
      rw [hoperand] at hread
      obtain ⟨y, rest, hshort⟩ := p
      obtain ⟨front, r', hts, hfront, negated, hholds⟩ := hread
      have hrun : rest.foldlM (·.step o) r' = .ok r := by
        rw [← foldlM_of_append hfront, ← hr]
        exact congrArg (List.foldlM _ _) hts.symm
      have hnil : rest = [] := hholds.eq_nil hrun hopened hbefore
      subst hnil
      cases hrun
      have hy : y = x := Except.ok.inj <|
        ((hclose y negated).symm.trans hholds.finish.symm).trans hfinish
      exact ⟨_, rfl, hy, rfl⟩

/-- Tokens that spell one operand, with the signs in front of it: an operand is read from them, and
nothing is left. -/
def SpellsOperand (o : Options) (ts : List Token) (x : Expr) : Prop :=
  ∃ p, Descent.operand o o.maxNesting false ts = .ok p ∧ p.value = x ∧ p.rest = []

/-- A reader of tokens that spell one operand ends in a chain of this operand alone. -/
theorem spellsOperand_iff : SpellsOperand o ts x ↔ ∃ r,
    ts.foldlM (·.step o) (Reader.start o) = .ok r ∧ r.opened = [] ∧ r.level.before = [] ∧
      r.finish o = .ok x :=
  Descent.operand_eq_iff

namespace SpellsOperand

/-- With more nesting allowed the same operand is read. -/
theorem operand_of_le (h : SpellsOperand o ts x) (ho : o'.grouping = o.grouping) {room : Nat}
    (hroom : o.maxNesting ≤ room) :
    ∃ p, Descent.operand o' room false ts = .ok p ∧ p.value = x ∧ p.rest = [] := by
  obtain ⟨r, hr, hopened, hbefore, hfinish⟩ := spellsOperand_iff.1 h
  obtain ⟨k, rfl⟩ := Nat.exists_eq_add_of_le hroom
  refine Descent.operand_eq_iff.2 ⟨r.deepen k, ?_, ?_, hbefore, (r.finish_deepen ho).trans hfinish⟩
  · have hstart : (⟨.operand, .fresh (o.maxNesting + k), []⟩ : Reader) =
      (Reader.start o).deepen k := rfl
    rw [hstart]
    rcases Reader.foldlM_deepen (k := k) ho ts (Reader.start o) with hcut | hsame
    · rw [hr] at hcut
      cases hcut
    · rw [hsame, hr]
      rfl
  · change r.opened.map _ = []
    rw [hopened]
    rfl

/-- An operand is read in any chain with enough room, and the chain is left alone but for the
sign. -/
theorem foldlM_eq (outer : List (Opening × Level)) (h : SpellsOperand o ts x)
    (ho : o'.grouping = o.grouping) (hnegated : l.negated = false) (hroom : o.maxNesting ≤ l.room) :
    ∃ r negated, ts.foldlM (·.step o') (⟨.operand, l, outer⟩ : Reader) = .ok r ∧
      r.level = { l with negated } ∧ r.opened = outer ∧ r.After o' x := by
  have hread := Descent.operand_retraced o' ts hnegated outer
  obtain ⟨⟨x, rest, hshort⟩, hoperand, rfl, rfl⟩ := h.operand_of_le ho hroom
  rw [hoperand] at hread
  obtain ⟨front, r, hts, hfront, negated, hr⟩ := hread
  rw [List.append_nil] at hts
  exact ⟨r, negated, hts ▸ hfront, hr.level_eq, hr.opened_eq, hr.after⟩

end SpellsOperand

end

/-! ## Chains -/

/-- An operand with the operator in front of it, and the tokens that spell them. -/
structure Link (o : Options) where
  mark : Token
  op : Operator
  kind_mark : mark.kind = .operator
  ofText?_mark : Operator.ofText? mark.text = some op
  tokens : List Token
  operand : Expr
  spells : SpellsOperand o tokens operand

/-- A chain of operands, and the tokens that spell them. -/
structure SpelledChain (o : Options) where
  tokens₀ : List Token
  first : Expr
  spells₀ : SpellsOperand o tokens₀ first
  links : List (Link o)

/-- The tokens of operators and operands, one after the other. -/
def Link.allTokens {o : Options} (links : List (Link o)) : List Token :=
  links.flatMap fun k => k.mark :: k.tokens

/-- The operators with their operands. -/
def Link.pairs {o : Options} (links : List (Link o)) : List (Operator × Expr) :=
  links.map fun k => (k.op, k.operand)

/-- The number of powers. -/
def Link.powers {o : Options} (links : List (Link o)) : Nat :=
  links.countP (·.op == .power)

/-- The levels that operators take: one for each power where operators bind, and none from left to
right. -/
def Link.levels {o : Options} (grouping : Grouping) (links : List (Link o)) : Nat :=
  if grouping = .byBinding then powers links else 0

/-- A power behind an operand is one level more where operators bind. -/
theorem Link.levels_cons {o : Options} (grouping : Grouping) (k : Link o) (links : List (Link o)) :
    levels grouping (k :: links) =
      levels grouping links + if grouping = .byBinding ∧ k.op = .power then 1 else 0 := by
  have hpowers : powers (k :: links) = powers links + if k.op == .power then 1 else 0 :=
    List.countP_cons
  unfold levels
  by_cases hg : grouping = .byBinding
  · simp [hg, hpowers]
  · simp [hg]

/-- A chain opens no more levels than it has powers. -/
theorem Link.levels_le_powers {o : Options} (grouping : Grouping) (links : List (Link o)) :
    levels grouping links ≤ powers links := by
  unfold levels
  split <;> omega

namespace SpelledChain

variable {o : Options}

/-- The tokens of a chain. -/
def tokens (c : SpelledChain o) : List Token :=
  c.tokens₀ ++ Link.allTokens c.links

/-- The chain that is spelled. -/
def chain (c : SpelledChain o) : Chain :=
  ⟨c.first, Link.pairs c.links⟩

end SpelledChain

section
variable {o o' : Options} {l : Level} {outer : List (Opening × Level)} {ts : List Token} {x : Expr}

/-- An operator in a chain with room for it, and the room that it leaves. -/
theorem Level.exists_push {n : Nat} (o : Options) (x : Expr) (op : Operator)
    (hbase : l.room ≤ l.base)
    (hroom : n + (if o.grouping = .byBinding ∧ op = .power then 1 else 0) ≤ l.room) :
    ∃ l', l.push o x op = .ok l' ∧ l'.before = (x, op) :: l.before ∧ l'.negated = false ∧
      n ≤ l'.room ∧ l'.room ≤ l'.base ∧ l'.base = l.base := by
  unfold Level.push
  split
  · next hpower =>
    rw [if_pos hpower] at hroom
    obtain ⟨room, hsucc⟩ : ∃ room, l.room = room + 1 := ⟨l.room - 1, by omega⟩
    rw [hsucc]
    exact ⟨_, rfl, rfl, rfl, by dsimp only; omega, by dsimp only; omega, rfl⟩
  · exact ⟨_, rfl, rfl, rfl, by dsimp only; omega, Nat.le_refl _, rfl⟩

/-- The token of an operator after an operand. -/
theorem Reader.After.step_mark {r : Reader} (h : r.After o' x) (k : Link o) :
    r.step o' k.mark =
      (r.level.push o' x k.op).map fun l => ⟨.operand, l, r.opened⟩ := by
  have hmark : ∀ s, Operator.ofText? s = none → k.mark.isOperator s = false := by
    intro s hs
    refine Bool.eq_false_iff.2 fun hmark => ?_
    rw [Token.isOperator, Bool.and_eq_true, beq_iff_eq, beq_iff_eq] at hmark
    have hop := k.ofText?_mark
    rw [hmark.2, hs] at hop
    cases hop
  rw [h.step k.mark (hmark "(" rfl) (hmark ":" rfl), Reader.operatorStep,
    Token.binary?_eq_some_iff.2 ⟨k.kind_mark, k.ofText?_mark⟩]
  change (r.level.push o' x k.op >>= _) = _
  cases r.level.push o' x k.op <;> rfl

/-- A chain is read to its tree, after any operands before it. -/
theorem foldlM_links (outer : List (Opening × Level)) (ho : o'.grouping = o.grouping)
    (links : List (Link o)) {ts : List Token} {x : Expr} {l : Level} (hx : SpellsOperand o ts x)
    (hnegated : l.negated = false) (hbase : l.room ≤ l.base)
    (hroom : o.maxNesting + Link.levels o'.grouping links ≤ l.room) :
    ∃ r y, (ts ++ Link.allTokens links).foldlM (·.step o') (⟨.operand, l, outer⟩ : Reader) = .ok r ∧
      r.level.base = l.base ∧ r.opened = outer ∧ r.After o' y ∧ r.level.close o' y =
        ((Chain.ofBefore x (Link.pairs links) l.before).tree o'.grouping).toExpr := by
  induction links generalizing ts x l with
  | nil =>
    obtain ⟨r, negated, hr, hlevel, hopened, hafter⟩ :=
      hx.foldlM_eq outer ho hnegated (Nat.le_trans (Nat.le_add_right ..) hroom)
    refine ⟨r, x, ?_, by rw [hlevel], hopened, hafter, ?_⟩
    · rw [Link.allTokens, List.flatMap_nil, List.append_nil, hr]
    · rw [hlevel]
      rfl
  | cons k links ih =>
    rw [Link.levels_cons, ← Nat.add_assoc] at hroom
    obtain ⟨r, negated, hr, hlevel, hopened, hafter⟩ :=
      hx.foldlM_eq outer ho hnegated (by omega)
    obtain ⟨l', hpush, hbefore, hnegated', hroom', hle, hbase'⟩ :=
      Level.exists_push (l := { l with negated }) o' x k.op hbase hroom
    obtain ⟨r', y, hr', hbase'', hopened', hafter', hclose⟩ := ih k.spells hnegated' hle hroom'
    refine ⟨r', y, ?_, hbase''.trans hbase', hopened', hafter', ?_⟩
    · have hstep := hafter.step_mark k
      rw [hlevel, hpush, hopened] at hstep
      rw [foldlM_of_append hr, Link.allTokens, List.flatMap_cons, List.cons_append,
        foldlM_of_step hstep]
      exact hr'
    · rw [hclose, hbefore]
      rfl

/-- **A chain is read to its tree**, at the start, between parentheses and among arguments. Each
operand takes what nesting is allowed for it, and where operators bind each power takes one level
more. -/
theorem SpelledChain.readsAs (c : SpelledChain o) (ho : o'.grouping = o.grouping) {room : Nat}
    (hroom : o.maxNesting + Link.levels o'.grouping c.links ≤ room) :
    ReadsAs o' room c.tokens (c.chain.tree o'.grouping).toExpr := by
  intro opened
  obtain ⟨r, y, hr, hbase, hopened, hafter, hclose⟩ :=
    foldlM_links (l := .fresh room) opened ho c.links c.spells₀ rfl (Nat.le_refl _) hroom
  exact ⟨r, y, hr, hbase, hopened, hafter, hclose⟩

/-- A chain of operands with enough nesting for every power is a formula. -/
theorem SpelledChain.ofTokens_tokens (c : SpelledChain o) (ho : o'.grouping = o.grouping)
    (hnesting : o.maxNesting + Link.powers c.links ≤ o'.maxNesting) :
    Expr.ofTokens o' c.tokens = .ok (c.chain.tree o'.grouping).toExpr := by
  have hlevels := Link.levels_le_powers o'.grouping c.links
  exact (c.readsAs ho (by omega)).ofTokens

end

end Spreadsheet
