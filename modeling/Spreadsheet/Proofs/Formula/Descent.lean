import Spreadsheet.Proofs.Formula.Reader

/-!
# Descent and reader

The functions of the descent and the steps of a reader read the same expressions and fail with the
same errors (`Expr.ofTokens_eq_read`). Each function has a lemma that says in which chain its phrase
is read, and where the reader stands when the function hands the rest back (`Reader.Retraces`). From
left to right, the loop has joined what the chain is folded to. Where operators bind, the loop of a
level has joined the tree at the end of the right edge of the tree to which the reader grafts its
operands: around it are the operators that the loops further out have under way (`Tree.spine`), and
they all give way to the operators of the level (`Descent.level_retraces`).
-/

namespace Spreadsheet

open Token

/-! ## Trees under way -/

/-- A tree at the end of a right edge, below the left operands and the operators on this edge, the
innermost first. -/
def Tree.spine : List (Tree × Operator) → Tree → Tree
  | [], t => t
  | (left, op) :: around, t => spine around (.join op left t)

/-- Every operator leaves its right operand to a power. -/
theorem Tree.givesWay_power (p : Operator) : givesWay p .power = true := by
  cases p <;> rfl

/-- An operator leaves its right operand to one that binds more tightly. -/
theorem Tree.givesWay_of_lt {p op : Operator} (h : p.binding < op.binding) :
    givesWay p op = true := by
  simp [givesWay, h]

/-- An operator keeps its right operand from one that binds no more tightly and is no power. -/
theorem Tree.givesWay_eq_false {p op : Operator} (h : op.binding ≤ p.binding) (hop : op ≠ .power) :
    givesWay p op = false := by
  simp [givesWay, hop, h]

/-- An operand is grafted to the end of a right edge where the operators on the edge give way. -/
theorem Tree.graft_spine {op : Operator} {y : Expr} {around : List (Tree × Operator)}
    (h : ∀ p ∈ around, givesWay p.2 op = true) (t : Tree) :
    (spine around t).graft op y = spine around (t.graft op y) := by
  induction around generalizing t with
  | nil => rfl
  | cons p around ih =>
    obtain ⟨left, q⟩ := p
    have hq : givesWay q op = true := h (left, q) (.head _)
    rw [spine, ih (fun p hp => h p (.tail _ hp)), spine, graft, if_pos hq]

/-- A tree whose operator does not give way becomes the left operand of the next one. -/
theorem Tree.graft_of_not_givesWay {op : Operator} {y : Expr} {t : Tree}
    (h : ∀ p ∈ t.root?, givesWay p op = false) : t.graft op y = join op t (operand y) := by
  cases t with
  | operand x => rfl
  | join p left right =>
    rw [graft, h p rfl]
    rfl

/-- What comes after an operand goes to the end of its chain. -/
theorem Chain.ofBefore_append (x : Expr) (after after' : List (Operator × Expr))
    (before : List (Expr × Operator)) :
    ofBefore x (after ++ after') before =
      ⟨(ofBefore x after before).first, (ofBefore x after before).rest ++ after'⟩ := by
  induction before generalizing x after with
  | nil => rfl
  | cons p before ih => exact ih p.1 ((p.2, x) :: after)

/-- The operators of a chain under way are those that come after its operands. -/
theorem Chain.operators_ofBefore (x : Expr) (after : List (Operator × Expr))
    (before : List (Expr × Operator)) :
    (ofBefore x after before).rest.map Prod.fst =
      (before.map Prod.snd).reverse ++ after.map Prod.fst := by
  induction before generalizing x after with
  | nil => rfl
  | cons p before ih =>
    rw [ofBefore, ih]
    simp

/-- One more operand after a chain: it is joined to all that was read, or dropped behind a
comparison. -/
theorem Chain.groupLeft_concat (t : Tree) (rest : List (Operator × Expr)) (op : Operator)
    (y : Expr) :
    groupLeft t (rest ++ [(op, y)]) =
      if rest.any (·.1.isComparison) then groupLeft t rest
      else .join op (groupLeft t rest) (.operand y) := by
  induction rest generalizing t with
  | nil => simp [groupLeft]
  | cons p rest ih =>
    obtain ⟨q, z⟩ := p
    rw [List.cons_append, groupLeft, groupLeft, ih, List.any_cons]
    cases q.isComparison <;> rfl

/-- The tree of a chain that ends with this operand. -/
def Level.tree (g : Grouping) (l : Level) (x : Expr) : Tree :=
  (Chain.ofBefore x [] l.before).tree g

/-- Whether a comparison has been read in a chain. -/
def Level.compared (l : Level) : Bool :=
  l.before.any (·.2.isComparison)

section
variable {o : Options} {l l' : Level} {x y : Expr} {op : Operator}

/-- The expression of a chain is that of its tree. -/
theorem Level.close_eq (h : (l.tree o.grouping x).toExpr = y) : l.close o x = y := h

/-- The tree of a chain that begins is its operand alone. -/
theorem Level.tree_fresh (g : Grouping) (room : Nat) (x : Expr) :
    (Level.fresh room).tree g x = .operand x := by
  cases g <;> rfl

/-- From left to right an operand is joined to all before it, and dropped behind a comparison. -/
theorem Level.tree_leftToRight (h : l'.before = (x, op) :: l.before) (y : Expr) :
    l'.tree .leftToRight y =
      if l.compared then l.tree .leftToRight x
      else .join op (l.tree .leftToRight x) (.operand y) := by
  have hany : (Chain.ofBefore x [] l.before).rest.any (·.1.isComparison) = l.compared := by
    have hmap := congrArg (·.any Operator.isComparison) (Chain.operators_ofBefore x [] l.before)
    simpa [Level.compared, List.any_map, Function.comp_def] using hmap
  have hchain := Chain.ofBefore_append x [] [(op, y)] l.before
  rw [Level.tree, h, Chain.ofBefore, ← List.nil_append [(op, y)], hchain, Chain.tree,
    Chain.groupLeft_concat, hany]
  rfl

/-- Where operators bind, an operand is grafted to the tree of those before it. -/
theorem Level.tree_byBinding (h : l'.before = (x, op) :: l.before) (y : Expr) :
    l'.tree .byBinding y = (l.tree .byBinding x).graft op y := by
  have hchain := Chain.ofBefore_append x [] [(op, y)] l.before
  rw [Level.tree, h, Chain.ofBefore, ← List.nil_append [(op, y)], hchain, Chain.tree,
    Chain.groupBinding, List.foldl_append]
  rfl

/-- The chain in which the next operand stands at the end of a right edge, without signs so far. -/
structure Level.Awaits (l : Level) (around : List (Tree × Operator)) : Prop where
  negated : l.negated = false
  tree : ∀ x, l.tree .byBinding x = Tree.spine around (.operand x)

/-- The chain behind an operator after a tree at the end of a right edge: the operators on the edge
give way to it, and the operator of the tree does not. So the tree is its left operand, and the next
operand is grafted to the end of the longer edge. -/
theorem Level.awaits_next {around : List (Tree × Operator)} {t : Tree}
    (h : l'.before = (x, op) :: l.before) (hnegated : l'.negated = false)
    (htree : l.tree .byBinding x = Tree.spine around t)
    (haround : ∀ p ∈ around, Tree.givesWay p.2 op = true)
    (hroot : ∀ p ∈ t.root?, Tree.givesWay p op = false) : l'.Awaits ((t, op) :: around) where
  negated := hnegated
  tree y := by
    rw [Level.tree_byBinding h, htree, Tree.graft_spine haround, Tree.graft_of_not_givesWay hroot]
    rfl

end

/-! ## Readers beside phrases -/

/-- Whether a reader comes to what the descent does with a phrase at the front of the tokens: it
fails with its error, or its steps lead over the tokens in front of the rest to a next reader. -/
def Reader.Retraces {α : Type} {n : Nat} (o : Options) (r : Reader) (ts : List Token)
    (next : α → List Token → Reader → Prop) : Except FormulaError (Phrase α n) → Prop
  | .error error => r.read o ts = .error error
  | .ok p => ∃ front r', ts = front ++ p.rest ∧ front.foldlM (·.step o) r = .ok r' ∧
    next p.value p.rest r'

namespace Reader.Retraces

variable {α β : Type} {m n : Nat} {o : Options} {r r' : Reader} {t : Token} {ts : List Token}
variable {next : α → List Token → Reader → Prop} {next' : β → List Token → Reader → Prop}
variable {result : Except FormulaError (Phrase α n)}

/-- A phrase that needs no token. -/
theorem here {x : α} {h : ts.length < n} (hnext : next x ts r) :
    r.Retraces o ts next (.ok ⟨x, ts, h⟩) :=
  ⟨[], r, rfl, rfl, hnext⟩

/-- One phrase after the other. -/
theorem bind {f : Phrase α n → Except FormulaError (Phrase β m)} (h : r.Retraces o ts next result)
    (hf : ∀ p r', next p.value p.rest r' → r'.Retraces o p.rest next' (f p)) :
    r.Retraces o ts next' (result >>= f) := by
  cases result with
  | error error => exact h
  | ok p =>
    obtain ⟨front, r', rfl, hfront, hnext⟩ := h
    have hrest := hf p r' hnext
    change r.Retraces o _ next' (f p)
    cases hp : f p with
    | error error =>
      rw [hp] at hrest
      exact (read_append hfront).trans hrest
    | ok q =>
      rw [hp] at hrest
      obtain ⟨front', r'', hts, hfront', hnext'⟩ := hrest
      refine ⟨front ++ front', r'', ?_, (foldlM_of_append hfront).trans hfront', hnext'⟩
      rw [hts, List.append_assoc]

/-- What is made of a phrase. -/
theorem map {f : Phrase α n → Phrase β m} (h : r.Retraces o ts next result)
    (hrest : ∀ p, (f p).rest = p.rest)
    (hf : ∀ p r', next p.value p.rest r' → next' (f p).value p.rest r') :
    r.Retraces o ts next' (f <$> result) := by
  cases result with
  | error error => exact h
  | ok p =>
    obtain ⟨front, r', hts, hfront, hnext⟩ := h
    refine ⟨front, r', hts.trans ?_, hfront, ?_⟩ <;> rw [hrest p]
    exact hf p r' hnext

/-- A phrase may stand in a longer list of tokens. -/
theorem within {h : n ≤ m} (hr : r.Retraces o ts next result) :
    r.Retraces o ts next ((·.within h) <$> result) :=
  hr.map (fun _ => rfl) fun _ _ hnext => hnext

/-- What holds of the reader behind a phrase may be weakened. -/
theorem imp {next' : α → List Token → Reader → Prop} (h : r.Retraces o ts next result)
    (himp : ∀ x rest r', next x rest r' → next' x rest r') : r.Retraces o ts next' result := by
  cases result with
  | error error => exact h
  | ok p =>
    obtain ⟨front, r', hts, hfront, hnext⟩ := h
    exact ⟨front, r', hts, hfront, himp _ _ _ hnext⟩

/-- A reader retraces a phrase if it does so after the first token. -/
theorem of_step (hstep : r.step o t = .ok r') (h : r'.Retraces o ts next result) :
    r.Retraces o (t :: ts) next result := by
  cases result with
  | error error =>
    change Reader.read o r (t :: ts) = _
    rw [read_cons, hstep]
    exact h
  | ok p =>
    obtain ⟨front, r'', rfl, hfront, hnext⟩ := h
    exact ⟨t :: front, r'', rfl, (foldlM_of_step hstep).trans hfront, hnext⟩

/-- A reader that fails at the first token retraces a descent that fails in the same way. -/
theorem of_step_error {error : FormulaError} (hstep : r.step o t = .error error) :
    r.Retraces o (t :: ts) next (.error error : Except FormulaError (Phrase α n)) := by
  change Reader.read o r (t :: ts) = _
  rw [read_cons, hstep]
  rfl

/-- Readers with the same first step retrace the same phrases that need a token. -/
theorem of_step_eq {result : Except FormulaError (Phrase α (t :: ts).length)}
    (hstep : r.step o t = r'.step o t) (h : r'.Retraces o (t :: ts) next result) :
    r.Retraces o (t :: ts) next result := by
  cases result with
  | error error =>
    change Reader.read o r (t :: ts) = _
    rw [read_cons, hstep, ← read_cons]
    exact h
  | ok p =>
    obtain ⟨front, r'', hts, hfront, hnext⟩ := h
    cases front with
    | nil =>
      have hlt := p.shorter
      rw [← show t :: ts = p.rest from hts] at hlt
      exact absurd hlt (Nat.lt_irrefl _)
    | cons u front =>
      obtain ⟨rfl, -⟩ := List.cons.inj hts
      refine ⟨t :: front, r'', hts, ?_, hnext⟩
      rw [List.foldlM_cons, hstep, ← List.foldlM_cons]
      exact hfront

/-- What is opened takes a level of nesting from both. -/
theorem enter {opening : Opening} {expecting : Expecting}
    {inner : Nat → Except FormulaError (Phrase α n)}
    (hstep : r.step o t = r'.enter o opening expecting)
    (h : ∀ room, (⟨expecting, .fresh room, (opening, r'.level) :: r'.opened⟩ : Reader).Retraces o ts
      next (inner room)) :
    r.Retraces o (t :: ts) next (Descent.enter o r'.level.room inner) := by
  unfold Reader.enter at hstep
  unfold Descent.enter
  cases hroom : r'.level.room with
  | zero =>
    rw [hroom] at hstep
    exact .of_step_error hstep
  | succ room =>
    rw [hroom] at hstep
    exact .of_step hstep (h room)

end Reader.Retraces

/-! ## Operands -/

/-- Whether what is left begins with no operator of so many levels, nor with a tighter one. -/
def Stops (levels : Nat) (rest : List Token) : Prop :=
  ∀ t ∈ rest.head?, ∀ op, t.binary? = some op → op.binding + levels < 6

/-- Whether a reader stands after an operand in a chain. If it has read the operand as a word only,
what is left does not belong to it. -/
structure Reader.Holds (o : Options) (l : Level) (opened : List (Opening × Level)) (x : Expr)
    (rest : List Token) (r : Reader) : Prop where
  level_eq : r.level = l
  opened_eq : r.opened = opened
  after : r.After o x
  step : ∀ t ∈ rest.head?, r.step o t = Reader.step o ⟨.operator x, l, opened⟩ t

/-- The reader that has read an operand without signs, in a chain. -/
def Reader.Completes (o : Options) (l : Level) (opened : List (Opening × Level)) (x : Expr)
    (rest : List Token) (r : Reader) : Prop :=
  r.Holds o l opened (l.signed x) rest

/-- The reader that has read an operand with its signs, in a chain. -/
def Reader.HasOperand (o : Options) (l : Level) (opened : List (Opening × Level)) (x : Expr)
    (rest : List Token) (r : Reader) : Prop :=
  ∃ negated, r.Holds o { l with negated } opened x rest

/-- The reader that has read a chain which is grouped to this expression. -/
def Reader.HasChain (o : Options) (room : Nat) (opened : List (Opening × Level)) (x : Expr)
    (rest : List Token) (r : Reader) : Prop :=
  ∃ l y, r.Holds o l opened y rest ∧ l.base = room ∧ l.close o y = x ∧ Stops 5 rest

/-- Whether a reader reads these tokens as the descent does, in a chain of their own. -/
def Retraced (o : Options) (ts : List Token) : Prop :=
  ∀ room opened, (⟨.operand, .fresh room, opened⟩ : Reader).Retraces o ts
    (Reader.HasChain o room opened) (Descent.expression o room ts)

/-- The reader that has read a phrase of so many levels, the tree at the end of a right edge. -/
def Reader.HasTree (o : Options) (levels base : Nat) (around : List (Tree × Operator))
    (opened : List (Opening × Level)) (x : Expr) (rest : List Token) (r : Reader) : Prop :=
  ∃ l y t, r.Holds o l opened y rest ∧ l.base = base ∧
    l.tree .byBinding y = Tree.spine around t ∧ t.toExpr = x ∧
    (∀ p ∈ t.root?, 6 ≤ p.binding + levels) ∧ Stops levels rest

/-- Whether a reader reads these tokens as the descent reads them by so many levels, in any chain
where the operators that are under way bind less tightly. -/
def LevelRetraced (o : Options) (levels : Nat) (ts : List Token) : Prop :=
  ∀ (l : Level) (around : List (Tree × Operator)) (opened : List (Opening × Level)),
    l.Awaits around → l.room = l.base → (∀ p ∈ around, p.2.binding + levels < 6) →
    (⟨.operand, l, opened⟩ : Reader).Retraces o ts (Reader.HasTree o levels l.base around opened)
      (Descent.level o l.base levels ts)

/-- Every operator is at one of the levels from 1 up. -/
theorem Operator.binding_pos (op : Operator) : 0 < op.binding := by
  cases op <;> decide

/-- There are six levels of binding. -/
theorem Operator.binding_le (op : Operator) : op.binding ≤ 6 := by
  cases op <;> decide

/-- The power alone is at the tightest level. -/
theorem Operator.eq_power_of_binding {op : Operator} (h : op.binding = 6) : op = .power := by
  cases op with
  | power => rfl
  | _ => cases h

/-- Behind an expression there is no binary operator. -/
theorem Stops.binary?_eq_none {t : Token} {ts : List Token} (h : Stops 5 (t :: ts)) :
    t.binary? = none := by
  cases hop : t.binary? with
  | none => rfl
  | some op =>
    have hpos := op.binding_pos
    have hlt := h t rfl op hop
    omega

/-- At the end of the tokens there is no operator to go on with. -/
theorem Stops.nil (levels : Nat) : Stops levels [] := nofun

/-- A token that is no binary operator ends the chains of all levels. -/
theorem Stops.of_none {t : Token} {ts : List Token} (h : t.binary? = none) (levels : Nat) :
    Stops levels (t :: ts) := by
  intro t' ht' op hop
  cases ht'
  rw [h] at hop
  cases hop

/-- A reader that expects an operator holds the operand before it. -/
theorem Reader.holds_operator (o : Options) (l : Level) (opened : List (Opening × Level)) (x : Expr)
    (rest : List Token) : (⟨.operator x, l, opened⟩ : Reader).Holds o l opened x rest :=
  ⟨rfl, rfl, Reader.after_operator x, fun _ _ => rfl⟩

/-- A reader that holds an operand finishes as one that expects an operator after it. -/
theorem Reader.Holds.finish {o : Options} {l : Level} {opened : List (Opening × Level)} {x : Expr}
    {rest : List Token} {r : Reader} (h : r.Holds o l opened x rest) :
    r.finish o = Reader.finish o ⟨.operator x, l, opened⟩ := by
  obtain ⟨expecting, level, opened'⟩ := r
  obtain ⟨rfl, rfl, hafter, -⟩ := h
  exact hafter.finish

namespace Descent

variable {o : Options} {l : Level} {opened : List (Opening × Level)}

/-- A closing parenthesis ends the arguments. -/
theorem arguments_of_close {t : Token} (h : t.isOperator ")" = true) (room : Nat)
    (args : List Expr) (rest : List Token) :
    arguments o room args (t :: rest) = .ok ⟨args.reverse, rest,
      Nat.lt_succ_of_lt (Nat.lt_succ_self _)⟩ := by
  rw [arguments]
  exact if_pos h

/-- A comma before an argument is passed over. -/
theorem arguments_of_comma {t : Token} (h : t.isOperator "," = true) (room : Nat)
    (args : List Expr) (rest : List Token) :
    arguments o room args (t :: rest) =
      (·.within (Nat.le_succ _)) <$> arguments o room args rest := by
  rw [arguments]
  dsimp only
  rw [Token.isOperator_of_isOperator h ")", h]
  rfl

/-- The second corner of a range is retraced. -/
theorem corner_retraces (w : String) (start : Coord) (ts : List Token) :
    (⟨.corner w start, l, opened⟩ : Reader).Retraces o ts (Reader.Completes o l opened)
      (corner w start ts) := by
  cases ts with
  | nil => exact rfl
  | cons t rest =>
    have hstep : Reader.step o ⟨.corner w start, l, opened⟩ t =
      Reader.cornerStep ⟨.corner w start, l, opened⟩ w start t := rfl
    unfold Reader.cornerStep at hstep
    unfold corner
    dsimp only
    split
    · next h =>
      rw [if_pos h] at hstep
      cases haddress : readAddress t.text with
      | error error =>
        rw [haddress] at hstep
        exact .of_step_error hstep
      | ok c =>
        rw [haddress] at hstep
        exact .of_step hstep (.here (Reader.holds_operator ..))
    · next h =>
      rw [if_neg h] at hstep
      exact .of_step_error hstep

section
variable {n : Nat} (ih : ∀ ts : List Token, ts.length < n → Retraced o ts)
include ih

/-- The arguments of a call are retraced, if the expressions in them are. -/
theorem arguments_retraces {ts : List Token} (h : ts.length < n) (room : Nat) (name : String)
    (args : List Expr) :
    (⟨.argument, .fresh room, (.call name args, l) :: opened⟩ : Reader).Retraces o ts
      (fun args' rest r => r.Completes o l opened (.call name args') rest)
      (arguments o room args ts) := by
  match ts with
  | [] =>
    unfold arguments
    exact rfl
  | t :: rest =>
    have hstep : Reader.step o ⟨.argument, .fresh room, (.call name args, l) :: opened⟩ t = _ :=
      Reader.step_argument_call t (.fresh room) name args
    unfold arguments
    dsimp only
    split
    · next hclose =>
      rw [if_pos hclose] at hstep
      exact .of_step hstep (.here (Reader.holds_operator ..))
    · next hclose =>
      rw [if_neg hclose] at hstep
      split
      · next hcomma =>
        rw [if_pos hcomma] at hstep
        exact .of_step hstep
          (arguments_retraces (Nat.lt_of_succ_lt h) room name args).within
      · next hcomma =>
        rw [if_neg hcomma] at hstep
        refine (Reader.Retraces.of_step_eq hstep (ih (t :: rest) h room _)).bind ?_
        rintro ⟨x, rest', hrest'⟩ r ⟨inner, y, hr, hbase, rfl, hstops⟩
        match rest' with
        | [] => exact hr.finish.trans rfl
        | u :: after =>
          have : after.length < rest.length := Nat.lt_of_succ_lt_succ hrest'
          have hend := (hr.step u rfl).trans
            (Reader.step_operator_call hstops.binary?_eq_none inner y name args)
          dsimp only
          split
          · next hu =>
            cases hclose : u.isOperator ")" with
            | true =>
              rw [if_pos hclose] at hend
              rw [arguments_of_close hclose]
              exact .of_step hend (.here (Reader.holds_operator ..))
            | false =>
              have hcomma : u.isOperator "," = true := hu.resolve_right (by simp [hclose])
              rw [if_neg (by simp [hclose]), if_pos hcomma, hbase] at hend
              rw [arguments_of_comma hcomma]
              have hlt := Nat.lt_trans this (Nat.lt_of_succ_lt h)
              exact .of_step hend (arguments_retraces hlt room name _).within.within
          · next hu =>
            rw [not_or] at hu
            rw [if_neg hu.2, if_neg hu.1] at hend
            exact .of_step_error hend
termination_by ts.length

/-- What a word begins is retraced: a call, a range or an operand of one word. -/
theorem word_retraces {ts : List Token} (h : ts.length < n) (w : String) :
    (⟨.afterWord w, l, opened⟩ : Reader).Retraces o ts (Reader.Completes o l opened)
      (word o l.room w ts) := by
  unfold word
  cases ts with
  | nil =>
    dsimp only
    cases hx : Expr.ofWord w with
    | error error =>
      have hfinish : Reader.finish o ⟨.afterWord w, l, opened⟩ = (Expr.ofWord w >>= fun x =>
        Reader.finish o ⟨.operator (l.signed x), l, opened⟩) := rfl
      rw [hx] at hfinish
      exact hfinish
    | ok x => exact .here ⟨rfl, rfl, Reader.after_word hx, nofun⟩
  | cons t rest =>
    have hstep : Reader.step o ⟨.afterWord w, l, opened⟩ t =
      Reader.wordStep o ⟨.afterWord w, l, opened⟩ w t := rfl
    unfold Reader.wordStep at hstep
    dsimp only
    split
    · next hopen =>
      rw [if_pos hopen] at hstep
      refine .enter hstep fun room => ?_
      exact (arguments_retraces ih (Nat.lt_of_succ_lt h) room (Text.upper w) []).bind
        fun p r hp => .here hp
    · next hopen =>
      rw [if_neg hopen] at hstep
      cases hx : Expr.ofWord w with
      | error error =>
        rw [hx] at hstep
        exact .of_step_error hstep
      | ok x =>
        rw [hx] at hstep
        have hoperand (hstep : Reader.step o ⟨.afterWord w, l, opened⟩ t =
            Reader.step o ⟨.operator (l.signed x), l, opened⟩ t) :
            (⟨.afterWord w, l, opened⟩ : Reader).Retraces o (t :: rest)
              (Reader.Completes o l opened) (.ok ⟨x, t :: rest, Nat.lt_succ_self _⟩) :=
          .here ⟨rfl, rfl, Reader.after_word hx, by rintro u ⟨⟩; exact hstep⟩
        cases x with
        | cell start =>
          cases hcolon : t.isOperator ":" with
          | true =>
            rw [hcolon] at hstep
            exact .of_step hstep (corner_retraces w start rest).within
          | false =>
            rw [hcolon] at hstep
            exact hoperand hstep
        | number | text | bare | range | binary | negate | call => exact hoperand hstep

/-- An expression in parentheses is retraced, up to the closing one. -/
theorem group_retraces {ts : List Token} (h : ts.length < n) (room : Nat) :
    (⟨.operand, .fresh room, (.group, l) :: opened⟩ : Reader).Retraces o ts
      (Reader.Completes o l opened)
      (expression o room ts >>= fun x => closing (x.within (Nat.le_succ _))) := by
  refine (ih ts h room _).bind ?_
  rintro ⟨x, rest, hrest⟩ r ⟨inner, y, hr, -, rfl, hstops⟩
  match rest with
  | [] => exact hr.finish.trans rfl
  | t :: after =>
    have hend := (hr.step t rfl).trans
      (Reader.step_operator_group hstops.binary?_eq_none inner y)
    unfold closing
    dsimp only [Phrase.within]
    split
    · next hclose =>
      rw [if_pos hclose] at hend
      exact .of_step hend (.here (Reader.holds_operator ..))
    · next hclose =>
      rw [if_neg hclose] at hend
      exact .of_step_error hend

/-- An operand without its signs is retraced. -/
theorem primary_retraces {t : Token} {ts : List Token} (h : ts.length < n)
    (hminus : t.isOperator "-" = false) (hplus : t.isOperator "+" = false) :
    (⟨.operand, l, opened⟩ : Reader).Retraces o (t :: ts) (Reader.Completes o l opened)
      (primary o l.room (t :: ts)) := by
  have hstep : Reader.step o ⟨.operand, l, opened⟩ t =
    Reader.operandStep o ⟨.operand, l, opened⟩ t := rfl
  unfold Reader.operandStep at hstep
  unfold primary
  cases hkind : t.kind with
  | text =>
    rw [hkind] at hstep
    exact .of_step hstep (.here (Reader.holds_operator ..))
  | word =>
    rw [hkind] at hstep
    exact .of_step hstep (word_retraces ih h t.text)
  | operator =>
    have hname : ∀ name, t.isOperator name = false → t.text ≠ name := by
      intro name hname htext
      rw [Token.isOperator_iff.2 ⟨hkind, htext⟩] at hname
      cases hname
    rw [hkind] at hstep
    dsimp only at hstep ⊢
    rw [if_neg (hname "-" hminus), if_neg (hname "+" hplus)] at hstep
    split
    · next hopen =>
      rw [if_pos hopen] at hstep
      exact .enter hstep fun room => group_retraces ih h room
    · next hopen =>
      rw [if_neg hopen] at hstep
      exact .of_step_error hstep

/-- An operand is read in any chain, of which it changes no more than the signs. -/
theorem operand_retraces {ts : List Token} (h : ts.length ≤ n) (l : Level) :
    (⟨.operand, l, opened⟩ : Reader).Retraces o ts (Reader.HasOperand o l opened)
      (operand o l.room l.negated ts) := by
  induction ts generalizing l with
  | nil =>
    unfold operand
    exact rfl
  | cons t rest ihrest =>
    have hrest : rest.length ≤ n := Nat.le_of_succ_le h
    have hsign : ∀ name, t.isOperator name = true → t.kind = .operator ∧ t.text = name :=
      fun name => Token.isOperator_iff.1
    have hstep : Reader.step o ⟨.operand, l, opened⟩ t =
      Reader.operandStep o ⟨.operand, l, opened⟩ t := rfl
    unfold Reader.operandStep at hstep
    unfold operand
    split
    · next hminus =>
      obtain ⟨hkind, htext⟩ := hsign "-" hminus
      rw [hkind] at hstep
      dsimp only at hstep
      rw [if_pos htext] at hstep
      exact .of_step hstep (ihrest hrest { l with negated := !l.negated }).within
    · next hminus =>
      split
      · next hplus =>
        obtain ⟨hkind, htext⟩ := hsign "+" hplus
        rw [hkind] at hstep
        dsimp only at hstep
        rw [htext] at hstep
        exact .of_step hstep (ihrest hrest l).within
      · next hplus =>
        have hprimary : (⟨.operand, l, opened⟩ : Reader).Retraces o (t :: rest) _ _ :=
          primary_retraces ih h (Bool.eq_false_iff.2 hminus) (Bool.eq_false_iff.2 hplus)
        exact hprimary.map (fun _ => rfl) fun p r hr => ⟨l.negated, hr⟩

/-! ### Chains from left to right -/

/-- The operands behind a comparison are retraced; they are read and dropped. -/
theorem dropped_retraces (ho : o.grouping = .leftToRight) {ts : List Token} (h : ts.length ≤ n)
    {l : Level} {x y : Expr} {r : Reader} (hr : r.Holds o l opened y ts)
    (hcompared : l.compared = true) (hx : (l.tree .leftToRight y).toExpr = x) :
    r.Retraces o ts (Reader.HasChain o l.base opened) (dropped o l.base x ts) := by
  have hclose : l.close o y = x := Level.close_eq (by rw [ho]; exact hx)
  match ts with
  | [] =>
    unfold dropped
    exact .here ⟨l, y, hr, rfl, hclose, .nil 5⟩
  | t :: rest =>
    unfold dropped
    split
    · next hop => exact .here ⟨l, y, hr, rfl, hclose, .of_none hop 5⟩
    · next op hop =>
      have hstep := (hr.step t rfl).trans
        (Reader.step_operator_binary_of_ne hop (by simp [ho]) l y)
      refine .of_step hstep ((operand_retraces ih (Nat.le_of_succ_le h) _).bind ?_)
      rintro ⟨z, after, hafter⟩ r ⟨negated, hr⟩
      have : after.length < (t :: rest).length := Nat.lt_succ_of_lt hafter
      refine (dropped_retraces ho (Nat.le_of_lt (Nat.lt_of_lt_of_le this h)) hr ?_ ?_).bind
        fun chain r hchain => .here hchain
      · exact Bool.or_eq_true_iff.2 (.inr hcompared)
      · rw [Level.tree_leftToRight (l := l) rfl, if_pos hcompared]
        exact hx
termination_by ts.length

/-- The rest of a chain from left to right is retraced, as long as no comparison has been read. -/
theorem flatRest_retraces (ho : o.grouping = .leftToRight) {ts : List Token} (h : ts.length ≤ n)
    {l : Level} {x y : Expr} {r : Reader} (hr : r.Holds o l opened y ts)
    (hcompared : l.compared = false) (hx : (l.tree .leftToRight y).toExpr = x) :
    r.Retraces o ts (Reader.HasChain o l.base opened) (flatRest o l.base x ts) := by
  have hclose : l.close o y = x := Level.close_eq (by rw [ho]; exact hx)
  match ts with
  | [] =>
    unfold flatRest
    exact .here ⟨l, y, hr, rfl, hclose, .nil 5⟩
  | t :: rest =>
    unfold flatRest
    split
    · next hop => exact .here ⟨l, y, hr, rfl, hclose, .of_none hop 5⟩
    · next op hop =>
      have hstep := (hr.step t rfl).trans
        (Reader.step_operator_binary_of_ne hop (by simp [ho]) l y)
      refine .of_step hstep ((operand_retraces ih (Nat.le_of_succ_le h) _).bind ?_)
      rintro ⟨z, after, hafter⟩ r ⟨negated, hr⟩
      have : after.length < (t :: rest).length := Nat.lt_succ_of_lt hafter
      have hle : after.length ≤ n := Nat.le_of_lt (Nat.lt_of_lt_of_le this h)
      have htree (l' : Level) (hl' : l'.before = (y, op) :: l.before) :
          (l'.tree .leftToRight z).toExpr = .binary op x z := by
        rw [Level.tree_leftToRight hl', hcompared, ← hx]
        rfl
      dsimp only
      split
      · next hcomparison =>
        refine (dropped_retraces ih ho hle hr ?_ (htree _ rfl)).bind
          fun chain r hchain => .here hchain
        exact Bool.or_eq_true_iff.2 (.inl hcomparison)
      · next hcomparison =>
        refine (flatRest_retraces ho hle hr ?_ (htree _ rfl)).bind
          fun chain r hchain => .here hchain
        exact Bool.or_eq_false_iff.2 ⟨Bool.eq_false_iff.2 hcomparison, hcompared⟩
termination_by ts.length

/-- A chain from left to right is retraced. -/
theorem flat_retraces (ho : o.grouping = .leftToRight) {ts : List Token} (h : ts.length ≤ n)
    (room : Nat) :
    (⟨.operand, .fresh room, opened⟩ : Reader).Retraces o ts (Reader.HasChain o room opened)
      (flat o room ts) := by
  unfold flat
  refine (operand_retraces ih h (.fresh room)).bind ?_
  rintro ⟨x, rest, hrest⟩ r ⟨negated, hr⟩
  exact (flatRest_retraces ih ho (Nat.le_of_lt (Nat.lt_of_lt_of_le hrest h)) hr rfl rfl).bind
    fun chain r hchain => .here hchain

/-! ### Chains where operators bind -/

/-- An operand is retraced together with the powers that it is the base of. -/
theorem power_retraces (ho : o.grouping = .byBinding) {ts : List Token} (h : ts.length ≤ n)
    {l : Level} {around : List (Tree × Operator)} (hl : l.Awaits around) :
    (⟨.operand, l, opened⟩ : Reader).Retraces o ts (Reader.HasTree o 0 l.base around opened)
      (power o l.room ts) := by
  have hoperand : (⟨.operand, l, opened⟩ : Reader).Retraces o ts _ _ := operand_retraces ih h l
  rw [hl.negated] at hoperand
  unfold power
  refine hoperand.bind ?_
  rintro ⟨x, rest, hrest⟩ r ⟨negated, hr⟩
  match rest with
  | [] => exact .here ⟨_, x, .operand x, hr, rfl, hl.tree x, rfl, nofun, .nil 0⟩
  | t :: after =>
    have hafter : after.length < ts.length := Nat.lt_of_succ_lt hrest
    dsimp only
    split
    · next hop =>
      have hstep := (hr.step t rfl).trans (Reader.step_operator_binary hop { l with negated } x)
      unfold Level.push at hstep
      rw [if_pos ⟨ho, rfl⟩] at hstep
      unfold enter
      cases hroom : l.room with
      | zero =>
        rw [hroom] at hstep
        exact .of_step_error hstep
      | succ room =>
        rw [hroom] at hstep
        have hawaits : Level.Awaits
            { l with before := (x, .power) :: l.before, room, negated := false }
            ((.operand x, .power) :: around) :=
          Level.awaits_next rfl rfl (hl.tree x) (fun p _ => Tree.givesWay_power p.2) nofun
        have hpower := power_retraces ho (Nat.le_of_lt (Nat.lt_of_lt_of_le hafter h)) hawaits
        refine .of_step hstep (hpower.bind ?_)
        rintro p r ⟨l', y, t', hr, hbase, htree', hx, -, hstops⟩
        refine .here ⟨l', y, .join .power (.operand x) t', hr, hbase, htree', ?_, ?_, hstops⟩
        · rw [Tree.toExpr, hx]
          rfl
        · rintro q ⟨⟩
          exact Nat.le_refl 6
    · next hop =>
      refine .here ⟨_, x, .operand x, hr, rfl, hl.tree x, rfl, nofun, ?_⟩
      rintro u ⟨⟩ op hu
      have hle := op.binding_le
      have hne : op.binding ≠ 6 := fun h => hop (by rw [hu, Operator.eq_power_of_binding h])
      omega
termination_by ts.length

omit ih in
/-- The loop of a level, whose operands are read by the levels that bind more tightly. -/
theorem levelRest_retraces {levels : Nat}
    (hlevel : ∀ ts : List Token, ts.length ≤ n → LevelRetraced o levels ts) {ts : List Token}
    (h : ts.length ≤ n) {l : Level} {around : List (Tree × Operator)}
    (haround : ∀ p ∈ around, p.2.binding + (levels + 1) < 6) {r : Reader} {x y : Expr} {t : Tree}
    (hr : r.Holds o l opened y ts) (htree : l.tree .byBinding y = Tree.spine around t)
    (hx : t.toExpr = x) (hroot : ∀ p ∈ t.root?, 6 ≤ p.binding + (levels + 1))
    (hstops : Stops levels ts) :
    r.Retraces o ts (Reader.HasTree o (levels + 1) l.base around opened)
      (levelRest o l.base levels x ts) := by
  match ts with
  | [] =>
    unfold levelRest
    exact .here ⟨l, y, t, hr, rfl, htree, hx, hroot, .nil _⟩
  | u :: rest =>
    unfold levelRest
    split
    · next hop => exact .here ⟨l, y, t, hr, rfl, htree, hx, hroot, .of_none hop _⟩
    · next op hop =>
      have hlt := hstops u rfl op hop
      split
      · next hbinding =>
        have hne : op ≠ .power := by
          rintro rfl
          have : Operator.power.binding = 6 := rfl
          omega
        have hstep := (hr.step u rfl).trans
          (Reader.step_operator_binary_of_ne hop (mt And.right hne) l y)
        have hawaits : Level.Awaits
            { l with before := (y, op) :: l.before, room := l.base, negated := false }
            ((t, op) :: around) :=
          Level.awaits_next rfl rfl htree
            (fun p hp => Tree.givesWay_of_lt (by have := haround p hp; omega))
            (fun p hp => Tree.givesWay_eq_false (by have := hroot p hp; omega) hne)
        have hle : ∀ p ∈ (t, op) :: around, p.2.binding + levels < 6 := by
          rintro p (_ | ⟨_, hp⟩)
          · exact hlt
          · exact Nat.lt_of_succ_lt (haround p hp)
        refine .of_step hstep ((hlevel rest (Nat.le_of_succ_le h) _ _ opened hawaits rfl
          hle).bind ?_)
        rintro ⟨v, after, hafter⟩ r ⟨l', z, t', hr, hbase, htree', hv, -, hstops'⟩
        have : after.length < (u :: rest).length := Nat.lt_succ_of_lt hafter
        have hjoin : (Tree.join op t t').toExpr = .binary op x v := by
          rw [Tree.toExpr, hx, hv]
        have hroot' : ∀ p ∈ (Tree.join op t t').root?, 6 ≤ p.binding + (levels + 1) := by
          rintro p ⟨⟩
          omega
        have hrest := levelRest_retraces hlevel (Nat.le_of_lt (Nat.lt_of_lt_of_le this h)) haround
          hr htree' hjoin hroot' hstops'
        rw [hbase] at hrest
        exact hrest.bind fun chain r hchain => .here hchain
      · next hbinding =>
        refine .here ⟨l, y, t, hr, rfl, htree, hx, hroot, ?_⟩
        rintro u' ⟨⟩ op' hop'
        rw [hop] at hop'
        cases hop'
        omega
termination_by ts.length

/-- **The loops of the levels build the tree to which a reader grafts the operands.** -/
theorem level_retraces (ho : o.grouping = .byBinding) (levels : Nat) {ts : List Token}
    (h : ts.length ≤ n) : LevelRetraced o levels ts := by
  induction levels generalizing ts with
  | zero =>
    intro l around opened hl hroom _
    unfold level
    have hpower : (⟨.operand, l, opened⟩ : Reader).Retraces o ts _ _ := power_retraces ih ho h hl
    rwa [hroom] at hpower
  | succ levels ihlevel =>
    intro l around opened hl hroom haround
    unfold level
    refine (ihlevel h l around opened hl hroom fun p hp => Nat.lt_of_succ_lt (haround p hp)).bind ?_
    rintro ⟨x, rest, hrest⟩ r ⟨l', y, t, hr, hbase, htree, hx, hroot, hstops⟩
    have hchain := levelRest_retraces (fun _ h => ihlevel h)
      (Nat.le_of_lt (Nat.lt_of_lt_of_le hrest h)) haround hr htree hx
      (fun p hp => Nat.le_succ_of_le (hroot p hp)) hstops
    rw [hbase] at hchain
    exact hchain.bind fun chain r hchain => .here hchain

/-- An expression is retraced, if those in fewer tokens are. -/
theorem expression_retraces {ts : List Token} (h : ts.length ≤ n) : Retraced o ts := by
  intro room opened
  unfold expression
  split
  · next ho => exact flat_retraces ih ho h room
  · next ho =>
    refine (level_retraces ih ho 5 h (.fresh room) [] opened
      ⟨rfl, Level.tree_fresh .byBinding room⟩ rfl (List.forall_mem_nil _)).imp ?_
    rintro x rest r ⟨l, y, t, hr, hbase, htree, hx, -, hstops⟩
    exact ⟨l, y, hr, hbase, Level.close_eq (by rw [ho, htree]; exact hx), hstops⟩

end

end Descent

/-! ## Whole formulas -/

/-- **A reader reads as the descent does.** -/
theorem retraced (o : Options) (ts : List Token) : Retraced o ts :=
  Descent.expression_retraces (fun ts' _ => retraced o ts') (Nat.le_refl ts.length)
termination_by ts.length

/-- **Reading by descent comes to what a reader comes to.** -/
theorem Expr.ofTokens_eq_read {o : Options} {ts : List Token} (h : ts ≠ []) :
    Expr.ofTokens o ts = (Reader.start o).read o ts := by
  have hread : (Reader.start o).Retraces o ts (Reader.HasChain o o.maxNesting [])
    (Descent.expression o o.maxNesting ts) := retraced o ts o.maxNesting []
  rw [Expr.ofTokens, if_neg (by simpa using h)]
  cases hx : Descent.expression o o.maxNesting ts with
  | error error =>
    rw [hx] at hread
    exact hread.symm
  | ok p =>
    rw [hx] at hread
    obtain ⟨x, rest, hrest⟩ := p
    obtain ⟨front, r, hts, hfront, l, y, hr, -, rfl, hstops⟩ := hread
    have hrest' : (Reader.start o).read o ts = r.read o rest := hts ▸ Reader.read_append hfront
    rw [hrest']
    cases rest with
    | nil => exact hr.finish.symm
    | cons t rest =>
      have hstep : Reader.step o ⟨.operator y, l, []⟩ t =
        Reader.operatorStep o ⟨.operator y, l, []⟩ y t := rfl
      rw [Reader.operatorStep, hstops.binary?_eq_none] at hstep
      rw [Reader.read_cons, hr.step t rfl, hstep]
      rfl

/-- The expression that tokens spell, by the steps of a reader. -/
theorem Expr.ofTokens_eq (o : Options) (ts : List Token) :
    Expr.ofTokens o ts = if ts.isEmpty then .ok (.text "")
      else ts.foldlM (·.step o) (Reader.start o) >>= fun r => r.finish o := by
  cases ts with
  | nil => rfl
  | cons t ts => exact Expr.ofTokens_eq_read (List.cons_ne_nil t ts)

end Spreadsheet
