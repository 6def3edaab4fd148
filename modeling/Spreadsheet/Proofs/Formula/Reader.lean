import Spreadsheet.Formula.Reading
import Spreadsheet.Proofs.Formula.Trees

/-!
# A reader

The descent by which expressions are read keeps what it has not finished in the calls that are under
way. A reader keeps it in data: it takes one token after the other (`Reader.step`) and holds the
chain of operands it is in, and the chains around it, one for each parenthesis and each call that is
open. An operand that is finished goes to the chain, and a chain that is finished is grouped and
becomes an operand of the one around it. Every chain knows how much deeper it may nest
(`Level.room`): a parenthesis, a call and, where operators bind, the right operand of a power take
one level each. The descent comes to the same (`Expr.ofTokens_eq_read`), and steps are easier to
compare.
-/

namespace Spreadsheet

open Token

/-- A chain under way. -/
structure Level where
  /-- The operands before the one that is read, each with the operator after it, the last first. -/
  before : List (Expr × Operator) := []
  /-- Whether the signs so far in front of the operand negate it. -/
  negated : Bool := false
  /-- How much deeper the chain may nest. -/
  base : Nat
  /-- How much deeper the operand may nest, which stands inside the powers just before it. -/
  room : Nat
  deriving Repr

/-- What has been opened and not yet closed. -/
inductive Opening where
  | group
  /-- A call, with the arguments it has so far, the last first. -/
  | call (name : String) (args : List Expr)
  deriving Repr

/-- What may come next. -/
inductive Expecting where
  /-- An operand, perhaps after signs. -/
  | operand
  /-- An argument, or the end of the arguments. -/
  | argument
  /-- What shows whether a word is a call, a corner of a range or an operand. -/
  | afterWord (word : String)
  /-- The other corner of a range. -/
  | corner (word : String) (start : Coord)
  /-- An operator, or the end of the chain that ends with this operand. -/
  | operator (x : Expr)
  deriving Repr

/-- A reader between two tokens. -/
structure Reader where
  expecting : Expecting
  level : Level
  /-- What is open, the innermost first, with the chain it stands in. -/
  opened : List (Opening × Level)
  deriving Repr

/-- A fresh chain that may nest so deep. -/
def Level.fresh (room : Nat) : Level :=
  { base := room, room }

/-- An operand with its signs. -/
def Level.signed (l : Level) (x : Expr) : Expr :=
  if l.negated then x.negated else x

/-- The expression of a chain that ends with this operand. -/
def Level.close (o : Options) (l : Level) (x : Expr) : Expr :=
  ((Chain.ofBefore x [] l.before).tree o.grouping).toExpr

/-- The chain with one more operand and the operator after it. -/
def Level.push (o : Options) (l : Level) (x : Expr) (op : Operator) : Except FormulaError Level :=
  let before := (x, op) :: l.before
  if o.grouping = .byBinding ∧ op = .power then
    match l.room with
    | 0 => .error (.nestedTooDeep o.maxNesting)
    | room + 1 => .ok { l with before, room, negated := false }
  else .ok { l with before, room := l.base, negated := false }

namespace Reader

/-- The reader before the first token. -/
def start (o : Options) : Reader :=
  ⟨.operand, .fresh o.maxNesting, []⟩

/-- The operand has been read. -/
def complete (r : Reader) (x : Expr) : Reader :=
  { r with expecting := .operator (r.level.signed x) }

/-- Opens a parenthesis or a call. -/
def enter (o : Options) (r : Reader) (opening : Opening) (expecting : Expecting) :
    Except FormulaError Reader :=
  match r.level.room with
  | 0 => .error (.nestedTooDeep o.maxNesting)
  | room + 1 => .ok ⟨expecting, .fresh room, (opening, r.level) :: r.opened⟩

/-- A token where an operand is wanted. -/
def operandStep (o : Options) (r : Reader) (t : Token) : Except FormulaError Reader :=
  match t.kind with
  | .text => .ok (r.complete (.text t.unquoted))
  | .word => .ok { r with expecting := .afterWord t.text }
  | .operator =>
    if t.text = "-" then
      .ok { r with expecting := .operand, level := { r.level with negated := !r.level.negated } }
    else if t.text = "+" then .ok { r with expecting := .operand }
    else if t.text = "(" then r.enter o .group .operand
    else .error (.badSyntax (.unexpected t.text))

/-- A token where an argument may begin or the arguments end. Slots without an argument are passed
over. -/
def argumentStep (o : Options) (r : Reader) (t : Token) : Except FormulaError Reader :=
  if t.isOperator "," then .ok r
  else match r.opened with
    | (.call name args, outer) :: opened =>
      if t.isOperator ")" then
        .ok (complete ⟨.operand, outer, opened⟩ (.call name args.reverse))
      else r.operandStep o t
    | _ => r.operandStep o t

/-- A token after an operand. -/
def operatorStep (o : Options) (r : Reader) (x : Expr) (t : Token) : Except FormulaError Reader :=
  match t.binary? with
  | some op => do return { r with expecting := .operand, level := ← r.level.push o x op }
  | none =>
    match r.opened with
    | [] => .error (.badSyntax (.trailing t.text))
    | (.group, outer) :: opened =>
      if t.isOperator ")" then .ok (complete ⟨.operand, outer, opened⟩ (r.level.close o x))
      else .error (.badSyntax (.unclosed t.text))
    | (.call name args, outer) :: opened =>
      let args := r.level.close o x :: args
      if t.isOperator ")" then
        .ok (complete ⟨.operand, outer, opened⟩ (.call name args.reverse))
      else if t.isOperator "," then
        .ok ⟨.argument, .fresh r.level.base, (.call name args, outer) :: opened⟩
      else .error (.badSyntax (.badArgument t.text))

/-- A token after a word. -/
def wordStep (o : Options) (r : Reader) (word : String) (t : Token) :
    Except FormulaError Reader := do
  if t.isOperator "(" then r.enter o (.call (Text.upper word) []) .argument
  else
    let x ← Expr.ofWord word
    match x, t.isOperator ":" with
    | .cell start, true => return { r with expecting := .corner word start }
    | x, _ => operatorStep o r (r.level.signed x) t

/-- A token where the other corner of a range is wanted. -/
def cornerStep (r : Reader) (word : String) (start : Coord) (t : Token) :
    Except FormulaError Reader := do
  if t.kind = .word ∧ Coord.isAddressShaped t.text then
    return r.complete (.range (.ofCorners start (← readAddress t.text)))
  else .error (.badReference (.openRange word))

/-- Reads one token. -/
def step (o : Options) (r : Reader) (t : Token) : Except FormulaError Reader :=
  match r.expecting with
  | .operand => r.operandStep o t
  | .argument => r.argumentStep o t
  | .afterWord word => r.wordStep o word t
  | .corner word start => r.cornerStep word start t
  | .operator x => r.operatorStep o x t

/-- The end of the tokens after an operand. -/
def finishOperand (o : Options) (r : Reader) (x : Expr) : Except FormulaError Expr :=
  match r.opened with
  | [] => .ok (r.level.close o x)
  | (.group, _) :: _ => .error (.badSyntax .unclosedAtEnd)
  | (.call .., _) :: _ => .error (.badSyntax .argumentsAtEnd)

/-- The end of the tokens. -/
def finish (o : Options) (r : Reader) : Except FormulaError Expr :=
  match r.expecting with
  | .operand => .error (.badSyntax .unexpectedEnd)
  | .argument => .error (.badSyntax .argumentsAtEnd)
  | .afterWord word => do r.finishOperand o (r.level.signed (← Expr.ofWord word))
  | .corner word _ => .error (.badReference (.openRange word))
  | .operator x => r.finishOperand o x

end Reader

/-! ## Tokens one after the other -/

namespace Token

/-- A token is a binary operator if its text is one. -/
theorem binary?_eq_some_iff {t : Token} {op : Operator} :
    t.binary? = some op ↔ t.kind = .operator ∧ Operator.ofText? t.text = some op := by
  simp [binary?]

/-- A token is the operator of a name if its text is the name. -/
theorem isOperator_iff {t : Token} {name : String} :
    t.isOperator name = true ↔ t.kind = .operator ∧ t.text = name := by
  simp [isOperator]

/-- A token is one operator only. -/
theorem isOperator_of_isOperator {t : Token} {name : String} (h : t.isOperator name = true)
    (other : String) : t.isOperator other = (name == other) := by
  obtain ⟨hkind, htext⟩ := isOperator_iff.1 h
  rw [isOperator, hkind, htext]
  rfl

/-- What is no operator is none of any name. -/
theorem isOperator_of_kind {t : Token} (h : t.kind ≠ .operator) (name : String) :
    t.isOperator name = false :=
  Bool.eq_false_iff.2 fun hname => h (isOperator_iff.1 hname).1

end Token

section
variable {o : Options}

/-- Reading goes on after the first token. -/
theorem foldlM_of_step {r r' : Reader} {t : Token} {ts : List Token} (h : r.step o t = .ok r') :
    (t :: ts).foldlM (·.step o) r = ts.foldlM (·.step o) r' := by
  rw [List.foldlM_cons, h]
  rfl

/-- Reading goes on after the first tokens. -/
theorem foldlM_of_append {r r' : Reader} {ts ts' : List Token}
    (h : ts.foldlM (·.step o) r = .ok r') :
    (ts ++ ts').foldlM (·.step o) r = ts'.foldlM (·.step o) r' := by
  rw [List.foldlM_append, h]
  rfl

/-- What a reader makes of the tokens that are left. -/
def Reader.read (o : Options) (r : Reader) (ts : List Token) : Except FormulaError Expr := do
  (← ts.foldlM (·.step o) r).finish o

theorem Reader.read_nil (r : Reader) : r.read o [] = r.finish o := rfl

/-- Reading goes on after the first token, if there is no error. -/
theorem Reader.read_cons (r : Reader) (t : Token) (ts : List Token) :
    r.read o (t :: ts) = r.step o t >>= fun r' => r'.read o ts := by
  rw [Reader.read, List.foldlM_cons]
  cases r.step o t <;> rfl

/-- Reading goes on after the first tokens to the end. -/
theorem Reader.read_append {r r' : Reader} {ts ts' : List Token}
    (h : ts.foldlM (·.step o) r = .ok r') : r.read o (ts ++ ts') = r'.read o ts' := by
  rw [Reader.read, foldlM_of_append h]
  rfl

namespace Reader

variable {l : Level} {opened : List (Opening × Level)}

/-- A token that is no operator, after what stands in a parenthesis. -/
theorem step_operator_group {t : Token} (h : t.binary? = none) (inner : Level) (x : Expr) :
    step o ⟨.operator x, inner, (.group, l) :: opened⟩ t =
      if t.isOperator ")" then .ok (complete ⟨.operand, l, opened⟩ (inner.close o x))
      else .error (.badSyntax (.unclosed t.text)) := by
  change operatorStep o _ x t = _
  rw [operatorStep, h]

/-- A token that is no operator, after an argument. -/
theorem step_operator_call {t : Token} (h : t.binary? = none) (inner : Level) (x : Expr)
    (name : String) (args : List Expr) :
    step o ⟨.operator x, inner, (.call name args, l) :: opened⟩ t =
      if t.isOperator ")" then
        .ok (complete ⟨.operand, l, opened⟩ (.call name (inner.close o x :: args).reverse))
      else if t.isOperator "," then .ok ⟨.argument, .fresh inner.base,
        (.call name (inner.close o x :: args), l) :: opened⟩
      else .error (.badSyntax (.badArgument t.text)) := by
  change operatorStep o _ x t = _
  rw [operatorStep, h]

/-- A token where an argument may begin. -/
theorem step_argument_call (t : Token) (inner : Level) (name : String) (args : List Expr) :
    step o ⟨.argument, inner, (.call name args, l) :: opened⟩ t =
      if t.isOperator ")" then
        .ok (complete ⟨.operand, l, opened⟩ (.call name args.reverse))
      else if t.isOperator "," then .ok ⟨.argument, inner, (.call name args, l) :: opened⟩
      else step o ⟨.operand, inner, (.call name args, l) :: opened⟩ t := by
  change argumentStep o _ t = _
  rw [argumentStep]
  cases hclose : t.isOperator ")" with
  | true =>
    rw [Token.isOperator_of_isOperator hclose ","]
    rfl
  | false => cases t.isOperator "," <;> rfl

/-- An operator after an operand. -/
theorem step_operator_binary {t : Token} {op : Operator} (h : t.binary? = some op) (l : Level)
    (y : Expr) :
    step o ⟨.operator y, l, opened⟩ t =
      (l.push o y op).map fun l => ⟨.operand, l, opened⟩ := by
  change operatorStep o _ y t = _
  rw [operatorStep, h]
  dsimp only
  cases l.push o y op <;> rfl

/-- An operator that takes no level of nesting, after an operand. -/
theorem step_operator_binary_of_ne {t : Token} {op : Operator} (h : t.binary? = some op)
    (hop : ¬(o.grouping = .byBinding ∧ op = .power)) (l : Level) (y : Expr) :
    step o ⟨.operator y, l, opened⟩ t = .ok ⟨.operand,
      { l with before := (y, op) :: l.before, room := l.base, negated := false }, opened⟩ := by
  rw [step_operator_binary h, Level.push, if_neg hop]
  rfl

end Reader

/-- An operand alone in its chain is what the chain closes to. -/
theorem Level.close_of_nil {l : Level} (h : l.before = []) (y : Expr) :
    l.close o y = y := by
  rw [Level.close, h]
  cases o.grouping <;> rfl

variable {l : Level} {opened : List (Opening × Level)}

/-! ## After an operand -/

/-- A reader that stands after an operand. It may have read the operand as a word only, to which a
parenthesis or a colon could still belong. -/
structure Reader.After (o : Options) (r : Reader) (y : Expr) : Prop where
  step : ∀ t : Token, t.isOperator "(" = false → t.isOperator ":" = false →
    r.step o t = r.operatorStep o y t
  finish : r.finish o = r.finishOperand o y

/-- A reader that expects an operator stands after an operand. -/
theorem Reader.after_operator (y : Expr) : (⟨.operator y, l, opened⟩ : Reader).After o y :=
  ⟨fun _ _ _ => rfl, rfl⟩

/-- A reader after a word stands after the operand that the word spells. -/
theorem Reader.after_word {w : String} {x : Expr} (h : Expr.ofWord w = .ok x) :
    (⟨.afterWord w, l, opened⟩ : Reader).After o (l.signed x) where
  step := fun t hopen hcolon => by
    change Reader.wordStep o _ w t = _
    rw [Reader.wordStep, hopen, h]
    cases x <;> simp only [hcolon] <;> rfl
  finish := by
    change (Expr.ofWord w >>= fun x => Reader.finishOperand o _ (l.signed x)) = _
    rw [h]
    rfl

end

end Spreadsheet
