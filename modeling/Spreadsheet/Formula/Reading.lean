import Spreadsheet.Formula.Error
import Spreadsheet.Formula.Expr
import Spreadsheet.Formula.Options
import Spreadsheet.Formula.Token
import Spreadsheet.Text.Case

/-!
# Reading expressions

An expression is read by recursive descent: each kind of phrase has a function of its own, which
reads from the front of the tokens and hands the rest back (`Phrase`). A chain of operands is read
in one of two ways. From left to right it is one loop that joins each operand to what it has
(`flat`). Where operators bind, there is a loop for each level of binding (`level`), which reads its
operands by the loop of the next tighter level and stops at any operator that is not its own, to
leave it to the loops around it. A parenthesis, a call and, where operators bind, the right operand
of a power take one level of nesting each (`enter`).
-/

namespace Spreadsheet

open Token

/-! ## Words -/

/-- The cell that a word names which looks like an address. -/
def readAddress (word : String) : Except FormulaError Coord :=
  (Coord.parse word).mapError fun cause => .badReference (.badAddress word cause)

/-- Whether two words are the same but for the case of ASCII letters. -/
def sameWord (a b : String) : Bool :=
  a.toList.map Char.toLower == b.toList.map Char.toLower

/-- Whether a word may be a number: it begins with a digit or a point. -/
def beginsNumeral (word : String) : Bool :=
  match word.toList.head? with
  | some c => Text.isDigit c || c == '.'
  | none => false

/-- The number a word stands for. -/
def wordNumber? (word : String) : Option Float :=
  if beginsNumeral word then Number.ofNumeral? word.toList else none

/-- The operand that a word stands for when nothing belongs to it that comes after. -/
def Expr.ofWord (word : String) : Except FormulaError Expr :=
  if Coord.isAddressShaped word then .cell <$> readAddress word
  else match wordNumber? word with
    | some n => .ok (.number n)
    | none =>
      if sameWord word "TRUE" then .ok (.number 1)
      else if sameWord word "FALSE" then .ok (.number 0)
      else .ok (.bare word)

/-- The binary operator that a token is. -/
def Token.binary? (t : Token) : Option Operator :=
  if t.kind = .operator then Operator.ofText? t.text else none

/-! ## Phrases -/

/-- What has been read, with the rest of the tokens, which are fewer than so many. -/
structure Phrase (α : Type) (count : Nat) where
  value : α
  rest : List Token
  shorter : rest.length < count

namespace Phrase

variable {α β : Type} {m n : Nat}

/-- What has been read where more tokens are allowed to be left. -/
def within (p : Phrase α m) (h : m ≤ n) : Phrase α n :=
  ⟨p.value, p.rest, Nat.lt_of_lt_of_le p.shorter h⟩

/-- Something made of what has been read. -/
def map (f : α → β) (p : Phrase α m) : Phrase β m :=
  ⟨f p.value, p.rest, p.shorter⟩

end Phrase

namespace Descent

/-- Reads one level of nesting deeper, if there is room for it. -/
def enter {α : Type} (o : Options) (room : Nat) (inner : Nat → Except FormulaError α) :
    Except FormulaError α :=
  match room with
  | 0 => .error (.nestedTooDeep o.maxNesting)
  | room + 1 => inner room

/-- Takes the closing parenthesis after what has been read. -/
def closing {α : Type} {n : Nat} (p : Phrase α n) : Except FormulaError (Phrase α n) :=
  match p with
  | ⟨_, [], _⟩ => .error (.badSyntax .unclosedAtEnd)
  | ⟨x, t :: rest, h⟩ =>
    if t.isOperator ")" then .ok ⟨x, rest, Nat.lt_of_succ_lt h⟩
    else .error (.badSyntax (.unclosed t.text))

/-- The range that begins with a cell, after the colon. -/
def corner (word : String) (start : Coord) (ts : List Token) :
    Except FormulaError (Phrase Expr (ts.length + 1)) :=
  match ts with
  | [] => .error (.badReference (.openRange word))
  | t :: rest =>
    if t.kind = .word ∧ Coord.isAddressShaped t.text then do
      return ⟨.range (.ofCorners start (← readAddress t.text)), rest,
        Nat.lt_succ_of_lt (Nat.lt_succ_self _)⟩
    else .error (.badReference (.openRange word))

/-- An operand with the sign in front of it. -/
def signed (negated : Bool) (x : Expr) : Expr :=
  if negated then x.negated else x

mutual

/-- Reads an expression. -/
def expression (o : Options) (room : Nat) (ts : List Token) :
    Except FormulaError (Phrase Expr ts.length) :=
  match o.grouping with
  | .leftToRight => flat o room ts
  | .byBinding => level o room 5 ts
termination_by 16 * ts.length + 12

/-- Reads a chain of operands from left to right. -/
def flat (o : Options) (room : Nat) (ts : List Token) :
    Except FormulaError (Phrase Expr ts.length) := do
  let x ← operand o room false ts
  have := x.shorter
  let chain ← flatRest o room x.value x.rest
  return chain.within this
termination_by 16 * ts.length + 11

/-- Reads on in a chain from left to right: each operand is joined to what there is. A comparison
ends the chain. -/
def flatRest (o : Options) (room : Nat) (x : Expr) (ts : List Token) :
    Except FormulaError (Phrase Expr (ts.length + 1)) :=
  match ts with
  | [] => .ok ⟨x, [], Nat.zero_lt_one⟩
  | t :: rest =>
    match t.binary? with
    | none => .ok ⟨x, t :: rest, Nat.lt_succ_self _⟩
    | some op => do
      let y ← operand o room false rest
      have := y.shorter
      let joined := Expr.binary op x y.value
      let chain ← if op.isComparison then dropped o room joined y.rest
        else flatRest o room joined y.rest
      return chain.within (Nat.le_succ_of_le (Nat.le_succ_of_le this))
termination_by 16 * ts.length

/-- Reads the operands after a comparison and drops them. -/
def dropped (o : Options) (room : Nat) (x : Expr) (ts : List Token) :
    Except FormulaError (Phrase Expr (ts.length + 1)) :=
  match ts with
  | [] => .ok ⟨x, [], Nat.zero_lt_one⟩
  | t :: rest =>
    match t.binary? with
    | none => .ok ⟨x, t :: rest, Nat.lt_succ_self _⟩
    | some _ => do
      let y ← operand o room false rest
      have := y.shorter
      let chain ← dropped o room x y.rest
      return chain.within (Nat.le_succ_of_le (Nat.le_succ_of_le this))
termination_by 16 * ts.length

/-- Reads a chain of the operators that bind most tightly, powers and so many levels more. -/
def level (o : Options) (room levels : Nat) (ts : List Token) :
    Except FormulaError (Phrase Expr ts.length) :=
  match levels with
  | 0 => power o room ts
  | levels + 1 => do
    let x ← level o room levels ts
    have := x.shorter
    let chain ← levelRest o room levels x.value x.rest
    return chain.within this
termination_by 16 * ts.length + levels + 4

/-- Reads on in a chain of operators of one level, whose operands are chains of so many levels that
bind more tightly. -/
def levelRest (o : Options) (room levels : Nat) (x : Expr) (ts : List Token) :
    Except FormulaError (Phrase Expr (ts.length + 1)) :=
  match ts with
  | [] => .ok ⟨x, [], Nat.zero_lt_one⟩
  | t :: rest =>
    match t.binary? with
    | none => .ok ⟨x, t :: rest, Nat.lt_succ_self _⟩
    | some op =>
      if op.binding + levels = 5 then do
        let y ← level o room levels rest
        have := y.shorter
        let chain ← levelRest o room levels (.binary op x y.value) y.rest
        return chain.within (Nat.le_succ_of_le (Nat.le_succ_of_le this))
      else .ok ⟨x, t :: rest, Nat.lt_succ_self _⟩
termination_by 16 * ts.length + levels + 5
decreasing_by
  all_goals
    simp only [List.length_cons]
    omega

/-- Reads a chain of powers, grouped from the right. -/
def power (o : Options) (room : Nat) (ts : List Token) :
    Except FormulaError (Phrase Expr ts.length) := do
  let x ← operand o room false ts
  match x with
  | ⟨x, [], h⟩ => return ⟨x, [], h⟩
  | ⟨x, t :: rest, h⟩ =>
    have hrest : rest.length < ts.length := Nat.lt_of_succ_lt h
    if t.binary? = some .power then enter o room fun room => do
      let y ← power o room rest
      return (y.map (.binary .power x)).within (Nat.le_of_lt hrest)
    else return ⟨x, t :: rest, h⟩
termination_by 16 * ts.length + 3

/-- Reads an operand with the signs in front of it, of which an even number is none. -/
def operand (o : Options) (room : Nat) (negated : Bool) (ts : List Token) :
    Except FormulaError (Phrase Expr ts.length) :=
  match ts with
  | [] => .error (.badSyntax .unexpectedEnd)
  | t :: rest =>
    if t.isOperator "-" then
      (·.within (Nat.le_succ _)) <$> operand o room (!negated) rest
    else if t.isOperator "+" then (·.within (Nat.le_succ _)) <$> operand o room negated rest
    else (·.map (signed negated)) <$> primary o room (t :: rest)
termination_by 16 * ts.length + 2

/-- Reads an operand without signs. -/
def primary (o : Options) (room : Nat) (ts : List Token) :
    Except FormulaError (Phrase Expr ts.length) :=
  match ts with
  | [] => .error (.badSyntax .unexpectedEnd)
  | t :: rest =>
    match t.kind with
    | .text => .ok ⟨.text t.unquoted, rest, Nat.lt_succ_self _⟩
    | .word => word o room t.text rest
    | .operator =>
      if t.text = "(" then enter o room fun room => do
        let x ← expression o room rest
        closing (x.within (Nat.le_succ _))
      else .error (.badSyntax (.unexpected t.text))
termination_by 16 * ts.length + 1

/-- Reads what begins with a word: a call, a range, or the word alone. -/
def word (o : Options) (room : Nat) (w : String) (ts : List Token) :
    Except FormulaError (Phrase Expr (ts.length + 1)) :=
  match ts with
  | [] => do return ⟨← Expr.ofWord w, [], Nat.zero_lt_one⟩
  | t :: rest =>
    if t.isOperator "(" then enter o room fun room => do
      let args ← arguments o room [] rest
      return (args.map (.call (Text.upper w))).within (Nat.le_succ _)
    else do
      match ← Expr.ofWord w, t.isOperator ":" with
      | .cell start, true => (·.within (Nat.le_succ _)) <$> corner w start rest
      | x, _ => return ⟨x, t :: rest, Nat.lt_succ_self _⟩
termination_by 16 * ts.length

/-- Reads arguments up to the end of the call. Slots without an argument are passed over. -/
def arguments (o : Options) (room : Nat) (args : List Expr) (ts : List Token) :
    Except FormulaError (Phrase (List Expr) (ts.length + 1)) :=
  match ts with
  | [] => .error (.badSyntax .argumentsAtEnd)
  | t :: rest =>
    if t.isOperator ")" then .ok ⟨args.reverse, rest, Nat.lt_succ_of_lt (Nat.lt_succ_self _)⟩
    else if t.isOperator "," then (·.within (Nat.le_succ _)) <$> arguments o room args rest
    else do
      let x ← expression o room (t :: rest)
      match x with
      | ⟨_, [], _⟩ => .error (.badSyntax .argumentsAtEnd)
      | ⟨x, u :: after, h⟩ =>
        have : after.length < rest.length := Nat.lt_of_succ_lt_succ h
        if u.isOperator "," ∨ u.isOperator ")" then
          (·.within (Nat.le_succ_of_le h)) <$> arguments o room (x :: args) (u :: after)
        else .error (.badSyntax (.badArgument u.text))
termination_by 16 * ts.length + 13

end

end Descent

/-- The expression that tokens spell. No tokens spell empty text. -/
def Expr.ofTokens (o : Options) (tokens : List Token) : Except FormulaError Expr :=
  if tokens.isEmpty then .ok (.text "")
  else do
    let x ← Descent.expression o o.maxNesting tokens
    match x.rest with
    | [] => return x.value
    | t :: _ => throw (.badSyntax (.trailing t.text))

/-- The text of a formula after the `=` it may begin with. -/
def formulaBody (s : String) : String :=
  match s.toList with
  | '=' :: body => String.ofList body
  | _ => s

/-- The expression of a formula. -/
def Expr.ofFormula (o : Options) (s : String) : Except FormulaError Expr :=
  Expr.ofTokens o (tokenize (formulaBody s))

end Spreadsheet
