import Spreadsheet.Formula.Reading
import Spreadsheet.Proofs.Grid.Address

/-!
# Printing expressions

An expression is printed with parentheses around the operands of every operator and every negation
(`Expr.print`), so that nothing is left to the grouping of chains. How a number is written is open:
`Expr.Printable` only wants its numeral to be read back, as well as words that mean nothing but
what they are printed for.

`Token.depth` tells how deep the parentheses of some tokens go. Where operators bind, the
parenthesis after a power counts twice, for the right operand of a power takes a level of its own.
-/

namespace Spreadsheet

/-! ## Tokens -/

/-- How an operator is printed. -/
def Operator.text : Operator → String
  | .add => "+"
  | .subtract => "-"
  | .multiply => "*"
  | .divide => "/"
  | .modulo => "%"
  | .power => "^"
  | .concat => "&"
  | .equal => "="
  | .notEqual => "<>"
  | .less => "<"
  | .lessEqual => "<="
  | .greater => ">"
  | .greaterEqual => ">="
  | .and => "&&"
  | .or => "||"

@[simp] theorem Operator.ofText?_text (op : Operator) : ofText? op.text = some op := by
  cases op <;> rfl

namespace Token

/-- An operator or a mark of punctuation. -/
def mark (s : String) : Token := ⟨.operator, s⟩

/-- A word. -/
def word (s : String) : Token := ⟨.word, s⟩

/-- Text between double quotes. -/
def quoted (s : String) : Token := ⟨.text, String.ofList ('"' :: (s.toList ++ ['"']))⟩

/-- Tokens between parentheses. -/
def grouped (ts : List Token) : List Token :=
  mark "(" :: (ts ++ [mark ")"])

end Token

open Token

/-! ## Expressions -/

/-- Whether a number is written with a minus sign: its sign bit is set. -/
def Number.isNegative (n : Float) : Bool :=
  Nat.pow 2 63 ≤ n.toBits.toNat

section
variable (numeral : Float → String)

mutual

/-- The tokens of an expression, given the numeral of each number without its sign. -/
def Expr.print : Expr → List Token
  | .number n =>
    if Number.isNegative n then [mark "-", word (numeral n)] else [word (numeral n)]
  | .text s => [quoted s]
  | .bare s => [word s]
  | .cell c => [word c.toText]
  | .range r => [word r.topLeft.toText, mark ":", word r.bottomRight.toText]
  | .binary op l r => grouped l.print ++ mark op.text :: grouped r.print
  | .negate x => mark "-" :: grouped x.print
  | .call name args => word name :: grouped (Expr.printArguments args)

/-- The tokens of arguments, with commas between them. -/
def Expr.printArguments : List Expr → List Token
  | [] => []
  | [x] => x.print
  | x :: y :: args => x.print ++ mark "," :: Expr.printArguments (y :: args)

end

mutual

/-- Whether an expression is read back from its tokens, as far as its words go: numerals are read
back, cells lie in the grid, functions are named in upper case, and no bare word is an address, a
numeral or a truth value. A minus sign in front of a number belongs to the number. -/
def Expr.Printable : Expr → Prop
  | .number n => (wordNumber? (numeral n)).map (Number.signed (Number.isNegative n)) = some n
  | .text _ => True
  | .bare s => Coord.isAddressShaped s = false ∧ wordNumber? s = none ∧
      sameWord s "TRUE" = false ∧ sameWord s "FALSE" = false
  | .cell c => c.InGrid
  | .range r => r.topLeft.InGrid ∧ r.bottomRight.InGrid
  | .binary _ l r => l.Printable ∧ r.Printable
  | .negate x => (∀ n, x ≠ .number n) ∧ x.Printable
  | .call name args => Text.upper name = name ∧ Expr.ArgumentsPrintable args

/-- Whether arguments are read back from their tokens. -/
def Expr.ArgumentsPrintable : List Expr → Prop
  | [] => True
  | x :: args => x.Printable ∧ Expr.ArgumentsPrintable args

end

end

/-! ## Depth of parentheses -/

/-- The levels that a parenthesis takes, after a power or not. -/
def Grouping.levels (grouping : Grouping) (afterPower : Bool) : Nat :=
  if grouping = .byBinding ∧ afterPower = true then 2 else 1

/-- The greatest level that some tokens reach from a level inside of others. -/
def Token.depthFrom (grouping : Grouping) (outer : List Nat) (level : Nat) (afterPower : Bool) :
    List Token → Nat
  | [] => level
  | t :: ts =>
    if t.isOperator "(" then
      depthFrom grouping (level :: outer) (level + grouping.levels afterPower) false ts
    else if t.isOperator ")" then
      max level (depthFrom grouping outer.tail (outer.headD level) false ts)
    else depthFrom grouping outer level (t.isOperator "^") ts

/-- How deep the parentheses of some tokens go. -/
def Token.depth (grouping : Grouping) (ts : List Token) : Nat :=
  depthFrom grouping [] 0 false ts

section
variable (grouping : Grouping)

mutual

/-- How deep the parentheses go that an expression is printed with. -/
def Expr.nesting : Expr → Nat
  | .number _ | .text _ | .bare _ | .cell _ | .range _ => 0
  | .binary op l r => max (1 + l.nesting) (grouping.levels (op == .power) + r.nesting)
  | .negate x => 1 + x.nesting
  | .call _ args => 1 + Expr.argumentsNesting args

/-- How deep the parentheses go that arguments are printed with. -/
def Expr.argumentsNesting : List Expr → Nat
  | [] => 0
  | x :: args => max x.nesting (Expr.argumentsNesting args)

end

end

namespace Token

variable {grouping : Grouping} {outer : List Nat} {level : Nat} {afterPower : Bool}
  {ts : List Token}

theorem le_depthFrom (ts : List Token) :
    level ≤ depthFrom grouping outer level afterPower ts := by
  induction ts generalizing outer level afterPower with
  | nil => exact Nat.le_refl level
  | cons t ts ih =>
    rw [depthFrom]
    split
    · exact Nat.le_trans (Nat.le_add_right ..) ih
    · split
      · exact Nat.le_max_left ..
      · exact ih

/-- A pair of parentheses leads as deep as what is between them. -/
theorem depthFrom_grouped {inner rest : List Token} {n : Nat}
    (h : ∀ outer level rest, depthFrom grouping outer level false (inner ++ rest) =
      max (level + n) (depthFrom grouping outer level false rest)) :
    depthFrom grouping outer level afterPower (grouped inner ++ rest) =
      max (level + (grouping.levels afterPower + n))
        (depthFrom grouping outer level false rest) := by
  have hclose : depthFrom grouping (level :: outer) (level + grouping.levels afterPower) false
      (mark ")" :: rest) = max (level + grouping.levels afterPower)
        (depthFrom grouping outer level false rest) := rfl
  have hopen : depthFrom grouping outer level afterPower (grouped inner ++ rest) =
      depthFrom grouping (level :: outer) (level + grouping.levels afterPower) false
        (inner ++ mark ")" :: rest) := by
    rw [grouped, List.cons_append, List.append_assoc]
    rfl
  rw [hopen, h, hclose]
  omega

end Token

section
variable {grouping : Grouping} {numeral : Float → String}

mutual

/-- The tokens of an expression lead as deep as it nests, whatever follows them. -/
theorem Expr.depthFrom_print : (x : Expr) → ∀ outer level rest,
    depthFrom grouping outer level false (x.print numeral ++ rest) =
      max (level + x.nesting grouping) (depthFrom grouping outer level false rest)
  | .number n, outer, level, rest => by
    have hle : level ≤ depthFrom grouping outer level false rest := le_depthFrom rest
    rw [Expr.nesting, Nat.add_zero, Nat.max_eq_right hle, Expr.print]
    split <;> rfl
  | .text s, outer, level, rest | .bare s, outer, level, rest | .cell c, outer, level, rest
  | .range r, outer, level, rest => by
    have hle : level ≤ depthFrom grouping outer level false rest := le_depthFrom rest
    rw [Expr.nesting, Nat.add_zero, Nat.max_eq_right hle, Expr.print]
    rfl
  | .binary op l r, outer, level, rest => by
    have hop : depthFrom grouping outer level false
        (mark op.text :: (grouped (r.print numeral) ++ rest)) =
        depthFrom grouping outer level (op == .power) (grouped (r.print numeral) ++ rest) := by
      cases op <;> rfl
    rw [Expr.print, List.append_assoc, List.cons_append, depthFrom_grouped l.depthFrom_print, hop,
      depthFrom_grouped r.depthFrom_print, Expr.nesting]
    have hlevels : grouping.levels false = 1 := by
      cases grouping <;> rfl
    rw [hlevels]
    omega
  | .negate x, outer, level, rest => by
    have hminus : depthFrom grouping outer level false
        (mark "-" :: (grouped (x.print numeral) ++ rest)) =
        depthFrom grouping outer level false (grouped (x.print numeral) ++ rest) := rfl
    rw [Expr.print, List.cons_append, hminus, depthFrom_grouped x.depthFrom_print, Expr.nesting]
    cases grouping <;> rfl
  | .call name args, outer, level, rest => by
    have hname : depthFrom grouping outer level false
        (word name :: (grouped (Expr.printArguments numeral args) ++ rest)) =
        depthFrom grouping outer level false
          (grouped (Expr.printArguments numeral args) ++ rest) := rfl
    rw [Expr.print, List.cons_append, hname,
      depthFrom_grouped (Expr.depthFrom_printArguments args), Expr.nesting]
    cases grouping <;> rfl

/-- The tokens of arguments lead as deep as they nest. -/
theorem Expr.depthFrom_printArguments : (args : List Expr) → ∀ outer level rest,
    depthFrom grouping outer level false (Expr.printArguments numeral args ++ rest) =
      max (level + Expr.argumentsNesting grouping args)
        (depthFrom grouping outer level false rest)
  | [], outer, level, rest => by
    have hle : level ≤ depthFrom grouping outer level false rest := le_depthFrom rest
    rw [Expr.printArguments, Expr.argumentsNesting, Nat.add_zero, Nat.max_eq_right hle]
    rfl
  | [x], outer, level, rest => by
    rw [Expr.printArguments, Expr.argumentsNesting, Expr.argumentsNesting, Nat.max_zero,
      x.depthFrom_print]
  | x :: y :: args, outer, level, rest => by
    have hcomma : depthFrom grouping outer level false
        (mark "," :: (Expr.printArguments numeral (y :: args) ++ rest)) =
        depthFrom grouping outer level false
          (Expr.printArguments numeral (y :: args) ++ rest) := rfl
    have hnesting : Expr.argumentsNesting grouping (x :: y :: args) =
        max (x.nesting grouping) (Expr.argumentsNesting grouping (y :: args)) := rfl
    rw [Expr.printArguments, List.append_assoc, List.cons_append, x.depthFrom_print, hcomma,
      Expr.depthFrom_printArguments (y :: args), hnesting]
    omega

end

/-- The parentheses that an expression is printed with go as deep as it nests. -/
theorem Expr.depth_print (x : Expr) :
    Token.depth grouping (x.print numeral) = x.nesting grouping := by
  have h := @Expr.depthFrom_print grouping numeral x [] 0 []
  rwa [List.append_nil, Nat.zero_add, depthFrom, Nat.max_zero] at h

end

end Spreadsheet
