import Spreadsheet.Proofs.Formula.Steps

/-!
# What expressions inherit from words

A property of expressions is `Expr.Inherited` if it holds of the operands that tokens stand for and
is passed on by everything that expressions are put together with. Such a property holds of all
expressions that are read (`Expr.Inherited.ofFormula`): it is a likeness that says the same of both
expressions, and reading keeps it.
-/

namespace Spreadsheet

variable {P : Expr → Prop} {o : Options}

/-- A property of expressions that comes from their words. -/
structure Expr.Inherited (P : Expr → Prop) : Prop where
  word : ∀ {w : String} {x : Expr}, Expr.ofWord w = .ok x → P x
  text : ∀ s : String, P (.text s)
  range : ∀ r : Range, P (.range r)
  negated : ∀ {x : Expr}, P x → P x.negated
  binary : ∀ (op : Operator) {x y : Expr}, P x → P y → P (.binary op x y)
  call : ∀ (name : String) {args : List Expr}, (∀ x ∈ args, P x) → P (.call name args)

/-- Having an inherited property, as a likeness. -/
def Expr.Inherited.likeness (h : Expr.Inherited P) : Likeness where
  Alike x _ := P x
  Args args _ := ∀ x ∈ args, P x
  word := h.word
  text := h.text
  range := h.range
  negated := h.negated
  nil := List.forall_mem_nil P
  cons hx hargs := List.forall_mem_cons.2 ⟨hx, hargs⟩
  call name _ _ hargs := h.call name fun x hx => hargs x (List.mem_reverse.1 hx)

/-- **Expressions inherit from their words.** -/
theorem Expr.Inherited.ofTokens (h : Expr.Inherited P) {tokens : List Token} {x : Expr}
    (hx : Expr.ofTokens o tokens = .ok x) : P x :=
  (Expr.ofTokens_paired h.likeness o (fun op => h.binary op) tokens).related hx hx

theorem Expr.Inherited.ofFormula (h : Expr.Inherited P) {text : String} {x : Expr}
    (hx : Expr.ofFormula o text = .ok x) : P x :=
  h.ofTokens hx

end Spreadsheet
