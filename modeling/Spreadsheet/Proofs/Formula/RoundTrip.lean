import Spreadsheet.Proofs.Formula.Descent
import Spreadsheet.Proofs.Formula.Printing

/-!
# Reading undoes printing

`ReadsAs` says what becomes of tokens that spell one operand or one chain of operands: read in a
fresh chain, they leave a reader that closes to an expression. Parentheses around such tokens make
them an operand of any chain (`ReadsAs.grouped`), and commas between them make them arguments
(`ReadsArguments`), so the tokens of an expression spell it in either grouping
(`Expr.readsAs_print`, `Expr.ofTokens_print`).
-/

namespace Spreadsheet

open Token

section
variable {o : Options} {l : Level} {opened : List (Opening × Level)}

/-! ## Tokens -/

/-- A word where an operand is wanted. -/
theorem Reader.step_word (w : String) :
    Reader.step o ⟨.operand, l, opened⟩ (word w) = .ok ⟨.afterWord w, l, opened⟩ := rfl

/-- A minus sign where an operand is wanted. -/
theorem Reader.step_minus :
    Reader.step o ⟨.operand, l, opened⟩ (mark "-") =
      .ok ⟨.operand, { l with negated := !l.negated }, opened⟩ := rfl

@[simp] theorem Level.signed_fresh (room : Nat) (x : Expr) : (Level.fresh room).signed x = x := rfl

/-! ## The end of what is open -/

/-- A closing parenthesis after the last operand of a group. -/
theorem Reader.After.close_group {r : Reader} {y : Expr} (h : r.After o y)
    (hopened : r.opened = (.group, l) :: opened) :
    r.step o (mark ")") = .ok (complete ⟨.operand, l, opened⟩ (r.level.close o y)) := by
  obtain ⟨expecting, level, opened'⟩ := r
  cases hopened
  rw [h.step _ rfl rfl]
  rfl

/-- A closing parenthesis after the last operand of the last argument. -/
theorem Reader.After.close_call {r : Reader} {y : Expr} (h : r.After o y) {name : String}
    {args : List Expr} (hopened : r.opened = (.call name args, l) :: opened) :
    r.step o (mark ")") =
      .ok (complete ⟨.operand, l, opened⟩ (.call name (args.reverse ++ [r.level.close o y]))) := by
  obtain ⟨expecting, level, opened'⟩ := r
  cases hopened
  rw [h.step _ rfl rfl, ← List.reverse_cons]
  rfl

/-- A comma after the last operand of an argument. -/
theorem Reader.After.comma {r : Reader} {y : Expr} (h : r.After o y) {name : String}
    {args : List Expr} (hopened : r.opened = (.call name args, l) :: opened) :
    r.step o (mark ",") = .ok ⟨.argument, .fresh r.level.base,
      (.call name (r.level.close o y :: args), l) :: opened⟩ := by
  obtain ⟨expecting, level, opened'⟩ := r
  cases hopened
  rw [h.step _ rfl rfl]
  rfl

/-! ## Tokens that spell an expression -/

/-- Read in a fresh chain that may nest so deep, the tokens leave a reader in this chain that closes
to an expression. -/
def ReadsAs (o : Options) (room : Nat) (ts : List Token) (x : Expr) : Prop :=
  ∀ opened, ∃ r y, ts.foldlM (·.step o) (⟨.operand, .fresh room, opened⟩ : Reader) = .ok r ∧
    r.level.base = room ∧ r.opened = opened ∧ r.After o y ∧ r.level.close o y = x

/-- Tokens that leave an operand alone in its chain spell it. -/
theorem readsAs_of_operand {room : Nat} {ts : List Token} {x : Expr} (hbefore : l.before = [])
    (hbase : l.base = room)
    (h : ∀ opened, ts.foldlM (·.step o) (⟨.operand, .fresh room, opened⟩ : Reader) =
      .ok ⟨.operator x, l, opened⟩) : ReadsAs o room ts x := fun opened =>
  ⟨_, x, h opened, hbase, rfl, Reader.after_operator x, Level.close_of_nil hbefore x⟩

/-- Two operands in a chain close to the operation on them. -/
theorem Level.close_of_singleton {x : Expr} {op : Operator} (h : l.before = [(x, op)]) (y : Expr) :
    l.close o y = .binary op x y := by
  rw [Level.close, h]
  cases o.grouping with
  | leftToRight => cases op <;> rfl
  | byBinding => rfl

/-- Between parentheses, tokens that spell an expression are an operand. -/
theorem ReadsAs.grouped {room : Nat} {ts : List Token} {x : Expr} (h : ReadsAs o room ts x)
    (hroom : l.room = room + 1) (opened : List (Opening × Level)) :
    (grouped ts).foldlM (·.step o) (⟨.operand, l, opened⟩ : Reader) =
      .ok ⟨.operator (l.signed x), l, opened⟩ := by
  have henter : Reader.step o ⟨.operand, l, opened⟩ (mark "(") =
      .ok ⟨.operand, .fresh room, (.group, l) :: opened⟩ := by
    change Reader.enter o _ _ _ = _
    rw [Reader.enter, hroom]
  obtain ⟨r, y, hr, -, hopened, hafter, rfl⟩ := h ((.group, l) :: opened)
  rw [Token.grouped, foldlM_of_step henter, foldlM_of_append hr,
    foldlM_of_step (hafter.close_group hopened)]
  rfl

/-- Where an argument may begin, what begins an operand is read as one. -/
theorem Reader.step_argument {t : Token} (hcomma : t.isOperator "," = false)
    (hclose : t.isOperator ")" = false) :
    Reader.step o ⟨.argument, l, opened⟩ t = Reader.step o ⟨.operand, l, opened⟩ t := by
  have hoperand : Reader.operandStep o ⟨.argument, l, opened⟩ t =
      Reader.operandStep o ⟨.operand, l, opened⟩ t := rfl
  change Reader.argumentStep o _ t = Reader.operandStep o _ t
  rw [Reader.argumentStep, hcomma, ← hoperand]
  rcases opened with _ | ⟨⟨_ | _, _⟩, _⟩
  · rfl
  · rfl
  · simp only [hclose]
    rfl

/-! ## Words -/

/-- A word that is a number begins as a numeral does. -/
theorem beginsNumeral_of_wordNumber? {w : String} {n : Float} (h : wordNumber? w = some n) :
    beginsNumeral w = true := by
  unfold wordNumber? at h
  split at h
  · assumption
  · cases h

/-- A numeral has not the shape of an address: it begins with no letter. -/
theorem not_isAddressShaped_of_beginsNumeral {w : String} (h : beginsNumeral w = true) :
    Coord.isAddressShaped w = false := by
  unfold beginsNumeral at h
  unfold Coord.isAddressShaped Coord.splitAddress?
  cases hw : w.toList with
  | nil =>
    rw [hw] at h
    cases h
  | cons c cs =>
    rw [hw] at h
    have hletter : ¬ Text.isLetter c = true := by
      rcases Bool.or_eq_true _ _ ▸ h with h | h
      · rw [Text.not_isLetter_of_isDigit h]
        decide
      · rw [eq_of_beq h]
        decide
    rw [List.takeWhile_cons_of_neg hletter]
    rfl

/-- A word that is a number spells it, as it has not the shape of an address. -/
theorem Expr.ofWord_of_number {w : String} {n : Float} (h : wordNumber? w = some n) :
    Expr.ofWord w = .ok (.number n) := by
  rw [Expr.ofWord,
    not_isAddressShaped_of_beginsNumeral (beginsNumeral_of_wordNumber? h), h]
  rfl

/-- The text of a cell of the grid is read as the cell. -/
theorem readAddress_toText {c : Coord} (h : c.InGrid) : readAddress c.toText = .ok c := by
  rw [readAddress, Coord.parse_toText h]
  rfl

/-- The text of a cell of the grid spells the cell. -/
theorem Expr.ofWord_toText {c : Coord} (h : c.InGrid) : Expr.ofWord c.toText = .ok (.cell c) := by
  rw [Expr.ofWord, c.isAddressShaped_toText, readAddress_toText h]
  rfl

/-- Quoted text is the text without its quotes. -/
theorem Token.unquoted_quoted (s : String) : (quoted s).unquoted = s := by
  simp [unquoted, quoted, unquoteChars]

/-! ## Expressions -/

/-- A word that spells an operand is read as it. -/
theorem readsAs_word {w : String} {x : Expr} {room : Nat} (h : Expr.ofWord w = .ok x) :
    ReadsAs o room [word w] x := fun _ =>
  ⟨_, x, rfl, rfl, rfl, Reader.after_word (l := .fresh room) h, Level.close_of_nil rfl x⟩

/-- Quoted text is read as the text. -/
theorem readsAs_quoted {room : Nat} (s : String) : ReadsAs o room [quoted s] (.text s) := by
  refine readsAs_of_operand (l := .fresh room) rfl rfl fun opened => ?_
  have hquoted : Reader.step o ⟨.operand, .fresh room, opened⟩ (quoted s) =
      .ok ⟨.operator (.text (quoted s).unquoted), .fresh room, opened⟩ := rfl
  rw [foldlM_of_step hquoted, Token.unquoted_quoted]
  rfl

/-- A printed number is read as the number, with its sign if it has one. -/
theorem readsAs_number {numeral : Float → String} {n : Float} {room : Nat}
    (h : (Expr.number n).Printable numeral) : ReadsAs o room ((Expr.number n).print numeral)
      (.number n) := by
  rw [Expr.Printable, Option.map_eq_some_iff] at h
  obtain ⟨m, hm, hn⟩ := h
  have hword := Expr.ofWord_of_number hm
  rw [Expr.print]
  cases hneg : Number.isNegative n with
  | true =>
    -- the sign negates the number that the word stands for
    rw [hneg, Number.signed, if_pos rfl] at hn
    subst hn
    exact fun opened => ⟨⟨.afterWord _, { Level.fresh room with negated := true }, opened⟩, _, rfl,
      rfl, rfl, Reader.after_word hword, Level.close_of_nil rfl _⟩
  | false =>
    rw [hneg, Number.signed, if_neg Bool.false_ne_true] at hn
    subst hn
    exact readsAs_word hword

/-- Two corners with a colon between them are read as their range. -/
theorem readsAs_range {r : Range} {room : Nat} (htop : r.topLeft.InGrid)
    (hbottom : r.bottomRight.InGrid) :
    ReadsAs o room [word r.topLeft.toText, mark ":", word r.bottomRight.toText] (.range r) := by
  refine readsAs_of_operand (l := .fresh room) rfl rfl fun opened => ?_
  have hcolon : Reader.step o ⟨.afterWord r.topLeft.toText, .fresh room, opened⟩ (mark ":") =
      .ok ⟨.corner r.topLeft.toText r.topLeft, .fresh room, opened⟩ := by
    change Reader.wordStep o _ _ (mark ":") = _
    rw [Reader.wordStep, Expr.ofWord_toText htop]
    rfl
  have hcorner : Reader.step o ⟨.corner r.topLeft.toText r.topLeft, .fresh room, opened⟩
      (word r.bottomRight.toText) = .ok ⟨.operator (.range r), .fresh room, opened⟩ := by
    change Reader.cornerStep _ _ _ (word r.bottomRight.toText) = _
    rw [Reader.cornerStep, if_pos ⟨rfl, Coord.isAddressShaped_toText _⟩]
    change (readAddress r.bottomRight.toText >>= _) = _
    rw [readAddress_toText hbottom]
    change Except.ok (Reader.complete _ (.range (Range.ofCorners _ _))) = _
    rw [Range.ofCorners_self]
    rfl
  rw [foldlM_of_step (Reader.step_word _), foldlM_of_step hcolon, foldlM_of_step hcorner]
  rfl

/-- The chain after a first operand and an operator, and the room that it leaves. -/
theorem Level.push_fresh {room n : Nat} (x : Expr) (op : Operator)
    (h : o.grouping.levels (op == .power) + n ≤ room) :
    ∃ l k, (Level.fresh room).push o x op = .ok l ∧ l.before = [(x, op)] ∧ l.base = room ∧
      l.negated = false ∧ l.room = k + 1 ∧ n ≤ k := by
  rw [Grouping.levels] at h
  by_cases hpower : o.grouping = .byBinding ∧ op = .power
  · rw [if_pos ⟨hpower.1, beq_iff_eq.2 hpower.2⟩] at h
    obtain ⟨k, rfl⟩ : ∃ k, room = k + 2 := ⟨room - 2, by omega⟩
    refine ⟨{ Level.fresh (k + 2) with before := [(x, op)], room := k + 1 }, k, ?_, rfl, rfl, rfl,
      rfl, by omega⟩
    rw [Level.push, if_pos hpower]
    rfl
  · rw [if_neg fun hb => hpower ⟨hb.1, beq_iff_eq.1 hb.2⟩] at h
    obtain ⟨k, rfl⟩ : ∃ k, room = k + 1 := ⟨room - 1, by omega⟩
    refine ⟨{ Level.fresh (k + 1) with before := [(x, op)] }, k, ?_, rfl, rfl, rfl, rfl, by omega⟩
    rw [Level.push, if_neg hpower]
    rfl

/-- The token of an operator after an operand. -/
theorem Reader.step_text {x : Expr} {l' : Level} (op : Operator) (h : l.push o x op = .ok l') :
    Reader.step o ⟨.operator x, l, opened⟩ (mark op.text) = .ok ⟨.operand, l', opened⟩ := by
  have hop : (mark op.text).binary? = some op := op.ofText?_text
  rw [Reader.step_operator_binary hop, h]
  rfl

/-- An operation is read from its operands in parentheses. -/
theorem readsAs_binary {op : Operator} {x y : Expr} {ts ts' : List Token} {room : Nat}
    (hx : ∀ room, x.nesting o.grouping ≤ room → ReadsAs o room ts x)
    (hy : ∀ room, y.nesting o.grouping ≤ room → ReadsAs o room ts' y)
    (hroom : (Expr.binary op x y).nesting o.grouping ≤ room) :
    ReadsAs o room (grouped ts ++ mark op.text :: grouped ts') (.binary op x y) := by
  intro opened
  rw [Expr.nesting] at hroom
  obtain ⟨k, rfl⟩ : ∃ k, room = k + 1 := ⟨room - 1, by omega⟩
  obtain ⟨l', k', hpush, hbefore, hbase, hnegated, hroom', hle⟩ :=
    Level.push_fresh (o := o) x op (Nat.le_trans (Nat.le_max_right ..) hroom)
  refine ⟨⟨.operator y, l', opened⟩, y, ?_, hbase, rfl, Reader.after_operator y,
    Level.close_of_singleton hbefore y⟩
  have hleft := (hx k (by omega)).grouped (l := .fresh (k + 1)) rfl opened
  rw [Level.signed_fresh] at hleft
  rw [foldlM_of_append hleft, foldlM_of_step (Reader.step_text op hpush),
    (hy k' hle).grouped hroom', Level.signed, hnegated]
  rfl

/-- A negation is read from its operand in parentheses. -/
theorem readsAs_negate {x : Expr} {ts : List Token} {room : Nat}
    (hx : ∀ room, x.nesting o.grouping ≤ room → ReadsAs o room ts x)
    (hnumber : ∀ n, x ≠ .number n) (hroom : (Expr.negate x).nesting o.grouping ≤ room) :
    ReadsAs o room (mark "-" :: grouped ts) (.negate x) := by
  rw [Expr.nesting] at hroom
  obtain ⟨k, rfl⟩ : ∃ k, room = k + 1 := ⟨room - 1, by omega⟩
  have hnegated : x.negated = .negate x := by
    cases x with
    | number n => exact absurd rfl (hnumber n)
    | _ => rfl
  refine readsAs_of_operand (l := { Level.fresh (k + 1) with negated := true }) rfl rfl
    fun opened => ?_
  have hoperand := (hx k (by omega)).grouped (l := { Level.fresh (k + 1) with negated := true })
    rfl opened
  rw [Level.signed, if_pos rfl, hnegated] at hoperand
  rw [foldlM_of_step Reader.step_minus]
  exact hoperand

/-- Tokens that are read as the arguments of a call, up to the parenthesis after them. -/
def ReadsArguments (o : Options) (room : Nat) (ts : List Token) (args : List Expr) : Prop :=
  ∀ name done outer opened, (ts ++ [mark ")"]).foldlM (·.step o)
      (⟨.argument, .fresh room, (.call name done, outer) :: opened⟩ : Reader) =
    .ok (Reader.complete ⟨.operand, outer, opened⟩ (.call name (done.reverse ++ args)))

/-- No tokens are read as no arguments. -/
theorem readsArguments_nil {room : Nat} : ReadsArguments o room [] [] := by
  intro name done outer opened
  rw [List.append_nil]
  rfl

/-- The first token of an expression ends no argument. -/
theorem ReadsAs.exists_cons {room : Nat} {ts : List Token} {x : Expr} (h : ReadsAs o room ts x) :
    ∃ t ts', ts = t :: ts' ∧ t.isOperator "," = false ∧ t.isOperator ")" = false := by
  obtain ⟨r, y, hr, -, hopened, hafter, -⟩ := h []
  cases ts with
  | nil =>
    cases hr
    cases hafter.finish
  | cons t ts' =>
    obtain ⟨r', hstep, -⟩ := exists_of_bind_eq_ok hr
    have hoperator : ∀ s, s = "," ∨ s = ")" → t.isOperator s = false := by
      rintro s hs
      refine Bool.eq_false_iff.2 fun hmark => ?_
      obtain ⟨kind, text⟩ := t
      rw [Token.isOperator, Bool.and_eq_true, beq_iff_eq, beq_iff_eq] at hmark
      obtain ⟨rfl, rfl⟩ := hmark
      rcases hs with rfl | rfl <;> cases hstep
    exact ⟨t, ts', rfl, hoperator _ (.inl rfl), hoperator _ (.inr rfl)⟩

/-- What is read as an expression in a fresh chain spells it. -/
theorem ReadsAs.ofTokens {ts : List Token} {x : Expr} (h : ReadsAs o o.maxNesting ts x) :
    Expr.ofTokens o ts = .ok x := by
  obtain ⟨t, ts', rfl, -, -⟩ := h.exists_cons
  obtain ⟨r, y, hr, -, hopened, hafter, hclose⟩ := h []
  rw [Expr.ofTokens_eq_read (List.cons_ne_nil t ts'), Reader.read, Reader.start, hr]
  change r.finish o = _
  rw [hafter.finish, Reader.finishOperand, hopened]
  exact congrArg _ hclose

/-- An argument is read as an expression. -/
theorem ReadsAs.foldlM_argument {room : Nat} {ts : List Token} {x : Expr} (h : ReadsAs o room ts x)
    (rest : List Token) :
    (ts ++ rest).foldlM (·.step o) (⟨.argument, l, opened⟩ : Reader) =
      (ts ++ rest).foldlM (·.step o) (⟨.operand, l, opened⟩ : Reader) := by
  obtain ⟨t, ts', rfl, hcomma, hclose⟩ := h.exists_cons
  rw [List.cons_append, List.foldlM_cons, List.foldlM_cons, Reader.step_argument hcomma hclose]

/-- An expression is read as an argument alone. -/
theorem readsArguments_singleton {ts : List Token} {x : Expr} {room : Nat}
    (hx : ReadsAs o room ts x) : ReadsArguments o room ts [x] := by
  intro name done outer opened
  obtain ⟨r, y, hr, -, hopened, hafter, hclose⟩ := hx ((.call name done, outer) :: opened)
  rw [hx.foldlM_argument, foldlM_of_append hr, foldlM_of_step (hafter.close_call hopened), hclose]
  rfl

/-- An expression and a comma are read as one argument more. -/
theorem readsArguments_cons {x : Expr} {ts ts' : List Token} {args : List Expr} {room : Nat}
    (hx : ReadsAs o room ts x) (hargs : ReadsArguments o room ts' args) :
    ReadsArguments o room (ts ++ mark "," :: ts') (x :: args) := by
  intro name done outer opened
  obtain ⟨r, y, hr, hbase, hopened, hafter, hclose⟩ := hx ((.call name done, outer) :: opened)
  rw [List.append_assoc, hx.foldlM_argument, foldlM_of_append hr, List.cons_append,
    foldlM_of_step (hafter.comma hopened), hclose, hbase, hargs name (x :: done),
    List.reverse_cons, List.append_assoc]
  rfl

/-- A call of a function, whose name is read in upper case. -/
theorem ReadsArguments.call {args : List Expr} {ts : List Token} {room : Nat}
    (h : ReadsArguments o room ts args) (name : String) :
    ReadsAs o (room + 1) (word name :: grouped ts) (.call (Text.upper name) args) := by
  refine readsAs_of_operand (l := .fresh (room + 1)) rfl rfl fun opened => ?_
  have henter : Reader.step o ⟨.afterWord name, .fresh (room + 1), opened⟩ (mark "(") =
      .ok ⟨.argument, .fresh room, (.call (Text.upper name) [], .fresh (room + 1)) :: opened⟩ := by
    change Reader.wordStep o _ name (mark "(") = _
    rw [Reader.wordStep]
    rfl
  rw [foldlM_of_step (Reader.step_word name), grouped, foldlM_of_step henter]
  exact h (Text.upper name) [] (.fresh (room + 1)) opened

/-- A call is read from its name and its arguments in parentheses. -/
theorem readsAs_call {name : String} {args : List Expr} {ts : List Token} {room : Nat}
    (hname : Text.upper name = name)
    (hargs : ∀ room, Expr.argumentsNesting o.grouping args ≤ room → ReadsArguments o room ts args)
    (hroom : (Expr.call name args).nesting o.grouping ≤ room) :
    ReadsAs o room (word name :: grouped ts) (.call name args) := by
  rw [Expr.nesting] at hroom
  obtain ⟨k, rfl⟩ : ∃ k, room = k + 1 := ⟨room - 1, by omega⟩
  have hcall : ReadsAs o (k + 1) (word name :: grouped ts) (.call (Text.upper name) args) :=
    (hargs k (by omega)).call name
  rwa [hname] at hcall

mutual

/-- **The tokens of an expression spell it**, with any room its parentheses need. -/
theorem Expr.readsAs_print {numeral : Float → String} : (x : Expr) → x.Printable numeral →
    ∀ room, x.nesting o.grouping ≤ room → ReadsAs o room (x.print numeral) x
  | .number _, h, _, _ => readsAs_number h
  | .text s, _, _, _ => readsAs_quoted s
  | .bare s, ⟨hshape, hnumber, htrue, hfalse⟩, _, _ => readsAs_word (by
      rw [Expr.ofWord, hshape, hnumber, htrue, hfalse]
      rfl)
  | .cell _, h, _, _ => readsAs_word (Expr.ofWord_toText h)
  | .range _, ⟨htop, hbottom⟩, _, _ => readsAs_range htop hbottom
  | .binary _ l r, ⟨hl, hr⟩, _, hroom =>
    readsAs_binary (l.readsAs_print hl) (r.readsAs_print hr) hroom
  | .negate x, ⟨hnumber, hx⟩, _, hroom => readsAs_negate (x.readsAs_print hx) hnumber hroom
  | .call _ args, ⟨hname, hargs⟩, _, hroom =>
    readsAs_call hname (Expr.readsArguments_print args hargs) hroom

/-- The tokens of arguments are read as these. -/
theorem Expr.readsArguments_print {numeral : Float → String} : (args : List Expr) →
    Expr.ArgumentsPrintable numeral args → ∀ room, Expr.argumentsNesting o.grouping args ≤ room →
      ReadsArguments o room (Expr.printArguments numeral args) args
  | [], _, _, _ => readsArguments_nil
  | [x], ⟨hx, _⟩, _, hroom =>
    readsArguments_singleton (x.readsAs_print hx _ (Nat.le_trans (Nat.le_max_left ..) hroom))
  | x :: y :: args, ⟨hx, hargs⟩, _, hroom =>
    readsArguments_cons (x.readsAs_print hx _ (Nat.le_trans (Nat.le_max_left ..) hroom))
      (Expr.readsArguments_print (y :: args) hargs _ (Nat.le_trans (Nat.le_max_right ..) hroom))

end

/-- **Reading undoes printing.** The tokens of an expression are read as the expression, if they may
nest as deep as their parentheses go. -/
theorem Expr.ofTokens_print (numeral : Float → String) (o : Options) (x : Expr)
    (hx : x.Printable numeral)
    (hdepth : Token.depth o.grouping (x.print numeral) ≤ o.maxNesting) :
    Expr.ofTokens o (x.print numeral) = .ok x := by
  rw [Expr.depth_print] at hdepth
  exact (x.readsAs_print hx o.maxNesting hdepth).ofTokens

end

/-- `( 2 ) ^ ( SUM ( A1 : B2 , - ( A1 ) ) )`, with a level for the power. -/
theorem Expr.ofTokens_print_sum :
    let numeral : Float → String := fun _ => "2"
    let o : Options := { grouping := .byBinding, maxNesting := 4 }
    let x : Expr := .binary .power (.number 2)
      (.call "SUM" [.range (.ofCorners ⟨0, 0⟩ ⟨1, 1⟩), .negate (.cell ⟨0, 0⟩)])
    x.Printable numeral ∧ Token.depth o.grouping (x.print numeral) ≤ o.maxNesting ∧
      Expr.ofTokens o (x.print numeral) = .ok x := by
  intro numeral o x
  have hx : x.Printable numeral := by
    refine ⟨?_, by decide +kernel, ⟨by decide, by decide⟩, ⟨nofun, ?_⟩, trivial⟩
    · rw [Expr.Printable]
      decide +kernel
    · rw [Expr.Printable]
      decide
  have hdepth : Token.depth o.grouping (x.print numeral) ≤ o.maxNesting := by decide +kernel
  exact ⟨hx, hdepth, Expr.ofTokens_print numeral o x hx hdepth⟩

/-- One level for each parenthesis is not enough where operators bind. -/
theorem Expr.not_ofTokens_print_power :
    ¬ ∀ (numeral : Float → String) (o : Options) (x : Expr), x.Printable numeral →
      Token.depth .leftToRight (x.print numeral) ≤ o.maxNesting →
        Expr.ofTokens o (x.print numeral) = .ok x := by
  intro h
  have hpower := h (fun _ => "") { grouping := .byBinding, maxNesting := 1 }
    (.binary .power (.text "a") (.text "b")) ⟨trivial, trivial⟩ (by decide)
  rw [Expr.ofTokens_eq] at hpower
  cases hpower

end Spreadsheet
