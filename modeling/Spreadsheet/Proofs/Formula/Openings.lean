import Spreadsheet.Proofs.Formula.Chains
import Spreadsheet.Proofs.Formula.Reach

/-!
# What tokens open

The parentheses, calls and right operands of powers that are open after some tokens are told by the
tokens alone (`Token.StillOpen`): a sign is known from what stands before it, and an operator after
an operand ends the powers of its chain unless it is a power itself. The reader has just these open
(`Reader.stillOpen_step`). So whether a limit on nesting cuts a formula off can be seen from its
tokens, and it never does anything else (`Expr.ofTokens_limited`).
-/

namespace Spreadsheet

/-! ## Open after some tokens -/

namespace Token

/-- What is still open after some tokens. -/
structure StillOpen where
  /-- The right operands of powers in the innermost chain of operands. -/
  powers : Nat
  /-- The same for the chains around it, the innermost first. In each of these a parenthesis or a
  call is open. -/
  outer : List Nat
  /-- Whether the last token ends an operand, so that a sign after it is an operator. -/
  afterOperand : Bool
  deriving Repr, DecidableEq

namespace StillOpen

/-- Nothing is open before the first token. -/
def nothing : StillOpen :=
  ⟨0, [], false⟩

/-- The number of parentheses, calls and right operands of powers that are open. -/
def count (s : StillOpen) : Nat :=
  s.powers + s.outer.foldr (fun powers n => powers + 1 + n) 0

/-- What is open after one more token. Where operators bind, a power opens its right operand. All
other operators and commas end the right operands that are open in their chain, unless no operand
comes before them: then they are signs or stand in a slot without an argument. -/
def step (grouping : Grouping) (s : StillOpen) (t : Token) : StillOpen :=
  if t.isOperator "(" then ⟨0, s.powers :: s.outer, false⟩
  else if t.isOperator ")" then ⟨s.outer.headD 0, s.outer.tail, true⟩
  else if t.kind = .operator then
    if s.afterOperand = false ∨ t.isOperator ":" then { s with afterOperand := false }
    else if grouping = .byBinding ∧ t.isOperator "^" then ⟨s.powers + 1, s.outer, false⟩
    else ⟨0, s.outer, false⟩
  else { s with afterOperand := true }

/-- The greatest number of what is open at once, now or after some of the tokens that come. -/
def most (grouping : Grouping) : List Token → StillOpen → Nat
  | [], s => s.count
  | t :: ts, s => max s.count (most grouping ts (s.step grouping t))

end StillOpen

/-- The greatest number of parentheses, calls and, where operators bind, right operands of powers
that are open at once in some tokens. -/
def mostOpen (grouping : Grouping) (ts : List Token) : Nat :=
  StillOpen.most grouping ts .nothing

example : mostOpen .byBinding (tokenize "2^-3^(1+SUM(4^5))*(6)") = 5 := by decide +kernel

end Token

open Token

variable {o : Options}

/-- Powers have one spelling. -/
theorem Operator.ofText?_eq_power {s : String} : ofText? s = some .power ↔ s = "^" := by
  constructor
  · intro h
    unfold ofText? at h
    split at h <;> first | rfl | cases h
  · rintro rfl
    rfl

namespace Token.StillOpen

variable {grouping : Grouping} {s : StillOpen} {t : Token}

/-- A parenthesis opens a chain without any powers. -/
theorem step_open (h : t.isOperator "(" = true) :
    s.step grouping t = ⟨0, s.powers :: s.outer, false⟩ :=
  if_pos h

/-- A closing parenthesis ends what is open in its chain, and is an operand. -/
theorem step_close (h : t.isOperator ")" = true) :
    s.step grouping t = ⟨s.outer.headD 0, s.outer.tail, true⟩ := by
  have hopen : t.isOperator "(" = false := isOperator_of_isOperator h "("
  rw [step, hopen, h]
  rfl

/-- A token that is no operator ends an operand. -/
theorem step_operand (h : t.kind ≠ .operator) :
    s.step grouping t = { s with afterOperand := true } := by
  rw [step, isOperator_of_kind h, isOperator_of_kind h, if_neg h]
  rfl

/-- A token that is no parenthesis and has no operand in front of it opens and ends nothing. -/
theorem step_unary (hkind : t.kind = .operator) (hopen : t.isOperator "(" = false)
    (hclose : t.isOperator ")" = false) (hs : s.afterOperand = false) :
    s.step grouping t = { s with afterOperand := false } := by
  simp [step, hopen, hclose, hkind, hs]

/-- A colon has an operand after it. -/
theorem step_colon (h : t.isOperator ":" = true) :
    s.step grouping t = { s with afterOperand := false } := by
  have hopen : t.isOperator "(" = false := isOperator_of_isOperator h "("
  have hclose : t.isOperator ")" = false := isOperator_of_isOperator h ")"
  simp [step, hopen, hclose, h, (isOperator_iff.1 h).1]

/-- A comma after an argument ends the right operands that are open in it. -/
theorem step_comma (h : t.isOperator "," = true) (hs : s.afterOperand = true) :
    s.step grouping t = ⟨0, s.outer, false⟩ := by
  have hother : ∀ name : String, t.isOperator name = ("," == name) := isOperator_of_isOperator h
  have hkind : t.kind = .operator := (isOperator_iff.1 h).1
  simp only [step, hother, hkind, hs]
  simp

/-- Of the operators between two operands only powers leave open what is open in their chain. -/
theorem step_binary {op : Operator} (hkind : t.kind = .operator)
    (hop : Operator.ofText? t.text = some op) (hs : s.afterOperand = true) :
    s.step grouping t = if grouping = .byBinding ∧ op = .power then ⟨s.powers + 1, s.outer, false⟩
      else ⟨0, s.outer, false⟩ := by
  have hname : ∀ name : String, Operator.ofText? name ≠ some op → t.isOperator name = false := by
    intro name hne
    refine Bool.eq_false_iff.2 fun h => hne ?_
    rw [← (isOperator_iff.1 h).2, hop]
  have hpower : t.isOperator "^" = true ↔ op = .power := by
    rw [isOperator_iff, and_iff_right hkind, ← Operator.ofText?_eq_power, hop, Option.some_inj]
  rw [step, hname "(" nofun, hname ")" nofun, if_pos hkind, hs, hname ":" nofun]
  simp [hpower]

/-- A token opens one thing at most. -/
theorem count_step_le : (s.step grouping t).count ≤ s.count + 1 := by
  obtain ⟨powers, outer, afterOperand⟩ := s
  unfold step
  split
  · simp only [count, List.foldr_cons]
    omega
  · split
    · cases outer with
      | nil => simp [count]
      | cons p outer =>
        simp only [count, List.headD_cons, List.tail_cons, List.foldr_cons]
        omega
    · split
      · split
        · exact Nat.le_succ _
        · split <;> simp only [count] <;> omega
      · exact Nat.le_succ _

/-- One token opens one thing at most. -/
theorem most_le (ts : List Token) : most grouping ts s ≤ s.count + ts.length := by
  induction ts generalizing s with
  | nil => exact Nat.le_refl _
  | cons t ts ih =>
    have hstep : (s.step grouping t).count ≤ s.count + 1 := count_step_le
    have hrest : most grouping ts (s.step grouping t) ≤ _ := ih
    rw [most, List.length_cons]
    omega

end Token.StillOpen

/-- No more is open than there are tokens. -/
theorem Token.mostOpen_le (grouping : Grouping) (ts : List Token) :
    mostOpen grouping ts ≤ ts.length :=
  Nat.zero_add ts.length ▸ StillOpen.most_le ts

/-! ## Open in a reader -/

/-- Whether an operand has just ended. -/
def Expecting.afterOperand : Expecting → Bool
  | .afterWord _ | .operator _ => true
  | .operand | .argument | .corner .. => false

/-- What is open in a reader. -/
def Reader.stillOpen (o : Options) (r : Reader) : StillOpen :=
  ⟨r.level.powers o, r.opened.map (·.2.powers o), r.expecting.afterOperand⟩

/-- The nesting of a reader is what is still open in it. -/
theorem Reader.nesting_eq_count (r : Reader) : r.nesting o = (r.stillOpen o).count := by
  rw [nesting, StillOpen.count, stillOpen, List.foldr_map]

/-- No more is open in a reader than it has room for. -/
theorem Rooms.count_le {r : Reader} (h : Rooms o r.level r.opened) :
    (r.stillOpen o).count ≤ o.maxNesting := by
  have hroom : r.level.room + r.nesting o = o.maxNesting := h.room_add_nesting r.expecting
  rw [← r.nesting_eq_count]
  omega

namespace Reader

variable {r r' : Reader} {t : Token}

/-- A token that closes what was opened last ends an operand of the chain around it. -/
theorem stillOpen_close {opening : Opening} {outer : Level} {opened : List (Opening × Level)}
    (hopened : r.opened = (opening, outer) :: opened) (ht : t.isOperator ")" = true) (x : Expr) :
    (complete ⟨.operand, outer, opened⟩ x).stillOpen o = (r.stillOpen o).step o.grouping t := by
  obtain ⟨expecting, level, opened'⟩ := r
  cases hopened
  rw [StillOpen.step_close ht]
  rfl

/-- A reader that opens something has it open. -/
theorem stillOpen_enter {opening : Opening} {expecting : Expecting}
    (hexpecting : expecting.afterOperand = false) (ht : t.isOperator "(" = true)
    (h : r.enter o opening expecting = .ok r') :
    r'.stillOpen o = (r.stillOpen o).step o.grouping t := by
  rw [StillOpen.step_open ht]
  unfold enter at h
  split at h
  · cases h
  · cases h
    rw [stillOpen, Level.powers_fresh, hexpecting]
    rfl

/-- Where an operand is expected, what is open in a reader goes with the scan. -/
theorem stillOpen_operandStep (hr : r.expecting.afterOperand = false)
    (h : r.operandStep o t = .ok r') : r'.stillOpen o = (r.stillOpen o).step o.grouping t := by
  have hoperand : t.kind ≠ .operator →
      (r.stillOpen o).step o.grouping t = { r.stillOpen o with afterOperand := true } :=
    StillOpen.step_operand
  unfold operandStep at h
  split at h
  · next hkind =>
    cases h
    rw [hoperand (by rw [hkind]; decide)]
    rfl
  · next hkind =>
    cases h
    rw [hoperand (by rw [hkind]; decide)]
    rfl
  · next hkind =>
    have hsign : ∀ name : String, t.text = name → name ≠ "(" → name ≠ ")" →
        (r.stillOpen o).step o.grouping t = { r.stillOpen o with afterOperand := false } := by
      intro name htext hopen hclose
      have hname : ∀ other, t.isOperator other = (name == other) :=
        isOperator_of_isOperator (isOperator_iff.2 ⟨hkind, htext⟩)
      exact StillOpen.step_unary hkind (by simp [hname, hopen]) (by simp [hname, hclose]) hr
    split at h
    · next htext =>
      cases h
      rw [hsign "-" htext (by decide) (by decide)]
      rfl
    · split at h
      · next htext =>
        cases h
        rw [hsign "+" htext (by decide) (by decide)]
        rfl
      · split at h
        · next htext => exact stillOpen_enter rfl (isOperator_iff.2 ⟨hkind, htext⟩) h
        · cases h

/-- Where an argument is expected, what is open in a reader goes with the scan. -/
theorem stillOpen_argumentStep (hr : r.expecting.afterOperand = false)
    (h : r.argumentStep o t = .ok r') : r'.stillOpen o = (r.stillOpen o).step o.grouping t := by
  unfold argumentStep at h
  split at h
  · next hcomma =>
    cases h
    have hname : ∀ other : String, t.isOperator other = ("," == other) :=
      isOperator_of_isOperator hcomma
    rw [StillOpen.step_unary (isOperator_iff.1 hcomma).1 (hname "(") (hname ")") hr, stillOpen, hr]
  · split at h
    · next hopened =>
      split at h
      · next hclose =>
        cases h
        exact stillOpen_close hopened hclose _
      · exact stillOpen_operandStep hr h
    · exact stillOpen_operandStep hr h

/-- Where an operator is expected, what is open in a reader goes with the scan. -/
theorem stillOpen_operatorStep {x : Expr} (hr : r.expecting.afterOperand = true)
    (h : r.operatorStep o x t = .ok r') : r'.stillOpen o = (r.stillOpen o).step o.grouping t := by
  unfold operatorStep at h
  split at h
  · next op hop =>
    obtain ⟨l, hpush, hok⟩ := exists_of_bind_eq_ok h
    cases hok
    obtain ⟨hkind, htext⟩ := Token.binary?_eq_some_iff.1 hop
    rw [StillOpen.step_binary hkind htext hr]
    have hpowers : l.powers o =
        if o.grouping = .byBinding ∧ op = .power then r.level.powers o + 1 else 0 := by
      rw [← Level.powers_push r.level x op, Level.powers, before_push hpush, Level.powers]
    rw [stillOpen, hpowers]
    split <;> rfl
  · split at h
    · cases h
    · next hopened =>
      split at h
      · next hclose =>
        cases h
        exact stillOpen_close hopened hclose _
      · cases h
    · next hopened =>
      split at h
      · next hclose =>
        cases h
        exact stillOpen_close hopened hclose _
      · split at h
        · next hcomma =>
          cases h
          rw [StillOpen.step_comma hcomma hr, stillOpen, stillOpen, hopened]
          simp [Expecting.afterOperand]
        · cases h

/-- After a word, what is open in a reader goes with the scan. -/
theorem stillOpen_wordStep {word : String} (hr : r.expecting.afterOperand = true)
    (h : r.wordStep o word t = .ok r') : r'.stillOpen o = (r.stillOpen o).step o.grouping t := by
  unfold wordStep at h
  split at h
  · next hopen => exact stillOpen_enter rfl hopen h
  · obtain ⟨x, -, hx⟩ := exists_of_bind_eq_ok h
    split at hx
    · next hcolon =>
      cases hx
      rw [StillOpen.step_colon hcolon]
      rfl
    · exact stillOpen_operatorStep hr hx

/-- In front of the second corner of a range, what is open in a reader goes with the scan. -/
theorem stillOpen_cornerStep {word : String} {start : Coord}
    (h : r.cornerStep word start t = .ok r') :
    r'.stillOpen o = (r.stillOpen o).step o.grouping t := by
  unfold cornerStep at h
  split at h
  · next hword =>
    obtain ⟨c, -, hc⟩ := exists_of_bind_eq_ok h
    cases hc
    rw [StillOpen.step_operand (by rw [hword.1]; nofun)]
    rfl
  · cases h

/-- **What is open in a reader is what the tokens tell.** -/
theorem stillOpen_step (h : r.step o t = .ok r') :
    r'.stillOpen o = (r.stillOpen o).step o.grouping t := by
  unfold step at h
  cases hr : r.expecting with
  | operand =>
    rw [hr] at h
    exact stillOpen_operandStep (by rw [hr]; rfl) h
  | argument =>
    rw [hr] at h
    exact stillOpen_argumentStep (by rw [hr]; rfl) h
  | afterWord word =>
    rw [hr] at h
    exact stillOpen_wordStep (by rw [hr]; rfl) h
  | corner word start =>
    rw [hr] at h
    exact stillOpen_cornerStep h
  | operator x =>
    rw [hr] at h
    exact stillOpen_operatorStep (by rw [hr]; rfl) h

/-- A reader never reaches a nesting that its tokens do not open. -/
theorem reach_le_most (tokens : List Token) (r : Reader) :
    r.reach o tokens ≤ StillOpen.most o.grouping tokens (r.stillOpen o) := by
  induction tokens generalizing r with
  | nil => exact Nat.le_of_eq r.nesting_eq_count
  | cons t tokens ih =>
    rw [reach, StillOpen.most, nesting_eq_count]
    cases hstep : r.step o t with
    | error error => exact Nat.max_le.2 ⟨Nat.le_max_left .., Nat.zero_le _⟩
    | ok r' =>
      have hrest := ih r'
      rw [stillOpen_step hstep] at hrest
      exact Nat.max_le.2 ⟨Nat.le_max_left .., Nat.le_trans hrest (Nat.le_max_right ..)⟩

/-- What a reader gets through opens no more than the limit allows. -/
theorem most_le_of_foldlM {tokens : List Token} (hrooms : Rooms o r.level r.opened)
    (h : tokens.foldlM (·.step o) r = .ok r') :
    StillOpen.most o.grouping tokens (r.stillOpen o) ≤ o.maxNesting := by
  induction tokens generalizing r with
  | nil => exact hrooms.count_le
  | cons t tokens ih =>
    rw [List.foldlM_cons] at h
    obtain ⟨r₁, hstep, hrest⟩ := exists_of_bind_eq_ok h
    rw [StillOpen.most, ← stillOpen_step hstep]
    exact Nat.max_le.2 ⟨hrooms.count_le, ih (hrooms.step hstep) hrest⟩

/-- At the start of a reader nothing is open. -/
theorem stillOpen_start (o : Options) : (start o).stillOpen o = .nothing := by
  rw [stillOpen, start, Level.powers_fresh]
  rfl

end Reader

/-! ## Limits -/

/-- A limit that is no less than what is open at once cuts no tokens off. -/
theorem Expr.ofTokens_of_mostOpen {tokens : List Token}
    (h : mostOpen o.grouping tokens ≤ o.maxNesting) (limit : Nat) :
    Expr.ofTokens o tokens ≠ .error (.nestedTooDeep limit) := by
  refine Expr.ofTokens_of_reach Nat.one_pos tokens ?_ limit
  have hreach := Reader.reach_le_most (o := o.deepen 1) tokens (Reader.start (o.deepen 1))
  rw [Reader.stillOpen_start] at hreach
  exact Nat.le_trans hreach h

/-- Tokens that are read open no more at once than the limit allows. -/
theorem Expr.mostOpen_le_of_ofTokens {tokens : List Token} {x : Expr}
    (h : Expr.ofTokens o tokens = .ok x) : mostOpen o.grouping tokens ≤ o.maxNesting := by
  rw [Expr.ofTokens_eq] at h
  split at h
  · next hempty =>
    rw [List.isEmpty_iff.1 hempty]
    exact Nat.zero_le _
  · obtain ⟨r, hread, -⟩ := exists_of_bind_eq_ok h
    have hmost := Reader.most_le_of_foldlM (Reader.rooms_start o) hread
    rwa [Reader.stillOpen_start] at hmost

/-- **The limit on nesting only cuts off.** Tokens that are no more than a limit are not cut off at
it. Any other limit comes to the same or cuts them off, and where one comes to the same, so does
every higher one. For tokens that are a formula, the limits that come to the same are those no less
than the greatest number of parentheses, calls and, where operators bind, right operands of powers
that are open at once. -/
theorem Expr.ofTokens_limited (o : Options) (tokens : List Token) {enough : Nat}
    (h : tokens.length ≤ enough) :
    let read (limit : Nat) := Expr.ofTokens { o with maxNesting := limit } tokens
    (∀ limit, read enough ≠ .error (.nestedTooDeep limit)) ∧
      (∀ n, read n = read enough ∨ read n = .error (.nestedTooDeep n)) ∧
      (∀ n n', n ≤ n' → read n = read enough → read n' = read enough) ∧
      ∀ x, read enough = .ok x →
        ∀ n, read n = read enough ↔ mostOpen o.grouping tokens ≤ n := by
  intro read
  have hmost : mostOpen o.grouping tokens ≤ enough := Nat.le_trans (mostOpen_le _ tokens) h
  have henough : ∀ limit, read enough ≠ .error (.nestedTooDeep limit) :=
    Expr.ofTokens_of_mostOpen (o := { o with maxNesting := enough }) hmost
  have hhigher : ∀ n n', n ≤ n' → read n = .error (.nestedTooDeep n) ∨ read n' = read n := by
    intro n n' hle
    exact Expr.ofTokens_of_le o hle tokens
  have hcut : ∀ n, read n = read enough ∨ read n = .error (.nestedTooDeep n) := by
    intro n
    rcases Nat.le_total n enough with hle | hle
    · exact (hhigher n enough hle).symm.imp Eq.symm id
    · exact .inl ((hhigher enough n hle).resolve_left (henough enough))
  refine ⟨henough, hcut, ?_, ?_⟩
  · intro n n' hle hn
    have hn' := (hhigher n n' hle).resolve_left (hn ▸ henough n)
    rw [hn', hn]
  · intro x hx n
    constructor
    · intro hn
      exact Expr.mostOpen_le_of_ofTokens (o := { o with maxNesting := n }) (hn.trans hx)
    · intro hle
      exact (hcut n).resolve_right
        (Expr.ofTokens_of_mostOpen (o := { o with maxNesting := n }) hle n)

/-- `"a" ^ - "b" ^ ( F ( "c" , "d" ^ "e" ) ) * ( "f" )`, in which five things are open at once. -/
theorem Expr.ofTokens_limited_power :
    let o : Options := { grouping := .byBinding }
    let tokens := [quoted "a", mark "^", mark "-", quoted "b", mark "^", mark "(", word "F",
      mark "(", quoted "c", mark ",", quoted "d", mark "^", quoted "e", mark ")", mark ")",
      mark "*", mark "(", quoted "f", mark ")"]
    let x : Expr := .binary .multiply (.binary .power (.text "a") (.binary .power
      (.negate (.text "b")) (.call "F" [.text "c", .binary .power (.text "d") (.text "e")])))
      (.text "f")
    let read (limit : Nat) := Expr.ofTokens { o with maxNesting := limit } tokens
    tokens.length ≤ 19 ∧ read 19 = .ok x ∧ mostOpen o.grouping tokens = 5 ∧
      read 5 = .ok x ∧ read 4 = .error (.nestedTooDeep 4) := by
  intro o tokens x read
  have hlength : tokens.length ≤ 19 := Nat.le_refl _
  have hread : read 19 = .ok x := Expr.ofTokens_eq_read (List.cons_ne_nil _ _)
  have hopen : mostOpen o.grouping tokens = 5 := by decide
  obtain ⟨-, hcut, -, henough⟩ := Expr.ofTokens_limited o tokens hlength
  have h : ∀ n, read n = read 19 ↔ 5 ≤ n := hopen ▸ henough x hread
  have hfour : read 4 ≠ read 19 := fun hsame => absurd ((h 4).1 hsame) (by decide)
  exact ⟨hlength, hread, hopen, ((h 5).2 (Nat.le_refl _)).trans hread, (hcut 4).resolve_left hfour⟩

end Spreadsheet
