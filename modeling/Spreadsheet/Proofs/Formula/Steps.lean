import Mathlib.Data.List.Forall2
import Spreadsheet.Proofs.Formula.Descent

/-!
# Readers side by side

Two readers of the same tokens may differ in the room they have, in the options, or in the operands
they keep. As long as they expect the same and have opened the same (`Reader.Compared`), they take
steps of the same kind (`Reader.Compared.steps`), of which there are few: something is opened or
closed, an operator or a comma comes, the reader stays in its chain, or the token is wrong. Only
where something is opened and where an operator comes can one of them go on and the other one fail.
Where that is excluded too, they go together to the end (`Reader.Compared.read`).
-/

namespace Spreadsheet

/-! ## Outcomes -/

/-- Two results that are related, or the same error. -/
inductive SameOutcome {α : Type} (R : α → α → Prop) :
    Except FormulaError α → Except FormulaError α → Prop
  | ok {a a' : α} (h : R a a') : SameOutcome R (.ok a) (.ok a')
  | error (error : FormulaError) : SameOutcome R (.error error) (.error error)

section
variable {α β : Type} {R : α → α → Prop} {S : β → β → Prop}

/-- Results that are related may go on to results that are related. -/
theorem SameOutcome.bind {a a' : Except FormulaError α} {f f' : α → Except FormulaError β}
    (h : SameOutcome R a a') (hf : ∀ b b', R b b' → SameOutcome S (f b) (f' b')) :
    SameOutcome S (a >>= f) (a' >>= f') := by
  cases h with
  | ok h => exact hf _ _ h
  | error error => exact .error error

/-- Results that are equal or the same error are the same. -/
theorem SameOutcome.eq {a a' : Except FormulaError α} (h : SameOutcome Eq a a') : a = a' := by
  cases h with
  | ok h => rw [h]
  | error error => rfl

variable {a a' : Except FormulaError α} (h : SameOutcome R a a')
include h

/-- Both have a result or neither has. -/
theorem SameOutcome.ok_iff : (∃ b, a = .ok b) ↔ ∃ b, a' = .ok b := by
  cases h with
  | ok h => exact ⟨fun _ => ⟨_, rfl⟩, fun _ => ⟨_, rfl⟩⟩
  | error error => exact ⟨nofun, nofun⟩

/-- An error of the one is an error of the other. -/
theorem SameOutcome.error_iff (error : FormulaError) : a = .error error ↔ a' = .error error := by
  cases h with
  | ok h => exact ⟨nofun, nofun⟩
  | error error => exact Iff.rfl

/-- Two results are related. -/
theorem SameOutcome.related {b b' : α} (hb : a = .ok b) (hb' : a' = .ok b') : R b b' := by
  cases h with
  | ok h =>
    cases hb
    cases hb'
    exact h
  | error error => cases hb

end

/-! ## Likenesses -/

/-- What two readings have in common: a likeness of expressions, and of the arguments of a call, the
last first, which everything hands on that expressions are put together with, but for chains. -/
structure Likeness where
  Alike : Expr → Expr → Prop
  Args : List Expr → List Expr → Prop
  word {w : String} {x : Expr} (h : Expr.ofWord w = .ok x) : Alike x x
  text (s : String) : Alike (.text s) (.text s)
  range (r : Range) : Alike (.range r) (.range r)
  negated {x y : Expr} (h : Alike x y) : Alike x.negated y.negated
  nil : Args [] []
  cons {x y : Expr} {args args' : List Expr} (hx : Alike x y) (h : Args args args') :
    Args (x :: args) (y :: args')
  call (name : String) {args args' : List Expr} (h : Args args args') :
    Alike (.call name args.reverse) (.call name args'.reverse)

namespace Likeness

/-- Being the same. -/
def same : Likeness where
  Alike := Eq
  Args := Eq
  word _ := rfl
  text _ := rfl
  range _ := rfl
  negated := congrArg Expr.negated
  nil := rfl
  cons hx h := congrArg₂ List.cons hx h
  call name _ _ h := congrArg (fun args => Expr.call name args.reverse) h

/-- Being anything whatever. -/
def any : Likeness where
  Alike _ _ := True
  Args _ _ := True
  word _ := trivial
  text _ := trivial
  range _ := trivial
  negated _ := trivial
  nil := trivial
  cons _ _ := trivial
  call _ _ _ _ := trivial

/-- A relation of chains under way that goes with a likeness, where the chains are grouped by these
options. -/
structure Chains (K : Likeness) (o o' : Options) (L : Level → Level → Prop) : Prop where
  negated_eq : ∀ {l l' : Level}, L l l' → l.negated = l'.negated
  resign : ∀ {l l' : Level}, L l l' → ∀ negated, L { l with negated } { l' with negated }
  close : ∀ {l l' : Level} {x y : Expr}, L l l' → K.Alike x y →
    K.Alike (l.close o x) (l'.close o' y)

variable {K : Likeness} {o o' : Options} {L : Level → Level → Prop}

/-- Signs in front of operands that are alike keep them alike. -/
theorem Chains.signed (hL : K.Chains o o' L) {l l' : Level} (h : L l l') {x y : Expr}
    (hx : K.Alike x y) : K.Alike (l.signed x) (l'.signed y) := by
  rw [Level.signed, Level.signed, hL.negated_eq h]
  split
  · exact K.negated hx
  · exact hx

/-- Sameness goes with the sameness of chains. -/
theorem same_chains (ho : o'.grouping = o.grouping) : same.Chains o o' Eq where
  negated_eq h := congrArg Level.negated h
  resign h negated := congrArg (fun l : Level => { l with negated }) h
  close := by
    rintro l _ x _ rfl rfl
    change l.close o x = l.close o' x
    rw [Level.close, Level.close, ho]

end Likeness

/-! ## Readers that are compared -/

/-- What is expected is alike. -/
inductive Expecting.Compared (K : Likeness) : Expecting → Expecting → Prop
  | operand : Compared K .operand .operand
  | argument : Compared K .argument .argument
  | afterWord (word : String) : Compared K (.afterWord word) (.afterWord word)
  | corner (word : String) (start : Coord) : Compared K (.corner word start) (.corner word start)
  | operator {x y : Expr} (h : K.Alike x y) : Compared K (.operator x) (.operator y)

/-- What is opened is alike. -/
inductive Opening.Compared (K : Likeness) : Opening → Opening → Prop
  | group : Compared K .group .group
  | call (name : String) {args args' : List Expr} (h : K.Args args args') :
    Compared K (.call name args) (.call name args')

/-- Two readers that expect the same and have opened the same, up to a likeness. -/
structure Reader.Compared (K : Likeness) (L : Level → Level → Prop) (r r' : Reader) : Prop where
  expecting : r.expecting.Compared K r'.expecting
  level : L r.level r'.level
  opened : List.Forall₂ (fun p p' => p.1.Compared K p'.1 ∧ L p.2 p'.2) r.opened r'.opened

/-- The kinds of steps that two readers take side by side. -/
inductive Reader.Steps (K : Likeness) (o o' : Options) (t : Token) (r r' : Reader) :
    Except FormulaError Reader → Except FormulaError Reader → Prop
  /-- A parenthesis is opened. -/
  | group : Steps K o o' t r r' (r.enter o .group .operand) (r'.enter o' .group .operand)
  /-- A call is opened. -/
  | call (name : String) :
    Steps K o o' t r r' (r.enter o (.call name []) .argument)
      (r'.enter o' (.call name []) .argument)
  /-- The chain goes on after an operator. -/
  | push {x y : Expr} {op : Operator} (hx : K.Alike x y) (hop : t.binary? = some op) :
    Steps K o o' t r r'
      (do return { r with expecting := .operand, level := ← r.level.push o x op })
      (do return { r' with expecting := .operand, level := ← r'.level.push o' y op })
  /-- What was opened last is closed, and is an operand of the chain around it. -/
  | close {opening opening' : Opening} {outer outer' : Level}
    {opened opened' : List (Opening × Level)} {x y : Expr}
    (h : r.opened = (opening, outer) :: opened)
    (h' : r'.opened = (opening', outer') :: opened') (hx : K.Alike x y) :
    Steps K o o' t r r' (.ok (complete ⟨.operand, outer, opened⟩ x))
      (.ok (complete ⟨.operand, outer', opened'⟩ y))
  /-- The next argument of a call begins. -/
  | argument {name : String} {args args' : List Expr} {opening opening' : Opening}
    {outer outer' : Level} {opened opened' : List (Opening × Level)}
    (h : r.opened = (opening, outer) :: opened) (h' : r'.opened = (opening', outer') :: opened')
    (hargs : K.Args args args') :
    Steps K o o' t r r' (.ok ⟨.argument, .fresh r.level.base, (.call name args, outer) :: opened⟩)
      (.ok ⟨.argument, .fresh r'.level.base, (.call name args', outer') :: opened'⟩)
  /-- The reader stays where it is in the chain. -/
  | stay {expecting expecting' : Expecting} {negated negated' : Bool}
    (hexpecting : expecting.Compared K expecting') (hnegated : negated = negated')
    (hargument : expecting = .argument →
      r.expecting = .argument ∧ negated = r.level.negated) :
    Steps K o o' t r r' (.ok { r with expecting, level := { r.level with negated } })
      (.ok { r' with expecting := expecting', level := { r'.level with negated := negated' } })
  /-- The tokens spell no formula. -/
  | badSyntax (cause : SyntaxError) :
    Steps K o o' t r r' (.error (.badSyntax cause)) (.error (.badSyntax cause))
  /-- A word names no cell. -/
  | badReference (cause : ReferenceError) :
    Steps K o o' t r r' (.error (.badReference cause)) (.error (.badReference cause))

/-! ## Steps -/

/-- A word that is no address is a bad reference. -/
theorem readAddress_eq_error {word : String} {error : FormulaError}
    (h : readAddress word = .error error) : ∃ cause, error = .badReference cause := by
  unfold readAddress at h
  cases hc : Coord.parse word with
  | ok c =>
    rw [hc] at h
    cases h
  | error cause =>
    rw [hc] at h
    cases h
    exact ⟨_, rfl⟩

/-- A word is no operand only if it looks like an address. -/
theorem Expr.ofWord_eq_error {word : String} {error : FormulaError}
    (h : Expr.ofWord word = .error error) : ∃ cause, error = .badReference cause := by
  unfold Expr.ofWord at h
  split at h
  · cases hr : readAddress word with
    | ok c =>
      rw [hr] at h
      cases h
    | error error' =>
      rw [hr] at h
      cases h
      exact readAddress_eq_error hr
  · split at h
    · cases h
    · split at h
      · cases h
      · split at h <;> cases h

namespace Reader.Compared

variable {K : Likeness} {L : Level → Level → Prop} {o o' : Options} {r r' : Reader} {x y : Expr}

/-- What is open in a reader is like itself where everything is. -/
theorem opened_refl (hargs : ∀ args, K.Args args args) (hL : ∀ l, L l l)
    (opened : List (Opening × Level)) :
    List.Forall₂ (fun p p' => p.1.Compared K p'.1 ∧ L p.2 p'.2) opened opened := by
  refine List.forall₂_same.2 fun p _ => ⟨?_, hL p.2⟩
  cases p.1 with
  | group => exact .group
  | call name args => exact .call name (hargs args)

/-- Every reader is like itself. -/
theorem refl (r : Reader) : r.Compared .same Eq r where
  expecting := by
    cases r.expecting with
    | operand => exact .operand
    | argument => exact .argument
    | afterWord word => exact .afterWord word
    | corner word start => exact .corner word start
    | operator x => exact .operator rfl
  level := rfl
  opened := opened_refl (fun _ => rfl) (fun _ => rfl) r.opened

variable (hL : K.Chains o o' L) (h : r.Compared K L r')
include hL h

/-- Where an operand is expected, readers that are compared take steps of the same kind. -/
theorem operandStep (t : Token) :
    r.Steps K o o' t r' (r.operandStep o t) (r'.operandStep o' t) := by
  have hnegated : r.level.negated = r'.level.negated := hL.negated_eq h.level
  unfold Reader.operandStep
  split
  · exact .stay (.operator (hL.signed h.level (K.text _))) hnegated (by rintro ⟨⟩)
  · exact .stay (.afterWord t.text) hnegated (by rintro ⟨⟩)
  · split
    · exact .stay .operand (congrArg not hnegated) (by rintro ⟨⟩)
    · split
      · exact .stay .operand hnegated (by rintro ⟨⟩)
      · split
        · exact .group
        · exact .badSyntax _

/-- Where an argument is expected, readers that are compared take steps of the same kind. -/
theorem argumentStep (hr : r.expecting = .argument) (t : Token) :
    r.Steps K o o' t r' (r.argumentStep o t) (r'.argumentStep o' t) := by
  have hoperand := h.operandStep hL t
  have hnegated : r.level.negated = r'.level.negated := hL.negated_eq h.level
  unfold Reader.argumentStep
  split
  · exact .stay h.expecting hnegated fun _ => ⟨hr, rfl⟩
  · obtain ⟨expecting, level, opened⟩ := r
    obtain ⟨expecting', level', opened'⟩ := r'
    obtain ⟨-, -, hopened : List.Forall₂ _ opened opened'⟩ := h
    cases hopened with
    | nil => exact hoperand
    | @cons p p' _ _ hp hopened =>
      obtain ⟨opening, outer⟩ := p
      obtain ⟨opening', outer'⟩ := p'
      obtain ⟨hopening : opening.Compared K opening', -⟩ := hp
      cases hopening with
      | group => exact hoperand
      | call name hargs =>
        dsimp only
        split
        · exact .close rfl rfl (K.call name hargs)
        · exact hoperand

/-- Where an operator is expected, readers that are compared take steps of the same kind. -/
theorem operatorStep (hx : K.Alike x y) (t : Token) :
    r.Steps K o o' t r' (r.operatorStep o x t) (r'.operatorStep o' y t) := by
  have hclose : K.Alike (r.level.close o x) (r'.level.close o' y) := hL.close h.level hx
  unfold Reader.operatorStep
  split
  · next op hop => exact .push hx hop
  · obtain ⟨expecting, level, opened⟩ := r
    obtain ⟨expecting', level', opened'⟩ := r'
    obtain ⟨-, -, hopened : List.Forall₂ _ opened opened'⟩ := h
    cases hopened with
    | nil => exact .badSyntax _
    | @cons p p' _ _ hp hopened =>
      obtain ⟨opening, outer⟩ := p
      obtain ⟨opening', outer'⟩ := p'
      obtain ⟨hopening : opening.Compared K opening', -⟩ := hp
      cases hopening with
      | group =>
        dsimp only
        split
        · exact .close rfl rfl hclose
        · exact .badSyntax _
      | call name hargs =>
        dsimp only
        split
        · exact .close rfl rfl (K.call name (K.cons hclose hargs))
        · split
          · exact .argument rfl rfl (K.cons hclose hargs)
          · exact .badSyntax _

/-- After a word, readers that are compared take steps of the same kind. -/
theorem wordStep (word : String) (t : Token) :
    r.Steps K o o' t r' (r.wordStep o word t) (r'.wordStep o' word t) := by
  unfold Reader.wordStep
  split
  · exact .call _
  · cases hx : Expr.ofWord word with
    | error error =>
      obtain ⟨cause, rfl⟩ := Expr.ofWord_eq_error hx
      exact .badReference cause
    | ok x =>
      have hoperator := h.operatorStep hL (hL.signed h.level (K.word hx)) t
      dsimp only [bind, Except.bind]
      split
      · exact .stay (.corner _ _) (hL.negated_eq h.level) (by rintro ⟨⟩)
      · exact hoperator

/-- In front of the second corner of a range, readers that are compared take steps of the same kind.
-/
theorem cornerStep (word : String) (start : Coord) (t : Token) :
    r.Steps K o o' t r' (r.cornerStep word start t) (r'.cornerStep word start t) := by
  unfold Reader.cornerStep
  split
  · cases hread : readAddress t.text with
    | error error =>
      obtain ⟨cause, rfl⟩ := readAddress_eq_error hread
      exact .badReference cause
    | ok c =>
      exact .stay (.operator (hL.signed h.level (K.range _))) (hL.negated_eq h.level)
        (by rintro ⟨⟩)
  · exact .badReference _

/-- **Readers that are compared take steps of the same kind.** -/
theorem steps (t : Token) : r.Steps K o o' t r' (r.step o t) (r'.step o' t) := by
  obtain ⟨expecting, level, opened⟩ := r
  obtain ⟨expecting', level', opened'⟩ := r'
  obtain ⟨hexpecting : expecting.Compared K expecting', -, -⟩ := id h
  cases hexpecting with
  | operand => exact h.operandStep hL t
  | argument => exact h.argumentStep hL rfl t
  | afterWord word => exact h.wordStep hL word t
  | corner word start => exact h.cornerStep hL word start t
  | operator hx => exact h.operatorStep hL hx t

omit hL in
/-- An operand that is alike completes readers that are compared. -/
theorem complete (hL : K.Chains o o' L) (hx : K.Alike x y) :
    (r.complete x).Compared K L (r'.complete y) :=
  ⟨.operator (hL.signed h.level hx), h.level, h.opened⟩

/-- Readers that are compared finish alike with operands that are alike. -/
theorem finishOperand (hx : K.Alike x y) :
    SameOutcome K.Alike (r.finishOperand o x) (r'.finishOperand o' y) := by
  have hclose : K.Alike (r.level.close o x) (r'.level.close o' y) := hL.close h.level hx
  obtain ⟨expecting, level, opened⟩ := r
  obtain ⟨expecting', level', opened'⟩ := r'
  obtain ⟨-, -, hopened : List.Forall₂ _ opened opened'⟩ := h
  cases hopened with
  | nil => exact .ok hclose
  | @cons p p' _ _ hp _ =>
    obtain ⟨opening, outer⟩ := p
    obtain ⟨opening', outer'⟩ := p'
    obtain ⟨hopening : opening.Compared K opening', -⟩ := hp
    cases hopening with
    | group | call => exact .error _

/-- At the end of the tokens, readers that are compared come to expressions that are alike, or they
fail with the same error. -/
theorem finish : SameOutcome K.Alike (r.finish o) (r'.finish o') := by
  obtain ⟨expecting, level, opened⟩ := r
  obtain ⟨expecting', level', opened'⟩ := r'
  obtain ⟨hexpecting : expecting.Compared K expecting', -, -⟩ := id h
  cases hexpecting with
  | operand | argument | corner => exact .error _
  | afterWord word =>
    simp only [Reader.finish]
    cases hx : Expr.ofWord word with
    | error error => exact .error error
    | ok x => exact h.finishOperand hL (hL.signed h.level (K.word hx))
  | operator hx => exact h.finishOperand hL hx

end Reader.Compared

/-- The kinds of steps that a reader takes. -/
theorem Reader.exists_steps (o : Options) (r : Reader) (t : Token) :
    ∃ result, r.Steps .same o o t r (r.step o t) result :=
  ⟨_, (Compared.refl r).steps (Likeness.same_chains rfl) t⟩

/-! ## Readers that go together -/

/-- A relation of chains under which readers go together, to chains that may be related less
closely: where something is opened, both have room or both meet the same limit, and for operators
that are allowed it is the same. -/
structure Likeness.Together (K : Likeness) (o o' : Options) (allowed : Operator → Prop)
    (L M : Level → Level → Prop) : Prop extends K.Chains o o' L where
  weaken : ∀ {l l' : Level}, L l l' → M l l'
  fresh : ∀ {l l' : Level}, L l l' → M (.fresh l.base) (.fresh l'.base)
  enter : ∀ {l l' : Level}, L l l' →
    (l.room = 0 ∧ l'.room = 0 ∧ o.maxNesting = o'.maxNesting) ∨
      ∃ room room', l.room = room + 1 ∧ l'.room = room' + 1 ∧ M (.fresh room) (.fresh room')
  push : ∀ {l l' : Level} {x y : Expr} {op : Operator}, L l l' → K.Alike x y → allowed op →
    SameOutcome M (l.push o x op) (l'.push o' y op)

namespace Reader.Compared

variable {K : Likeness} {o o' : Options} {allowed : Operator → Prop} {r r' : Reader}

section
variable {L M : Level → Level → Prop} (hL : K.Together o o' allowed L M) (h : r.Compared K L r')
include hL h

/-- Readers that are compared closely are compared less closely. -/
theorem weaken : r.Compared K M r' :=
  ⟨h.expecting, hL.weaken h.level, h.opened.imp fun _ _ hp => ⟨hp.1, hL.weaken hp.2⟩⟩

/-- Where something is opened, readers are compared inside, or both meet the same limit. -/
theorem enter {opening : Opening} (hopening : opening.Compared K opening) {expecting : Expecting}
    (hexpecting : expecting.Compared K expecting) :
    SameOutcome (Compared K M) (r.enter o opening expecting) (r'.enter o' opening expecting) := by
  have hweak := h.weaken hL
  unfold Reader.enter
  rcases hL.enter h.level with ⟨hroom, hroom', hlimit⟩ | ⟨room, room', hroom, hroom', hfresh⟩
  · rw [hroom, hroom', hlimit]
    exact .error _
  · rw [hroom, hroom']
    exact .ok ⟨hexpecting, hfresh, .cons ⟨hopening, hweak.level⟩ hweak.opened⟩

/-- **Readers go together.** They take a step together, or fail with the same error. -/
theorem step {t : Token} (ht : ∀ op, t.binary? = some op → allowed op) :
    SameOutcome (Compared K M) (r.step o t) (r'.step o' t) := by
  have hweak := h.weaken hL
  have hsteps := h.steps hL.toChains t
  generalize r.step o t = result at hsteps ⊢
  generalize r'.step o' t = result' at hsteps ⊢
  cases hsteps with
  | group => exact h.enter hL .group .operand
  | call name => exact h.enter hL (.call name K.nil) .argument
  | push hx hop =>
    refine (hL.push h.level hx (ht _ hop)).bind fun l l' hl => ?_
    exact .ok ⟨.operand, hl, hweak.opened⟩
  | close hopened hopened' hx =>
    have hcompared := h.opened
    rw [hopened, hopened'] at hcompared
    cases hcompared with
    | cons hp hcompared =>
      refine .ok ⟨.operator (hL.signed hp.2 hx), hL.weaken hp.2, ?_⟩
      exact hcompared.imp fun _ _ hp => ⟨hp.1, hL.weaken hp.2⟩
  | argument hopened hopened' hargs =>
    have hcompared := hweak.opened
    rw [hopened, hopened'] at hcompared
    cases hcompared with
    | cons hp hcompared =>
      exact .ok ⟨.argument, hL.fresh h.level, .cons ⟨.call _ hargs, hp.2⟩ hcompared⟩
  | stay hexpecting hnegated =>
    subst hnegated
    exact .ok ⟨hexpecting, hL.weaken (hL.resign h.level _), hweak.opened⟩
  | badSyntax cause => exact .error _
  | badReference cause => exact .error _

end

variable {L : Nat → Level → Level → Prop} (hL : ∀ n, K.Together o o' allowed (L (n + 1)) (L n))
include hL

/-- A run of steps, of which each may loosen what relates the chains. -/
theorem foldlM {n : Nat} {ts : List Token} (h : r.Compared K (L (n + ts.length)) r')
    (hts : ∀ t ∈ ts, ∀ op, t.binary? = some op → allowed op) :
    SameOutcome (Compared K (L n)) (ts.foldlM (·.step o) r) (ts.foldlM (·.step o') r') := by
  induction ts generalizing r r' with
  | nil => exact .ok h
  | cons t ts ih =>
    rw [List.foldlM_cons, List.foldlM_cons]
    obtain ⟨ht, hts⟩ := List.forall_mem_cons.1 hts
    exact (h.step (hL _) ht).bind fun _ _ h' => ih h' hts

/-- **Readers go together to the end.** They come to expressions that are alike, or they fail with
the same error. -/
theorem read (hchains : K.Chains o o' (L 0)) {ts : List Token} (h : r.Compared K (L ts.length) r')
    (hts : ∀ t ∈ ts, ∀ op, t.binary? = some op → allowed op) :
    SameOutcome K.Alike (r.read o ts) (r'.read o' ts) := by
  rw [← Nat.zero_add ts.length] at h
  exact (h.foldlM hL hts).bind fun _ _ h' => h'.finish hchains

omit hL in
/-- Readers that go together whatever operators come, and stay as closely related. -/
theorem read_of_together {M : Level → Level → Prop} (hM : K.Together o o' (fun _ => True) M M)
    (h : r.Compared K M r') (ts : List Token) :
    SameOutcome K.Alike (r.read o ts) (r'.read o' ts) :=
  read (L := fun _ => M) (fun _ => hM) hM.toChains h fun _ _ _ _ => trivial

end Reader.Compared

/-- Tokens are read alike with any options under which readers go together. -/
theorem Expr.ofTokens_together {K : Likeness} {o o' : Options} {allowed : Operator → Prop}
    {L : Nat → Level → Level → Prop} (hL : ∀ n, K.Together o o' allowed (L (n + 1)) (L n))
    (hchains : K.Chains o o' (L 0)) {ts : List Token}
    (hstart : L ts.length (.fresh o.maxNesting) (.fresh o'.maxNesting))
    (hts : ∀ t ∈ ts, ∀ op, t.binary? = some op → allowed op) :
    SameOutcome K.Alike (Expr.ofTokens o ts) (Expr.ofTokens o' ts) := by
  cases ts with
  | nil => exact .ok (K.text "")
  | cons t ts =>
    have hne : t :: ts ≠ [] := List.cons_ne_nil t ts
    rw [Expr.ofTokens_eq_read hne, Expr.ofTokens_eq_read hne]
    have h : (Reader.start o).Compared K (L (t :: ts).length) (Reader.start o') :=
      ⟨.operand, hstart, .nil⟩
    exact h.read hL hchains hts

/-! ## Readers with the same room -/

/-- Chains under way that may go equally deep, whatever their operands are. -/
structure Level.SameRoom (l l' : Level) : Prop where
  negated : l.negated = l'.negated
  base : l.base = l'.base
  room : l.room = l'.room

/-- **Operands that wait do not matter.** Readers that have opened the same, with the same room, go
together whatever operands they keep. -/
theorem Likeness.any_together (o : Options) :
    Likeness.any.Together o o (fun _ => True) Level.SameRoom Level.SameRoom where
  negated_eq h := h.negated
  resign h negated := ⟨rfl, h.base, h.room⟩
  close _ _ := trivial
  weaken := id
  fresh h := ⟨rfl, h.base, h.base⟩
  enter := by
    rintro l l' ⟨-, -, hroom⟩
    cases hl : l.room with
    | zero => exact .inl ⟨rfl, hroom ▸ hl, rfl⟩
    | succ room => exact .inr ⟨room, room, rfl, hroom ▸ hl, rfl, rfl, rfl⟩
  push := by
    rintro ⟨before, negated, base, room⟩ ⟨before', _, _, _⟩ x y op ⟨rfl, rfl, rfl⟩ - -
    unfold Level.push
    split
    · cases room with
      | zero => exact .error _
      | succ room => exact .ok ⟨rfl, rfl, rfl⟩
    · exact .ok ⟨rfl, rfl, rfl⟩

/-- Chains under way that may go equally deep, with the same operators and operands that are
alike. -/
structure Level.Paired (K : Likeness) (l l' : Level) : Prop extends l.SameRoom l' where
  before : List.Forall₂ (fun p p' => K.Alike p.1 p'.1 ∧ p.2 = p'.2) l.before l'.before

/-- A chain is paired with itself. -/
theorem Level.Paired.refl {K : Likeness} (hK : ∀ x, K.Alike x x) (l : Level) : l.Paired K l :=
  ⟨⟨rfl, rfl, rfl⟩, List.forall₂_same.2 fun p _ => ⟨hK p.1, rfl⟩⟩

/-- **A likeness that operations hand on is kept by reading.** Readers with the same room whose
operands are alike go together. -/
theorem Likeness.paired_together (K : Likeness) (o : Options)
    (hbinary : ∀ (op : Operator) {x x' y y' : Expr}, K.Alike x x' → K.Alike y y' →
      K.Alike (.binary op x y) (.binary op x' y')) :
    K.Together o o (fun _ => True) (Level.Paired K) (Level.Paired K) where
  negated_eq h := h.negated
  resign h negated := ⟨⟨rfl, h.base, h.room⟩, h.before⟩
  close h hx := ((Chain.Related.ofBefore hx .nil h.before).tree o.grouping).toExpr hbinary
  weaken := id
  fresh h := ⟨⟨rfl, h.base, h.base⟩, .nil⟩
  enter h := by
    rcases (any_together o).enter h.toSameRoom with hcut | ⟨room, room', hroom, hroom', hfresh⟩
    · exact .inl hcut
    · exact .inr ⟨room, room', hroom, hroom', hfresh, .nil⟩
  push := by
    rintro l l' x y op ⟨⟨-, hbase, hroom⟩, hbefore⟩ hx -
    have hbefore' : List.Forall₂ (fun p p' => K.Alike p.1 p'.1 ∧ p.2 = p'.2)
      ((x, op) :: l.before) ((y, op) :: l'.before) := .cons ⟨hx, rfl⟩ hbefore
    unfold Level.push
    rw [← hroom]
    split
    · cases l.room with
      | zero => exact .error _
      | succ room => exact .ok ⟨⟨rfl, hbase, rfl⟩, hbefore'⟩
    · exact .ok ⟨⟨rfl, hbase, hbase⟩, hbefore'⟩

/-- Tokens are read to expressions that are alike to themselves, as far as operations hand this
on. -/
theorem Expr.ofTokens_paired (K : Likeness) (o : Options)
    (hbinary : ∀ (op : Operator) {x x' y y' : Expr}, K.Alike x x' → K.Alike y y' →
      K.Alike (.binary op x y) (.binary op x' y')) (ts : List Token) :
    SameOutcome K.Alike (Expr.ofTokens o ts) (Expr.ofTokens o ts) :=
  have h := K.paired_together o hbinary
  Expr.ofTokens_together (L := fun _ => Level.Paired K) (fun _ => h) h.toChains
    ⟨⟨rfl, rfl, rfl⟩, .nil⟩ fun _ _ _ _ => trivial

end Spreadsheet
