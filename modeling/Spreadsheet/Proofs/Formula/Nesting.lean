import Spreadsheet.Evaluation.Reference
import Spreadsheet.Proofs.Formula.Steps

/-!
# The limit on nesting

A reader with more room takes the same steps, unless it is cut off with less
(`Reader.step_deepen`). So reading a formula with a lower limit either fails at that limit or comes
to what it comes to with the higher one (`Expr.ofTokens_deepen`). The evaluation relies on it when
it reads a formula with the levels it has left (`Expr.ofFormulaWithin_eq`).
-/

namespace Spreadsheet

/-! ## More room -/

/-- The same chain with more room. -/
def Level.deepen (k : Nat) (l : Level) : Level :=
  { l with base := l.base + k, room := l.room + k }

/-- The same reader with more room in every chain. -/
def Reader.deepen (k : Nat) (r : Reader) : Reader :=
  ⟨r.expecting, r.level.deepen k, r.opened.map fun (opening, l) => (opening, l.deepen k)⟩

/-- The same options with more nesting allowed. -/
def Options.deepen (k : Nat) (o : Options) : Options :=
  { o with maxNesting := o.maxNesting + k }

/-- More room is grouped in the same way. -/
theorem Options.grouping_deepen (k : Nat) (o : Options) : (o.deepen k).grouping = o.grouping :=
  rfl

/-- A higher limit is more room. -/
theorem Options.deepen_of_le (o : Options) {n n' : Nat} (hle : n ≤ n') :
    Options.deepen (n' - n) { o with maxNesting := n } = { o with maxNesting := n' } := by
  simp only [deepen, Nat.add_sub_of_le hle]

/-- Two results of which the first has met the limit on nesting, or else they are the same. -/
def UpToNesting {α : Type} (o : Options) (f : α → α) (small large : Except FormulaError α) : Prop :=
  small = .error (.nestedTooDeep o.maxNesting) ∨ large = small.map f

variable {o o' : Options} {k : Nat}

@[simp] theorem Reader.level_deepen (r : Reader) : (r.deepen k).level = r.level.deepen k := rfl

/-- A chain with more room takes the same operator, up to the limit. -/
theorem Level.push_deepen (ho : o'.grouping = o.grouping) (l : Level) (x : Expr) (op : Operator) :
    UpToNesting o (Level.deepen k) (l.push o x op) ((l.deepen k).push o' x op) := by
  by_cases hp : o.grouping = .byBinding ∧ op = .power
  · cases hr : l.room with
    | zero => exact .inl (by simp [Level.push, hp, hr])
    | succ room =>
      refine .inr ?_
      simp [Level.push, Level.deepen, ho, hp, hr, Nat.succ_add, Except.map]
  · refine .inr ?_
    simp only [Level.push, Level.deepen, ho, hp, if_false, Except.map]

/-- A reader with more room opens the same, up to the limit. -/
theorem Reader.enter_deepen (r : Reader) (opening : Opening) (expecting : Expecting) :
    UpToNesting o (Reader.deepen k) (r.enter o opening expecting)
      ((r.deepen k).enter o' opening expecting) := by
  cases hr : r.level.room with
  | zero => exact .inl (by simp [Reader.enter, hr])
  | succ room =>
    refine .inr ?_
    simp [Reader.enter, Reader.deepen, Level.deepen, Level.fresh, hr, Nat.succ_add, Except.map]

/-- A chain goes with itself where it has more room. -/
theorem Likeness.deepen_chains (ho : o'.grouping = o.grouping) :
    Likeness.same.Chains o o' fun l l' => l' = l.deepen k where
  negated_eq := by
    rintro l _ rfl
    rfl
  resign := by
    rintro l _ rfl negated
    rfl
  close := by
    rintro l _ x _ rfl rfl
    have hclose : l.close o x = l.close o' x :=
      (Likeness.same_chains ho).close (Eq.refl l) (Eq.refl x)
    exact hclose

/-- A reader is compared to the one with more room. -/
theorem Reader.compared_deepen (k : Nat) (r : Reader) :
    r.Compared .same (fun l l' => l' = l.deepen k) (r.deepen k) := by
  obtain ⟨hexpecting, -, hopened⟩ := Reader.Compared.refl r
  refine ⟨hexpecting, rfl, List.forall₂_map_right_iff.2 (hopened.imp ?_)⟩
  rintro p p' ⟨hopening, hlevel⟩
  exact ⟨hopening, congrArg (Level.deepen k) hlevel.symm⟩

/-- The steps of a reader and of the same one with more room. -/
theorem Reader.steps_deepen (ho : o'.grouping = o.grouping) (k : Nat) (r : Reader) (t : Token) :
    r.Steps .same o o' t (r.deepen k) (r.step o t) ((r.deepen k).step o' t) :=
  (r.compared_deepen k).steps (Likeness.deepen_chains ho) t

/-- **More room, the same steps.** With `k` more levels of room a reader takes the step that it
takes without them, unless that one fails at the limit. -/
theorem Reader.step_deepen (ho : o'.grouping = o.grouping) (r : Reader) (t : Token) :
    UpToNesting o (Reader.deepen k) (r.step o t) ((r.deepen k).step o' t) := by
  have h := r.steps_deepen ho k t
  generalize r.step o t = small at h ⊢
  generalize (r.deepen k).step o' t = large at h ⊢
  obtain ⟨expecting, level, opened⟩ := r
  cases h with
  | group | call => exact Reader.enter_deepen _ _ _
  | push hx hop =>
    cases hx
    rcases level.push_deepen (k := k) ho _ _ with h | h
    · exact .inl (by rw [h]; rfl)
    · refine .inr ?_
      change (level.deepen k).push o' _ _ >>= _ = _
      rw [h]
      cases level.push o _ _ <;> rfl
  | close hopened hopened' hx =>
    cases hopened
    cases hopened'
    cases hx
    exact .inr rfl
  | argument hopened hopened' hargs =>
    cases hopened
    cases hopened'
    cases hargs
    exact .inr rfl
  | stay hexpecting hnegated =>
    cases hnegated
    cases hexpecting with
    | operator hx =>
      cases hx
      exact .inr rfl
    | operand | argument | afterWord | corner => exact .inr rfl
  | badSyntax | badReference => exact .inr rfl

/-- A run of steps with more room. -/
theorem Reader.foldlM_deepen (ho : o'.grouping = o.grouping) (tokens : List Token) (r : Reader) :
    UpToNesting o (Reader.deepen k) (tokens.foldlM (·.step o) r)
      (tokens.foldlM (·.step o') (r.deepen k)) := by
  induction tokens generalizing r with
  | nil => exact .inr rfl
  | cons t tokens ih =>
    simp only [List.foldlM_cons]
    rcases r.step_deepen (k := k) ho t with h | h
    · exact .inl (by rw [h]; rfl)
    · rw [h]
      cases hs : r.step o t with
      | error error => exact .inr rfl
      | ok r' => exact ih r'

/-- A reader with more room finishes alike. -/
theorem Reader.finish_deepen (ho : o'.grouping = o.grouping) (r : Reader) :
    (r.deepen k).finish o' = r.finish o := by
  have h := (r.compared_deepen k).finish (Likeness.deepen_chains ho)
  exact h.eq.symm

/-- What a reader with more room makes of the tokens that are left. -/
theorem Reader.read_deepen (ho : o'.grouping = o.grouping) (tokens : List Token) (r : Reader) :
    UpToNesting o id (r.read o tokens) ((r.deepen k).read o' tokens) := by
  unfold Reader.read
  rcases Reader.foldlM_deepen (k := k) ho tokens r with h | h
  · exact .inl (by rw [h]; rfl)
  · refine .inr ?_
    rw [h]
    cases tokens.foldlM (·.step o) r with
    | error error => rfl
    | ok r' =>
      change (r'.deepen k).finish o' = Except.map id (r'.finish o)
      rw [r'.finish_deepen ho]
      cases r'.finish o <;> rfl

/-- The end of the tokens fails for their syntax or for a word that names no cell. -/
theorem Reader.finish_eq_error {r : Reader} {error : FormulaError}
    (h : r.finish o = .error error) :
    (∃ cause, error = .badSyntax cause) ∨ ∃ cause, error = .badReference cause := by
  have hoperand : ∀ x, r.finishOperand o x = .error error → ∃ cause, error = .badSyntax cause := by
    intro x hx
    unfold Reader.finishOperand at hx
    split at hx <;> cases hx <;> exact ⟨_, rfl⟩
  unfold Reader.finish at h
  split at h
  · cases h
    exact .inl ⟨_, rfl⟩
  · cases h
    exact .inl ⟨_, rfl⟩
  · next word _ =>
    cases hx : Expr.ofWord word with
    | ok x =>
      rw [hx] at h
      exact .inl (hoperand _ h)
    | error error' =>
      rw [hx] at h
      cases h
      exact .inr (Expr.ofWord_eq_error hx)
  · cases h
    exact .inr ⟨_, rfl⟩
  · exact .inl (hoperand _ h)

/-! ## Reading with a lower limit -/

/-- A lower limit on nesting cuts a reading off, or changes nothing. -/
theorem Expr.ofTokens_deepen (tokens : List Token) :
    UpToNesting o id (Expr.ofTokens o tokens) (Expr.ofTokens (o.deepen k) tokens) := by
  cases tokens with
  | nil => exact .inr rfl
  | cons t tokens =>
    have hne : t :: tokens ≠ [] := List.cons_ne_nil t tokens
    rw [Expr.ofTokens_eq_read hne, Expr.ofTokens_eq_read hne]
    exact Reader.read_deepen (o.grouping_deepen k) (t :: tokens) (Reader.start o)

/-- Tokens that are read with a lower limit and with a higher one. -/
theorem Expr.ofTokens_of_le (o : Options) {n n' : Nat} (hle : n ≤ n') (tokens : List Token) :
    Expr.ofTokens { o with maxNesting := n } tokens = .error (.nestedTooDeep n) ∨
      Expr.ofTokens { o with maxNesting := n' } tokens =
        Expr.ofTokens { o with maxNesting := n } tokens := by
  rw [← Options.deepen_of_le o hle]
  refine (Expr.ofTokens_deepen tokens).imp id fun hsame => hsame.trans ?_
  cases Expr.ofTokens { o with maxNesting := n } tokens <;> rfl

/-- A formula that is read with a lower limit and with a higher one. -/
theorem Expr.ofFormula_of_le (o : Options) {n n' : Nat} (hle : n ≤ n') (text : String) :
    Expr.ofFormula { o with maxNesting := n } text = .error (.nestedTooDeep n) ∨
      Expr.ofFormula { o with maxNesting := n' } text =
        Expr.ofFormula { o with maxNesting := n } text :=
  Expr.ofTokens_of_le o hle _

/-- **What is left of the levels is enough or tells.** A formula that is read with the levels that
are left is read as with all the nesting there may be, or the evaluation is too deep. -/
theorem Expr.ofFormulaWithin_eq (o : Options) (left : Nat) (text : String) :
    Expr.ofFormulaWithin o left text = .error (.tooDeep o.maxRecursion) ∨
      Expr.ofFormulaWithin o left text = Expr.ofFormula o text := by
  unfold Expr.ofFormulaWithin
  split
  · next hlt =>
    have h : Expr.ofFormula { o with maxNesting := left } text = .error (.nestedTooDeep left) ∨
        Expr.ofFormula o text = Expr.ofFormula { o with maxNesting := left } text :=
      Expr.ofFormula_of_le o (Nat.le_of_lt hlt) text
    rcases h with h | h
    · exact .inl (by rw [h]; rfl)
    · rw [h]
      cases Expr.ofFormula { o with maxNesting := left } text with
      | ok x => exact .inr rfl
      | error error =>
        cases error with
        | nestedTooDeep limit => exact .inl rfl
        | badSyntax | badReference | rangeAsValue | rangeTooLarge | circular | tooDeep =>
          exact .inr rfl
  · exact .inr rfl

end Spreadsheet
