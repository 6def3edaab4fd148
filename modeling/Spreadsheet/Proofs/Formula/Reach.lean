import Spreadsheet.Proofs.Formula.Failure

/-!
# The nesting that is reached

What a reader holds tells how many parentheses, calls and right operands of powers are open in it
(`Reader.nesting`), and every chain has the room that the limit leaves at its place (`Rooms`). So a
reader is cut off only where it would nest one level deeper than the limit (`Reader.step_cut`), and
a formula can be read with any number of levels that is no less than the nesting that is reached in
it (`Expr.not_tooDeep_ofFormulaWithin`).
-/

namespace Spreadsheet

/-! ## What is open -/

/-- The right operands of powers that are open in a chain: where operators bind, those of the powers
just before the operand that is read. -/
def Level.powers (o : Options) (l : Level) : Nat :=
  if o.grouping = .byBinding then (l.before.takeWhile fun operand => operand.2 == .power).length
  else 0

/-- The parentheses, calls and right operands of powers that are open in a reader. -/
def Reader.nesting (o : Options) (r : Reader) : Nat :=
  r.level.powers o + r.opened.foldr (fun outer n => outer.2.powers o + 1 + n) 0

/-- The greatest nesting of a reader on its way through tokens, up to one that it cannot read. -/
def Reader.reach (o : Options) : List Token → Reader → Nat
  | [], r => r.nesting o
  | t :: tokens, r =>
    max (r.nesting o) (match r.step o t with
      | .ok r' => reach o tokens r'
      | .error _ => 0)

/-- The greatest nesting that is reached when a formula is read. -/
def formulaNesting (o : Options) (text : String) : Nat :=
  Reader.reach o (Token.tokenize (formulaBody text)) (Reader.start o)

example : formulaNesting { grouping := .byBinding } "=2^3^(1+SUM(4^5))*(6)" = 5 := by decide +kernel

variable {o : Options} {k : Nat}

@[simp] theorem Level.powers_fresh (n : Nat) : (fresh n).powers o = 0 := by
  simp [powers, fresh]

@[simp] theorem Level.powers_deepen (l : Level) :
    (l.deepen k).powers (o.deepen k) = l.powers o := rfl

@[simp] theorem Reader.nesting_deepen (r : Reader) :
    (r.deepen k).nesting (o.deepen k) = r.nesting o := by
  simp [nesting, deepen, List.foldr_map]

/-- A power nests one level deeper where operators bind, and every other operator ends what is open
in its chain. -/
theorem Level.powers_push (l : Level) (x : Expr) (op : Operator) :
    ({ l with before := (x, op) :: l.before } : Level).powers o =
      if o.grouping = .byBinding ∧ op = .power then l.powers o + 1 else 0 := by
  unfold powers
  by_cases hg : o.grouping = .byBinding <;> by_cases hop : op = .power <;> simp [hg, hop]

/-- The nesting of a reader is within its reach. -/
theorem Reader.nesting_le_reach (tokens : List Token) (r : Reader) :
    r.nesting o ≤ r.reach o tokens := by
  cases tokens with
  | nil => exact Nat.le_refl _
  | cons t tokens => exact Nat.le_max_left ..

/-! ## The room of chains -/

/-- A chain and those around it have the room that the limit leaves. -/
inductive Rooms (o : Options) : Level → List (Opening × Level) → Prop
  | outermost {l : Level} (hbase : l.base = o.maxNesting)
    (hroom : l.room + l.powers o = l.base) : Rooms o l []
  | inside {l outer : Level} {opening : Opening} {opened : List (Opening × Level)}
    (hbase : l.base + 1 = outer.room) (hroom : l.room + l.powers o = l.base)
    (h : Rooms o outer opened) : Rooms o l ((opening, outer) :: opened)

/-- A chain at the same place has the same room. -/
theorem Rooms.of_base {l l' : Level} {opened : List (Opening × Level)} (h : Rooms o l opened)
    (hbase : l'.base = l.base) (hroom : l'.room + l'.powers o = l'.base) : Rooms o l' opened := by
  cases h with
  | outermost hbase' => exact .outermost (hbase.trans hbase') hroom
  | inside hbase' _ h => exact .inside (by rw [hbase, hbase']) hroom h

/-- The room of a chain and its open powers make up what it began with. -/
theorem Rooms.room_add_powers {l : Level} {opened : List (Opening × Level)} (h : Rooms o l opened) :
    l.room + l.powers o = l.base := by
  cases h with
  | outermost _ hroom | inside _ hroom => exact hroom

/-- **The room is what the nesting leaves of the limit.** -/
theorem Rooms.room_add_nesting (expecting : Expecting) {l : Level}
    {opened : List (Opening × Level)} (h : Rooms o l opened) :
    l.room + Reader.nesting o ⟨expecting, l, opened⟩ = o.maxNesting := by
  induction h with
  | outermost hbase hroom => simp [Reader.nesting, hroom, hbase]
  | inside hbase hroom _ ih =>
    simp only [Reader.nesting, List.foldr_cons] at ih ⊢
    omega

/-- A reader begins with all the room. -/
theorem Reader.rooms_start (o : Options) : Rooms o (start o).level (start o).opened :=
  .outermost rfl (by simp [start]; rfl)

/-- An operator leaves the rooms of a chain right. -/
theorem Rooms.push {l l' : Level} {opened : List (Opening × Level)} (h : Rooms o l opened)
    {x : Expr} {op : Operator} (hpush : l.push o x op = .ok l') : Rooms o l' opened := by
  have hpowers := l.powers_push (o := o) x op
  have hroom := h.room_add_powers
  unfold Level.push at hpush
  by_cases hp : o.grouping = .byBinding ∧ op = .power
  · rw [if_pos hp] at hpush hpowers
    cases hr : l.room with
    | zero =>
      rw [hr] at hpush
      cases hpush
    | succ room =>
      rw [hr] at hpush
      cases hpush
      refine h.of_base rfl ?_
      change room + Level.powers o { l with before := (x, op) :: l.before } = l.base
      omega
  · rw [if_neg hp] at hpush hpowers
    cases hpush
    refine h.of_base rfl ?_
    change l.base + Level.powers o { l with before := (x, op) :: l.before } = l.base
    omega

/-- Opening something leaves the rooms right, inside and outside. -/
theorem Rooms.enter {r r' : Reader} {opening : Opening} {expecting : Expecting}
    (h : Rooms o r.level r.opened) (henter : r.enter o opening expecting = .ok r') :
    Rooms o r'.level r'.opened := by
  unfold Reader.enter at henter
  cases hr : r.level.room with
  | zero =>
    rw [hr] at henter
    cases henter
  | succ room =>
    rw [hr] at henter
    cases henter
    exact .inside hr.symm (by simp; rfl) h

/-- Every step leaves chains with the room of their places. -/
theorem Rooms.step {r r' : Reader} {t : Token} (h : Rooms o r.level r.opened)
    (hstep : r.step o t = .ok r') : Rooms o r'.level r'.opened := by
  obtain ⟨result, hsteps⟩ := r.exists_steps o t
  rw [hstep] at hsteps
  generalize houtcome : Except.ok r' = outcome at hsteps
  cases hsteps with
  | group | call => exact h.enter houtcome.symm
  | push =>
    obtain ⟨l, hpush, ⟨⟩⟩ := exists_of_bind_eq_ok houtcome.symm
    exact h.push hpush
  | close hopened =>
    cases houtcome
    rw [hopened] at h
    cases h with
    | inside _ _ h => exact h
  | argument hopened =>
    cases houtcome
    rw [hopened] at h
    cases h with
    | inside hbase _ h => exact .inside hbase (by simp; rfl) h
  | stay =>
    cases houtcome
    exact h.of_base rfl h.room_add_powers
  | badSyntax | badReference => cases houtcome

/-! ## Where a reader is cut off -/

/-- A reader that meets the limit has no room left, and with a higher limit it nests one level more.
-/
theorem Reader.enter_cut {r : Reader} {opening : Opening} {expecting : Expecting} {limit : Nat}
    (hk : 0 < k) (hcut : r.enter o opening expecting = .error (.nestedTooDeep limit)) :
    r.level.room = 0 ∧ ∃ r', (r.deepen k).enter (o.deepen k) opening expecting = .ok r' ∧
      r'.nesting (o.deepen k) = r.nesting o + 1 := by
  unfold Reader.enter at hcut
  cases hr : r.level.room with
  | succ room =>
    rw [hr] at hcut
    cases hcut
  | zero =>
    have hroom : (r.deepen k).level.room = k - 1 + 1 := by
      change r.level.room + k = _
      omega
    refine ⟨rfl, ⟨expecting, .fresh (k - 1), (opening, (r.deepen k).level) :: (r.deepen k).opened⟩,
      by rw [Reader.enter, hroom], ?_⟩
    have hnesting := r.nesting_deepen (o := o) (k := k)
    unfold Reader.nesting at hnesting ⊢
    rw [List.foldr_cons, Level.powers_fresh]
    dsimp only
    omega

/-- A power that meets the limit has no room left, and with a higher limit it nests one level more.
-/
theorem Level.push_cut {l : Level} {x : Expr} {op : Operator} {limit : Nat} (hk : 0 < k)
    (hcut : l.push o x op = .error (.nestedTooDeep limit)) :
    l.room = 0 ∧ ∃ l', (l.deepen k).push (o.deepen k) x op = .ok l' ∧
      l'.powers (o.deepen k) = l.powers o + 1 := by
  unfold Level.push at hcut
  by_cases hp : o.grouping = .byBinding ∧ op = .power
  · rw [if_pos hp] at hcut
    cases hr : l.room with
    | succ room =>
      rw [hr] at hcut
      cases hcut
    | zero =>
      have hroom : (l.deepen k).room = k - 1 + 1 := by
        change l.room + k = _
        omega
      have hp' : (o.deepen k).grouping = .byBinding ∧ op = .power := hp
      refine ⟨rfl, { l.deepen k with
        before := (x, op) :: l.before, room := k - 1, negated := false },
        by rw [Level.push, if_pos hp', hroom]; rfl, ?_⟩
      have hpowers := l.powers_push (o := o) x op
      rw [if_pos hp] at hpowers
      exact hpowers
  · rw [if_neg hp] at hcut
    cases hcut

/-- **A reader is cut off where it would nest deeper.** A step that fails at the limit has no room
left, and with more room it nests one level deeper. -/
theorem Reader.step_cut {r : Reader} {t : Token} {limit : Nat} (hk : 0 < k)
    (hcut : r.step o t = .error (.nestedTooDeep limit)) :
    r.level.room = 0 ∧ ∃ r', (r.deepen k).step (o.deepen k) t = .ok r' ∧
      r'.nesting (o.deepen k) = r.nesting o + 1 := by
  have hsteps := r.steps_deepen (o.grouping_deepen k) k t
  rw [hcut] at hsteps
  generalize hsmall : Except.error (FormulaError.nestedTooDeep limit) = small at hsteps
  generalize (r.deepen k).step (o.deepen k) t = large at hsteps
  cases hsteps with
  | group | call => exact r.enter_cut hk hsmall.symm
  | push hx =>
    cases hx
    cases hpush : r.level.push o _ _ with
    | ok l =>
      rw [hpush] at hsmall
      cases hsmall
    | error error =>
      rw [hpush] at hsmall
      cases hsmall
      obtain ⟨hroom, l', hl', hpowers⟩ := Level.push_cut hk hpush
      refine ⟨hroom, { r.deepen k with expecting := .operand, level := l' }, ?_, ?_⟩
      · change (r.level.deepen k).push (o.deepen k) _ _ >>= _ = _
        rw [hl']
        rfl
      · have hnesting := r.nesting_deepen (o := o) (k := k)
        unfold Reader.nesting at hnesting ⊢
        rw [Reader.level_deepen, Level.powers_deepen] at hnesting
        change l'.powers (o.deepen k) + (r.deepen k).opened.foldr _ 0 = _
        omega
  | close | argument | stay | badSyntax | badReference => cases hsmall

/-- A reader is not cut off on its way through tokens if with more room it reaches no nesting above
the limit. -/
theorem Reader.foldlM_of_reach (hk : 0 < k) (tokens : List Token) {r : Reader}
    (hr : Rooms o r.level r.opened) (h : (r.deepen k).reach (o.deepen k) tokens ≤ o.maxNesting)
    (limit : Nat) : tokens.foldlM (·.step o) r ≠ .error (.nestedTooDeep limit) := by
  induction tokens generalizing r with
  | nil => nofun
  | cons t tokens ih =>
    rw [List.foldlM_cons]
    have hreach := Nat.le_trans (Nat.le_max_right ..) h
    cases hs : r.step o t with
    | ok r' =>
      have hlarge : (r.deepen k).step (o.deepen k) t = .ok (r'.deepen k) := by
        rcases r.step_deepen (k := k) (o.grouping_deepen k) t with hcut | hsame
        · rw [hs] at hcut
          cases hcut
        · rw [hsame, hs]
          rfl
      rw [hlarge] at hreach
      exact ih (hr.step hs) hreach
    | error error =>
      rintro ⟨⟩
      obtain ⟨hroom, r', hlarge, hnesting⟩ := Reader.step_cut hk hs
      rw [hlarge] at hreach
      have hle := Nat.le_trans (r'.nesting_le_reach tokens) hreach
      have hfull := hr.room_add_nesting r.expecting
      rw [hroom, Nat.zero_add] at hfull
      change r.nesting o = _ at hfull
      omega

/-- Tokens are not cut off if with a higher limit no nesting above the lower one is reached. -/
theorem Expr.ofTokens_of_reach (hk : 0 < k) (tokens : List Token)
    (h : Reader.reach (o.deepen k) tokens (Reader.start (o.deepen k)) ≤ o.maxNesting)
    (limit : Nat) : Expr.ofTokens o tokens ≠ .error (.nestedTooDeep limit) := by
  rw [Expr.ofTokens_eq]
  split
  · nofun
  · cases hfold : tokens.foldlM (·.step o) (Reader.start o) with
    | error error =>
      rintro ⟨⟩
      exact Reader.foldlM_of_reach hk tokens (Reader.rooms_start o) h limit hfold
    | ok r =>
      intro hfinish
      rcases Reader.finish_eq_error hfinish with ⟨_, ⟨⟩⟩ | ⟨_, ⟨⟩⟩

/-- **Levels that cover the nesting are enough.** A formula can be read with the levels that are
left if the nesting that is reached in it is no more. -/
theorem Expr.not_tooDeep_ofFormulaWithin {left : Nat} {text : String}
    (h : formulaNesting o text ≤ left) : ¬ TooDeep (Expr.ofFormulaWithin o left text) := by
  rw [Expr.tooDeep_ofFormulaWithin_iff]
  rintro ⟨hlt, limit, hcut⟩
  have ho : Options.deepen (o.maxNesting - left) { o with maxNesting := left } = o :=
    Options.deepen_of_le o (Nat.le_of_lt hlt)
  refine Expr.ofTokens_of_reach (Nat.sub_pos_of_lt hlt) _ ?_ limit hcut
  rw [ho]
  exact h

end Spreadsheet
