import Spreadsheet.Proofs.Formula.Nesting

/-!
# Kinds of failures

A circle and an evaluation that is too deep end the whole evaluation (`Circular`, `TooDeep`); every
other failure stays with the cell it arose in (`Contained`). What a text cannot be read for is of
the latter kind (`Expr.contained_ofFormula`), but for a reading that is cut off because too few
levels are left (`Expr.tooDeep_ofFormulaWithin_iff`).
-/

namespace Spreadsheet

section
variable {α β : Type}

/-- An evaluation that went deeper than is allowed. -/
def TooDeep (r : Except FormulaError α) : Prop :=
  ∃ limit, r = .error (.tooDeep limit)

/-- An evaluation that met a circle of cells. -/
def Circular (r : Except FormulaError α) : Prop :=
  ∃ c, r = .error (.circular c)

instance (r : Except FormulaError α) : Decidable (TooDeep r) :=
  match r with
  | .error (.tooDeep limit) => .isTrue ⟨limit, rfl⟩
  | .ok _ | .error (.badSyntax _) | .error (.badReference _) | .error (.rangeAsValue _)
  | .error (.rangeTooLarge ..) | .error (.nestedTooDeep _) | .error (.circular _) => .isFalse nofun

instance (r : Except FormulaError α) : Decidable (Circular r) :=
  match r with
  | .error (.circular c) => .isTrue ⟨c, rfl⟩
  | .ok _ | .error (.badSyntax _) | .error (.badReference _) | .error (.rangeAsValue _)
  | .error (.rangeTooLarge ..) | .error (.nestedTooDeep _) | .error (.tooDeep _) => .isFalse nofun

/-- A result that is neither a circle nor too deep, so that a failure stays with its cell. -/
def Contained (result : Except FormulaError α) : Prop :=
  ∀ error, result = .error error → error.isCycle = false

theorem Contained.ok (a : α) : Contained (.ok a) := nofun

/-- A failure that is no circle is kept to the cell. -/
theorem Contained.error {error : FormulaError} (h : error.isCycle = false) :
    Contained (.error error : Except FormulaError α) := by
  rintro _ ⟨⟩
  exact h

/-- Readings that keep their failures may follow each other. -/
theorem Contained.bind {result : Except FormulaError α}
    {f : α → Except FormulaError β} (h : Contained result) (hf : ∀ a, Contained (f a)) :
    Contained (result >>= f) := by
  cases result with
  | ok a => exact hf a
  | error error => exact .error (h error rfl)

/-- What is neither a circle nor too deep stays with its cell. -/
theorem contained_of_not {r : Except FormulaError α} (hc : ¬ Circular r) (hd : ¬ TooDeep r) :
    Contained r := by
  intro error he
  cases error with
  | circular c => exact absurd ⟨c, he⟩ hc
  | tooDeep limit => exact absurd ⟨limit, he⟩ hd
  | _ => rfl

end

/-! ## Why a text is no formula -/

section
variable {o : Options}

/-- A chain fails at its limit alone. -/
theorem Level.contained_push (l : Level) (x : Expr) (op : Operator) :
    Contained (l.push o x op) := by
  unfold Level.push
  split
  · split
    · exact .error rfl
    · exact .ok _
  · exact .ok _

/-- Opening something fails at the limit alone. -/
theorem Reader.contained_enter (r : Reader) (opening : Opening) (expecting : Expecting) :
    Contained (r.enter o opening expecting) := by
  unfold Reader.enter
  split
  · exact .error rfl
  · exact .ok _

/-- A token fails as the text does, never by a circle. -/
theorem Reader.contained_step (r : Reader) (t : Token) : Contained (r.step o t) := by
  obtain ⟨result, h⟩ := r.exists_steps o t
  generalize r.step o t = outcome at h ⊢
  cases h with
  | group | call => exact r.contained_enter _ _
  | push => exact (r.level.contained_push _ _).bind fun l => .ok _
  | close | argument | stay => exact .ok _
  | badSyntax | badReference => exact .error rfl

/-- The end of a formula fails as the text does, never by a circle. -/
theorem Reader.contained_finish (r : Reader) : Contained (r.finish o) := by
  intro error h
  rcases Reader.finish_eq_error h with ⟨_, rfl⟩ | ⟨_, rfl⟩ <;> rfl

/-- **No text is a circle.** What keeps a text from being a formula stays with its cell. -/
theorem Expr.contained_ofFormula (o : Options) (text : String) :
    Contained (Expr.ofFormula o text) := by
  rw [Expr.ofFormula, Expr.ofTokens_eq]
  split
  · exact .ok _
  · refine Contained.bind ?_ Reader.contained_finish
    generalize Reader.start o = r
    induction Token.tokenize (formulaBody text) generalizing r with
    | nil => exact .ok r
    | cons t tokens ih =>
      rw [List.foldlM_cons]
      exact (r.contained_step t).bind ih

/-- What is left of the levels is too little if it is less than the limit on nesting and cuts the
reading off. -/
theorem Expr.tooDeep_ofFormulaWithin_iff {left : Nat} {text : String} :
    TooDeep (Expr.ofFormulaWithin o left text) ↔ left < o.maxNesting ∧
      ∃ limit, Expr.ofFormula { o with maxNesting := left } text =
        .error (.nestedTooDeep limit) := by
  unfold Expr.ofFormulaWithin
  split
  · next hlt =>
    have hcontained := Expr.contained_ofFormula { o with maxNesting := left } text
    cases hr : Expr.ofFormula { o with maxNesting := left } text with
    | ok x => exact ⟨nofun, nofun⟩
    | error error =>
      cases error with
      | nestedTooDeep limit => exact ⟨fun _ => ⟨hlt, limit, rfl⟩, fun _ => ⟨_, rfl⟩⟩
      | tooDeep limit => cases hcontained _ hr
      | badSyntax | badReference | rangeAsValue | rangeTooLarge | circular =>
        exact ⟨nofun, nofun⟩
  · next hlt =>
    refine ⟨?_, fun h => absurd h.1 hlt⟩
    rintro ⟨limit, hdeep⟩
    cases Expr.contained_ofFormula o text _ hdeep

end

end Spreadsheet
