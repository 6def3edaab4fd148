import Spreadsheet.Proofs.Formula.Lexemes

/-!
# Tokens joined by blanks

Tokens with a blank between each two and the next are read back as they are, if each of them can be
read alone and only the last one is quoted text without its closing quote (`Token.Lexical`). These
are the lists of tokens that texts are read to (`Token.tokenize_joined`).
-/

namespace Spreadsheet.Token

/-! ## Tokens that stand alone -/

/-- Whether a token is a word, an operator or quoted text that ends with its quote. -/
def Closed (t : Token) : Prop :=
  match t.kind with
  | .word => t.text ≠ "" ∧ ∀ c ∈ t.text.toList, JoinsWord c
  | .operator =>
    (∃ c d, t.text.toList = [c, d] ∧ (c, d) ∈ operatorPairs) ∨
      ∃ c, t.text.toList = [c] ∧ isOperatorChar c = true
  | .text => ∃ q inner, isQuote q = true ∧ q ∉ inner ∧ t.text.toList = q :: (inner ++ [q])

/-- Whether a token is quoted text that lacks its closing quote. -/
def Unclosed (t : Token) : Prop :=
  t.kind = .text ∧ ∃ q inner, isQuote q = true ∧ q ∉ inner ∧ t.text.toList = q :: inner

/-- Whether tokens are such as a text is read to. -/
def Lexical : List Token → Prop
  | [] => True
  | [t] => t.Closed ∨ t.Unclosed
  | t :: u :: ts => t.Closed ∧ Lexical (u :: ts)

variable {t : Token} {ts : List Token} {cs after : List Char}

/-- No blank joins a word or makes a pair with an operator. -/
theorem not_joins_of_isBlank {d : Char} (h : Text.isBlank d = true) :
    ¬JoinsWord d ∧ ∀ c, (c, d) ∉ operatorPairs := by
  refine ⟨fun hjoins => ?_, fun c hpair => ?_⟩
  · rw [hjoins.2.2] at h
    cases h
  · have hoperator := (isOperatorChar_of_mem_operatorPairs hpair).2
    rw [(not_isQuote_of_isOperatorChar hoperator).2] at h
    cases h

/-- A closed token ends before a blank and at the end of the text. -/
theorem Closed.fitsBefore (h : t.Closed)
    (hafter : ∀ d, after.head? = some d → Text.isBlank d = true) : t.FitsBefore after := by
  obtain ⟨kind, text⟩ := t
  cases kind with
  | word => exact ⟨h.1, h.2, fun d hd => (not_joins_of_isBlank (hafter d hd)).1⟩
  | operator =>
    refine h.imp id ?_
    rintro ⟨c, htext, hoperator⟩
    exact ⟨c, htext, hoperator, fun d hd => (not_joins_of_isBlank (hafter d hd)).2 c⟩
  | text =>
    obtain ⟨q, inner, hquote, hinner, htext⟩ := h
    refine ⟨q, inner, hquote, hinner, ?_, .inl htext⟩
    rw [unquoted, htext, unquoteChars_closed]

theorem Unclosed.fitsBefore (h : t.Unclosed) : t.FitsBefore [] := by
  obtain ⟨kind, text⟩ := t
  obtain ⟨rfl, q, inner, hquote, hinner, htext⟩ := h
  refine ⟨q, inner, hquote, hinner, ?_, .inr ⟨htext, rfl⟩⟩
  rw [unquoted, htext, unquoteChars_unclosed hinner]

/-- A token in its place is closed unless nothing follows it. -/
theorem FitsBefore.closed (h : t.FitsBefore after) : t.Closed ∨ t.Unclosed ∧ after = [] := by
  obtain ⟨kind, text⟩ := t
  cases kind with
  | word => exact .inl ⟨h.1, h.2.1⟩
  | operator =>
    refine .inl (h.imp id ?_)
    rintro ⟨c, htext, hoperator, -⟩
    exact ⟨c, htext, hoperator⟩
  | text =>
    obtain ⟨q, inner, hquote, hinner, -, htext | ⟨htext, hnil⟩⟩ := h
    · exact .inl ⟨q, inner, hquote, hinner, htext⟩
    · exact .inr ⟨⟨rfl, q, inner, hquote, hinner, htext⟩, hnil⟩

/-- The tokens that a text is laid out in are lexical. -/
theorem Laid.lexical (h : Laid cs ts) : Lexical ts := by
  induction h with
  | nil => trivial
  | blank _ _ ih => exact ih
  | @token t cs ts hfits hlaid ih =>
    cases ts with
    | nil => exact hfits.closed.imp id And.left
    | cons u ts =>
      refine ⟨hfits.closed.resolve_right ?_, ih⟩
      rintro ⟨-, rfl⟩
      cases hlaid.scan_eq

/-! ## Joining -/

/-- The tokens with one blank between each two. -/
def joined (ts : List Token) : String :=
  " ".intercalate (ts.map (·.text))

/-- Lexical tokens are laid out in the text that they are joined to. -/
theorem Lexical.laid_joined (h : Lexical ts) : Laid (joined ts).toList ts := by
  induction ts using Lexical.induct with
  | case1 => exact .nil
  | case2 t =>
    have hfits : t.FitsBefore [] := h.elim (·.fitsBefore nofun) Unclosed.fitsBefore
    have htext : (joined [t]).toList = t.text.toList ++ [] := by simp [joined]
    exact htext ▸ .token hfits .nil
  | case3 t u ts ih =>
    have htext : (joined (t :: u :: ts)).toList =
        t.text.toList ++ ' ' :: (joined (u :: ts)).toList := by
      simp [joined]
    have hfits : t.FitsBefore (' ' :: (joined (u :: ts)).toList) :=
      h.1.fitsBefore (by rintro d ⟨⟩; rfl)
    exact htext ▸ .token hfits (.blank rfl (ih h.2))

/-- **Joined tokens are read back.** Tokens that are joined by blanks are read back if and only if
they are lexical: each is a word, an operator or quoted text, and only of the last one may the
closing quote be missing. The tokens of every text are so. -/
theorem tokenize_joined :
    (∀ ts, tokenize (joined ts) = ts ↔ Lexical ts) ∧
      ∀ s, tokenize (joined (tokenize s)) = tokenize s := by
  have hread : ∀ ts, Lexical ts → tokenize (joined ts) = ts := fun ts h => h.laid_joined.scan_eq
  have hlexical : ∀ s, Lexical (tokenize s) := fun s => (laid_scan s.toList).lexical
  refine ⟨fun ts => ⟨fun h => ?_, hread ts⟩, fun s => hread _ (hlexical s)⟩
  rw [← h]
  exact hlexical (joined ts)

example : joined (tokenize "a<=-'b \"c'>\"d e") = "a <= - 'b \"c' > \"d e" := by decide +kernel

end Spreadsheet.Token
