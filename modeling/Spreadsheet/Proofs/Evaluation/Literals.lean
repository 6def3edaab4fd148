import Spreadsheet.Proofs.Evaluation.Running
import Spreadsheet.Proofs.Formula.Signs
import Spreadsheet.Proofs.Number.Numeral

/-!
# Numerals as formulas

Plain input that is a numeral stands for its number, and so does the formula that is an `=` and the
numeral: the sign in front is an operator there and the rest is one word. This holds unless the
exponent has a sign, too, which is an operator again: `=1e-5` subtracts five from the word `1e`
(`Evaluator.tryEvaluate_numeral`).
-/

namespace Spreadsheet

open Token

/-! ## Blanks around a text -/

/-- Trimming takes blanks away and nothing else. -/
theorem Text.exists_trimChars (cs : List Char) :
    ∃ before after, cs = before ++ (Text.trimChars cs ++ after) ∧
      (∀ c ∈ before, Text.isBlank c = true) ∧ ∀ c ∈ after, Text.isBlank c = true := by
  let inner := cs.dropWhile Text.isBlank
  refine ⟨cs.takeWhile Text.isBlank, (inner.reverse.takeWhile Text.isBlank).reverse, ?_,
    fun _ => List.mem_takeWhile_imp, fun c hc => List.mem_takeWhile_imp (List.mem_reverse.1 hc)⟩
  have hinner : Text.trimChars cs ++ (inner.reverse.takeWhile Text.isBlank).reverse = inner := by
    rw [Text.trimChars, ← List.reverse_append, List.takeWhile_append_dropWhile,
      List.reverse_reverse]
  rw [hinner, List.takeWhile_append_dropWhile]

namespace Token

variable {cs before after : List Char} {ts : List Token}

/-- Blanks may be laid out before a text. -/
theorem Laid.append_blanks (hbefore : ∀ c ∈ before, Text.isBlank c = true) (h : Laid cs ts) :
    Laid (before ++ cs) ts := by
  induction before with
  | nil => exact h
  | cons c before ih =>
    obtain ⟨hc, hbefore⟩ := List.forall_mem_cons.1 hbefore
    exact .blank hc (ih hbefore)

/-- Nothing but blanks has no tokens. -/
theorem laid_blanks (hafter : ∀ c ∈ after, Text.isBlank c = true) : Laid after [] := by
  have h := Laid.nil.append_blanks hafter
  rwa [List.append_nil] at h

/-! ## Tokens of a numeral -/

/-- The characters of a numeral belong to words. -/
theorem joinsWord_of_isNumeralChar {c : Char} (h : Number.IsNumeralChar c) : JoinsWord c := by
  rcases h with hdigit | rfl | rfl | rfl
  · obtain ⟨hquote, hoperator⟩ := not_isOperatorChar (.inr hdigit)
    exact ⟨hquote, hoperator, Text.not_isBlank_of_isDigit hdigit⟩
  all_goals decide

/-- A sign, which is no pair with any other character. -/
theorem laid_sign {sign : Char} (hsign : sign = '+' ∨ sign = '-') (h : Laid cs ts) :
    Laid (sign :: cs) (mark (String.ofList [sign]) :: ts) := by
  have hoperator : isOperatorChar sign = true ∧ ∀ d, (sign, d) ∉ operatorPairs := by
    rcases hsign with rfl | rfl
    · exact ⟨rfl, by simp [operatorPairs]⟩
    · exact ⟨rfl, by simp [operatorPairs]⟩
  have hfits : (mark (String.ofList [sign])).FitsBefore cs :=
    .inr ⟨sign, String.toList_ofList, hoperator.1, fun d _ => hoperator.2 d⟩
  simpa [mark] using Laid.token hfits h

/-- A word, before a sign, blanks or the end. -/
theorem laid_word {rest : List Char} (hne : cs ≠ []) (hjoins : ∀ c ∈ cs, JoinsWord c)
    (hend : ∀ c, rest.head? = some c → ¬JoinsWord c) (h : Laid rest ts) :
    Laid (cs ++ rest) (word (String.ofList cs) :: ts) := by
  simpa [word] using Laid.token (fitsBefore_word hne hjoins hend) h

/-- A word does not go on into blanks. -/
theorem not_joinsWord_of_isBlank (hafter : ∀ c ∈ after, Text.isBlank c = true) :
    ∀ c, after.head? = some c → ¬JoinsWord c := by
  rintro c hc ⟨-, -, hblank⟩
  rw [hafter c (List.mem_of_head? hc)] at hblank
  cases hblank

/-- The sign of a numeral is a sign token in front of the tokens of the rest. -/
theorem exists_signs {cs body : List Char} {negative : Bool}
    (hsign : Number.takeSign cs = (negative, body)) {ts : List Token} (after : List Char)
    (h : Laid (body ++ after) ts) :
    ∃ signs, (∀ t ∈ signs, t.isSign = true) ∧ (negative = true ↔ Odd (minuses signs)) ∧
      Laid (cs ++ after) (signs ++ ts) := by
  unfold Number.takeSign at hsign
  split at hsign <;> cases hsign
  · exact ⟨[mark "-"], by decide, by decide, laid_sign (.inr rfl) h⟩
  · exact ⟨[mark "+"], by decide, by decide, laid_sign (.inl rfl) h⟩
  · exact ⟨[], by decide, by decide, h⟩

/-- A sign in the exponent cuts a numeral into two words. -/
theorem laid_signedExponent {mantissa ds : List Char} {letter sign : Char}
    (hmantissa : ∀ c ∈ mantissa, Number.IsNumeralChar c) (hletter : letter = 'e' ∨ letter = 'E')
    (hsign : sign = '+' ∨ sign = '-') (hne : ds ≠ []) (hdigits : ∀ c ∈ ds, Text.isDigit c = true)
    (hafter : ∀ c ∈ after, Text.isBlank c = true) :
    Laid (mantissa ++ letter :: sign :: ds ++ after)
      [word (String.ofList (mantissa ++ [letter])), mark (String.ofList [sign]),
        word (String.ofList ds)] := by
  have hfront : ∀ c ∈ mantissa ++ [letter], JoinsWord c := by
    refine List.forall_mem_append.2 ⟨fun c hc => joinsWord_of_isNumeralChar (hmantissa c hc), ?_⟩
    exact List.forall_mem_singleton.2 (joinsWord_of_isNumeralChar (.inr (.inr hletter)))
  have hback : ∀ c ∈ ds, JoinsWord c := fun c hc => joinsWord_of_isNumeralChar (.inl (hdigits c hc))
  have hend : ∀ c, (sign :: (ds ++ after)).head? = some c → ¬JoinsWord c := by
    rintro c ⟨⟩
    rcases hsign with rfl | rfl <;> decide
  have hwords := laid_word (by simp) hfront hend (laid_sign hsign
    (laid_word hne hback (not_joinsWord_of_isBlank hafter) (laid_blanks hafter)))
  rwa [List.append_assoc, List.singleton_append, ← List.cons_append, ← List.cons_append,
    ← List.append_assoc] at hwords

end Token

/-! ## Reading a numeral -/

section
variable {o : Options} {w : String} {cs : List Char} {a n : Float}

/-- A numeral begins with a digit or a point. -/
theorem beginsNumeral_ofList {c : Char} (h : Text.isDigit c = true ∨ c = '.') :
    beginsNumeral (String.ofList (c :: cs)) = true := by
  rw [beginsNumeral, String.toList_ofList]
  rcases h with h | rfl
  · simp [h]
  · rfl

/-- A word that begins like a numeral is an operand, whatever follows. -/
theorem Expr.exists_ofWord_ofList {c : Char} (h : Text.isDigit c = true ∨ c = '.') :
    ∃ x, Expr.ofWord (String.ofList (c :: cs)) = .ok x := by
  have hbegins : beginsNumeral (String.ofList (c :: cs)) = true := beginsNumeral_ofList h
  have hshape := not_isAddressShaped_of_beginsNumeral hbegins
  rw [Expr.ofWord, if_neg (by rw [hshape]; exact nofun)]
  split
  · exact ⟨_, rfl⟩
  · split
    · exact ⟨_, rfl⟩
    · split <;> exact ⟨_, rfl⟩

/-- A number word with signs in front is read as the number with these signs. -/
theorem Expr.ofTokens_signs {signs : List Token} (hword : Expr.ofWord w = .ok (.number a))
    (hsigns : ∀ t ∈ signs, t.isSign = true) (hn : n = if Odd (minuses signs) then -a else a) :
    Expr.ofTokens o (signs ++ [word w]) = .ok (.number n) := by
  have hprimary : SpellsPrimary o [word w] (.number a) :=
    ⟨spellsOperand_word hword, by rintro t ⟨⟩; rfl⟩
  have hread := ((hprimary.signed hsigns).readsAs rfl (Nat.le_refl _)).ofTokens
  rw [hread, hn]
  split <;> rfl

/-- An operand, a sign and a word are read as a sum or a difference. -/
theorem Expr.ofTokens_sum {front : List Token} {x y : Expr} {op : Operator}
    (hfront : SpellsOperand o front x) (hword : Expr.ofWord w = .ok y)
    (hop : op = .add ∨ op = .subtract) :
    Expr.ofTokens o (front ++ [mark op.text, word w]) = .ok (.binary op x y) := by
  let link : Link o := {
    mark := mark op.text, op, kind_mark := rfl, ofText?_mark := op.ofText?_text
    tokens := [word w], operand := y, spells := spellsOperand_word hword }
  exact Expr.ofTokens_link hfront link (by rcases hop with rfl | rfl <;> nofun)

variable {s : String}

/-- Input that is a number is the text of one. -/
theorem Number.ofText?_of_ofInput (h : Value.ofInput s = .number n) :
    Number.ofText? s = some n := by
  unfold Value.ofInput at h
  split at h
  · cases h
  · split at h
    · cases h
      assumption
    · cases h

/-- A numeral without a sign in its exponent is read as its number. -/
theorem Expr.ofFormula_numeral (o : Options) (h : Value.ofInput s = .number n)
    (hexponent : ¬ Number.SignedExponent s.toList) :
    Expr.ofFormula o ("=" ++ s) = .ok (.number n) := by
  have htext : Number.ofNumeral? (Text.trimChars s.toList) = some n := Number.ofText?_of_ofInput h
  rcases hsign : Number.takeSign (Text.trimChars s.toList) with ⟨negative, body⟩
  rw [Number.SignedExponent, hsign] at hexponent
  obtain ⟨whole, fraction, rest, hspelled⟩ := Number.exists_spelled hsign htext
  obtain ⟨a, ha, hn⟩ := Number.exists_magnitude hsign htext
  obtain ⟨c, cs, rfl, hc⟩ := hspelled.exists_cons
  have hchars : ∀ d ∈ c :: cs, JoinsWord d := by
    rcases hspelled.exponent_cases with hall | ⟨mantissa, letter, sign, ds, hbody, -, -, hs, -⟩
    · exact fun d hd => joinsWord_of_isNumeralChar (hall d hd)
    · exact absurd ⟨sign, by rw [hbody]; simp, hs⟩ hexponent
  obtain ⟨before, after, hs, hbefore, hafter⟩ := Text.exists_trimChars s.toList
  obtain ⟨signs, hsigns, hodd, hlaid⟩ := exists_signs hsign after
    (laid_word (List.cons_ne_nil c cs) hchars (not_joinsWord_of_isBlank hafter)
      (laid_blanks hafter))
  have htokens : tokenize s = signs ++ [word (String.ofList (c :: cs))] := by
    rw [tokenize, hs, (hlaid.append_blanks hbefore).scan_eq]
  have hword : Expr.ofWord (String.ofList (c :: cs)) = .ok (.number a) := by
    refine Expr.ofWord_of_number ?_
    rw [wordNumber?, if_pos (beginsNumeral_ofList hc), String.toList_ofList]
    exact ha
  rw [Expr.ofFormula, formulaBody_append, htokens]
  refine Expr.ofTokens_signs hword hsigns (hn.trans ?_)
  rw [Number.signed, if_congr hodd rfl rfl]

/-- A numeral with a sign in its exponent is read as a sum or difference: the last operand is the
word after that sign, and the other one is what the tokens before the sign are read to. -/
theorem Expr.exists_ofFormula_numeral (o : Options) (h : Value.ofInput s = .number n)
    (hexponent : Number.SignedExponent s.toList) :
    ∃ front digits op x y, (op = .add ∨ op = .subtract) ∧
      tokenize s = front ++ [mark (Operator.text op), word digits] ∧
      Expr.ofTokens o front = .ok x ∧ Expr.ofWord digits = .ok y ∧
      Expr.ofFormula o ("=" ++ s) = .ok (.binary op x y) := by
  have htext : Number.ofNumeral? (Text.trimChars s.toList) = some n := Number.ofText?_of_ofInput h
  rcases hsign : Number.takeSign (Text.trimChars s.toList) with ⟨negative, body⟩
  rw [Number.SignedExponent, hsign] at hexponent
  obtain ⟨whole, fraction, rest, hspelled⟩ := Number.exists_spelled hsign htext
  rcases hspelled.exponent_cases with
    hall | ⟨mantissa, letter, sign, ds, rfl, hmantissa, hletter, hs, hne, hdigits⟩
  · obtain ⟨c, hc, hs⟩ := hexponent
    exact absurd hs (hall c hc).not_sign
  obtain ⟨op, hop, hmark⟩ : ∃ op : Operator, (op = .add ∨ op = .subtract) ∧
      String.ofList [sign] = op.text := by
    rcases hs with rfl | rfl
    · exact ⟨.add, .inl rfl, rfl⟩
    · exact ⟨.subtract, .inr rfl, rfl⟩
  obtain ⟨before, after, htrim, hbefore, hafter⟩ := Text.exists_trimChars s.toList
  obtain ⟨signs, hsigns, -, hlaid⟩ := exists_signs hsign after
    (laid_signedExponent hmantissa hletter hs hne hdigits hafter)
  have htokens := (hlaid.append_blanks hbefore).scan_eq
  rw [← htrim, hmark] at htokens
  obtain ⟨x, hx⟩ : ∃ x, Expr.ofWord (String.ofList (mantissa ++ [letter])) = .ok x := by
    obtain ⟨c, cs, hcons, hc⟩ := hspelled.exists_cons
    cases mantissa with
    | nil =>
      cases hcons
      rcases hletter with rfl | rfl <;> exact absurd hc (by decide)
    | cons d mantissa =>
      cases hcons
      exact Expr.exists_ofWord_ofList hc
  obtain ⟨y, hy⟩ : ∃ y, Expr.ofWord (String.ofList ds) = .ok y := by
    cases ds with
    | nil => exact absurd rfl hne
    | cons d ds => exact Expr.exists_ofWord_ofList (.inl (hdigits d (.head _)))
  have hprimary : SpellsPrimary o [word (String.ofList (mantissa ++ [letter]))] x :=
    ⟨spellsOperand_word hx, by rintro t ⟨⟩; rfl⟩
  have hfront := hprimary.signed hsigns
  have htokens' : tokenize s = (signs ++ [word (String.ofList (mantissa ++ [letter]))]) ++
      [mark op.text, word (String.ofList ds)] := by
    rw [tokenize, htokens, List.append_assoc]
    rfl
  refine ⟨_, _, op, _, y, hop, htokens', (hfront.readsAs rfl (Nat.le_refl _)).ofTokens, hy, ?_⟩
  rw [Expr.ofFormula, formulaBody_append, htokens', Expr.ofTokens_sum hfront hy hop]

end

/-! ## Numerals as formulas -/

/-- What is read as a number with any limit is evaluated to it, whatever the cells are. -/
theorem Evaluator.tryEvaluate_of_number (e : Evaluator) (cells : Cells) (current : Option Coord)
    {text : String} {n : Float} (h : ∀ o, Expr.ofFormula o text = .ok (.number n)) :
    e.tryEvaluate cells current text = .ok (.number n) := by
  have hwithin : ∀ left, Expr.ofFormulaWithin e.options left text = .ok (.number n) := by
    intro left
    unfold Expr.ofFormulaWithin
    split
    · rw [h]
      rfl
    · exact h _
  have hrun : (formulaValue e (resolve e cells e.options.maxDepth) text).run
      { frame := { current } } = _ := run_formulaValue ..
  rw [hwithin] at hrun
  exact congrArg Prod.fst hrun

/-- **A numeral is the formula of its number.** What plain input stands for as a number is the
result of the input as a formula, in either grouping, with any limits and over any cells, if its
exponent has no sign. With a sign in the exponent the formula is a sum or a difference instead, of
what stands before that sign and the word after it. -/
theorem Evaluator.tryEvaluate_numeral (e : Evaluator) (cells : Cells) (current : Option Coord)
    {s : String} {n : Float} (h : Value.ofInput s = .number n) :
    (¬ Number.SignedExponent s.toList →
      e.tryEvaluate cells current ("=" ++ s) = .ok (.number n)) ∧
    (Number.SignedExponent s.toList → ∃ front digits op x y, (op = .add ∨ op = .subtract) ∧
      tokenize s = front ++ [mark (Operator.text op), word digits] ∧
      Expr.ofTokens e.options front = .ok x ∧ Expr.ofWord digits = .ok y ∧
      Expr.ofFormula e.options ("=" ++ s) = .ok (.binary op x y)) :=
  ⟨fun hexponent => e.tryEvaluate_of_number cells current fun o =>
      Expr.ofFormula_numeral o h hexponent,
    Expr.exists_ofFormula_numeral e.options h⟩

/-- A sign, a fraction and an exponent, with blanks around them. -/
theorem Evaluator.tryEvaluate_numeral_exponent :
    let e : Evaluator := { surroundings := ⟨0, 0⟩ }
    e.tryEvaluate (fun _ => .value .blank) none "= -1.25e2 " = .ok (.number (-125)) := by
  intro e
  have h : Value.ofInput " -1.25e2 " = .number (-125) := by decide +kernel
  exact (e.tryEvaluate_numeral _ none h).1 (by decide +kernel)

/-- The sign of an exponent is an operator. -/
theorem Evaluator.not_tryEvaluate_numeral :
    ¬ ∀ (e : Evaluator) (cells : Cells) (current : Option Coord) (s : String) (n : Float),
      Value.ofInput s = .number n → e.tryEvaluate cells current ("=" ++ s) = .ok (.number n) := by
  intro h
  let e : Evaluator := { surroundings := ⟨0, 0⟩ }
  let cells : Cells := fun _ => .value .blank
  have hsmall := h e cells none "1e-5" (Float.ofBits 0x3ee4f8b588e368f1) (by decide +kernel)
  have hresult : e.tryEvaluate cells none ("=" ++ "1e-5") = .ok (.number (-5)) := by decide +kernel
  rw [hresult] at hsmall
  exact absurd hsmall (by decide +kernel)

end Spreadsheet
