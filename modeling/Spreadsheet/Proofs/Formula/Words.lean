import Spreadsheet.Proofs.Formula.Chains
import Spreadsheet.Proofs.Formula.Lexemes

/-!
# Words of a text

The characters of an address are no quotes, no operators and no blanks, so an address is one word.
Two addresses with a plus sign between them are a sum of two cells (`Expr.ofFormula_sumText`).
-/

namespace Spreadsheet

namespace Token

/-- Two words with a plus sign between them. -/
theorem scan_plus {cs ds : List Char} (hcs : ∀ c ∈ cs, JoinsWord c) (hds : ∀ c ∈ ds, JoinsWord c)
    (hcs' : cs ≠ []) (hds' : ds ≠ []) :
    scan (.word []) (cs ++ '+' :: ds) =
      [word (String.ofList cs), mark "+", word (String.ofList ds)] := by
  have hend : ∀ c, ('+' :: ds).head? = some c → ¬JoinsWord c := by
    rintro c ⟨⟩ ⟨-, hoperator, -⟩
    exact absurd hoperator (by decide)
  have hfirst : scan (.word []) (cs ++ '+' :: ds) =
      word (String.ofList cs) :: scan (.word []) ('+' :: ds) := by
    simpa [word] using (fitsBefore_word hcs' hcs hend).scan_eq
  have hplus : scan (.word []) ('+' :: ds) = mark "+" :: scan (.word []) ds :=
    scan_operator rfl (fun d _ => by simp [operatorPairs]) []
  have hsecond : scan (.word []) ds = [word (String.ofList ds)] := by
    have hfits : (word (String.ofList ds)).FitsBefore [] := fitsBefore_word hds' hds (by simp)
    simpa [word, scan, Under.finish] using hfits.scan_eq
  rw [hfirst, hplus, hsecond]

end Token

/-! ## Addresses as words -/

open Token

/-- No quote and no operator is a letter or a digit. -/
theorem Token.not_isOperatorChar {c : Char} (h : Text.isLetter c = true ∨ Text.isDigit c = true) :
    isQuote c = false ∧ isOperatorChar c = false := by
  have hmarks : ∀ d ∈ '"' :: '\'' :: operatorChars,
      Text.isLetter d = false ∧ Text.isDigit d = false := by
    have hall : ('"' :: '\'' :: operatorChars).all
        (fun d => !Text.isLetter d && !Text.isDigit d) = true := by
      decide +kernel
    intro d hd
    simpa using List.all_eq_true.1 hall d hd
  have hc : c ∉ '"' :: '\'' :: operatorChars := fun hmem => by
    obtain ⟨hletter, hdigit⟩ := hmarks c hmem
    rw [hletter, hdigit] at h
    rcases h with ⟨⟨⟩⟩ | ⟨⟨⟩⟩
  rw [List.mem_cons, List.mem_cons, not_or, not_or] at hc
  refine ⟨?_, ?_⟩
  · simp [isQuote, hc.1, hc.2.1]
  · simpa [isOperatorChar] using hc.2.2

theorem Coord.joinsWord_of_mem_address {c : Coord} {d : Char} (h : d ∈ c.address) :
    JoinsWord d := by
  have hkind : Text.isLetter d = true ∨ Text.isDigit d = true :=
    (List.mem_append.1 h).imp (List.all_eq_true.1 (Column.all_isLetter_letters _) d)
      (List.all_eq_true.1 (Text.all_isDigit_digits _) d)
  obtain ⟨hquote, hoperator⟩ := Token.not_isOperatorChar hkind
  exact ⟨hquote, hoperator, Coord.not_isBlank_of_mem_address h⟩

theorem Coord.address_ne_nil (c : Coord) : c.address ≠ [] :=
  List.append_ne_nil_of_left_ne_nil (Column.letters_ne_nil _) _

theorem formulaBody_append (s : String) : formulaBody ("=" ++ s) = s := by
  have htext : ("=" ++ s).toList = '=' :: s.toList := by simp
  simp only [formulaBody, htext, String.ofList_toList]

/-- The formula that adds two cells. -/
def sumText (c d : Coord) : String :=
  "=" ++ c.toText ++ "+" ++ d.toText

/-- A word that is an operand spells it. -/
theorem spellsOperand_word {o : Options} {w : String} {x : Expr} (h : Expr.ofWord w = .ok x) :
    SpellsOperand o [word w] x := by
  refine spellsOperand_iff.2 ⟨⟨.afterWord w, .fresh o.maxNesting, []⟩, rfl, rfl, rfl, ?_⟩
  have hafter : (⟨.afterWord w, .fresh o.maxNesting, []⟩ : Reader).After o x := Reader.after_word h
  rw [hafter.finish]
  exact congrArg Except.ok (Level.close_of_nil rfl x)

/-- Two operands with an operator between them that takes no level. -/
theorem Expr.ofTokens_link {o : Options} {ts : List Token} {x : Expr} (hx : SpellsOperand o ts x)
    (k : Link o) (hop : k.op ≠ .power) :
    Expr.ofTokens o (ts ++ k.mark :: k.tokens) = .ok (.binary k.op x k.operand) := by
  let c : SpelledChain o := ⟨ts, x, hx, [k]⟩
  have hpowers : Link.powers [k] = 0 := by simp [Link.powers, hop]
  have hread := c.ofTokens_tokens (Eq.refl o.grouping) (by rw [hpowers]; exact Nat.le_refl _)
  have htokens : c.tokens = ts ++ k.mark :: k.tokens := by
    simp [c, SpelledChain.tokens, Link.allTokens]
  have htree : (c.chain.tree o.grouping).toExpr = .binary k.op x k.operand := by
    cases o.grouping with
    | byBinding => rfl
    | leftToRight =>
      change (Chain.groupLeft (.operand x) [(k.op, k.operand)]).toExpr = _
      rw [Chain.groupLeft]
      split <;> rfl
  rw [← htokens, hread, htree]

/-- Two words that are operands, with a plus sign between them, are read as their sum. -/
theorem Expr.ofTokens_plus (o : Options) {v w : String} {x y : Expr} (hx : Expr.ofWord v = .ok x)
    (hy : Expr.ofWord w = .ok y) :
    Expr.ofTokens o [word v, mark "+", word w] = .ok (.binary .add x y) :=
  let plus : Link o := {
    mark := mark "+", op := .add, kind_mark := rfl, ofText?_mark := rfl
    tokens := [word w], operand := y, spells := spellsOperand_word hy }
  Expr.ofTokens_link (spellsOperand_word hx) plus nofun

/-- The formula that adds two cells is read as their sum, with any options. -/
theorem Expr.ofFormula_sumText (o : Options) {c d : Coord} (hc : c.InGrid) (hd : d.InGrid) :
    Expr.ofFormula o (sumText c d) = .ok (.binary .add (.cell c) (.cell d)) := by
  have htext : (sumText c d).toList = '=' :: (c.address ++ '+' :: d.address) := by
    simp [sumText, Coord.toText]
  have hbody : formulaBody (sumText c d) = String.ofList (c.address ++ '+' :: d.address) := by
    simp only [formulaBody, htext]
  have htokens : tokenize (formulaBody (sumText c d)) =
      [word c.toText, mark "+", word d.toText] := by
    rw [hbody, tokenize, String.toList_ofList]
    exact scan_plus (fun _ => Coord.joinsWord_of_mem_address)
      (fun _ => Coord.joinsWord_of_mem_address) c.address_ne_nil d.address_ne_nil
  rw [Expr.ofFormula, htokens]
  exact Expr.ofTokens_plus o (Expr.ofWord_toText hc) (Expr.ofWord_toText hd)

end Spreadsheet
