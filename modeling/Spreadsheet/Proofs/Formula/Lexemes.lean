import Spreadsheet.Proofs.Formula.Printing

/-!
# How tokens lie in a text

A text is its tokens with blanks around them (`Token.Laid`): each token is well formed, and it ends
where it does because of what follows (`Token.FitsBefore`). There is one way only to lay out a text
so, and it is the one that is read (`Token.laid_iff`). So nothing but blanks outside of quotes is
lost, and each token is known from the place where it stands (`Token.tokenize_faithful`).
-/

namespace Spreadsheet.Token

/-! ## Characters -/

/-- Whether a character belongs to the word that is under way. -/
def JoinsWord (c : Char) : Prop :=
  isQuote c = false ∧ isOperatorChar c = false ∧ Text.isBlank c = false

instance : DecidablePred JoinsWord :=
  fun _ => inferInstanceAs (Decidable (_ ∧ _ ∧ _))

/-- No operator is a quote or a blank. -/
theorem not_isQuote_of_isOperatorChar {c : Char} (h : isOperatorChar c = true) :
    isQuote c = false ∧ Text.isBlank c = false := by
  have hall : operatorChars.all (fun d => !isQuote d && !Text.isBlank d) = true := by
    decide +kernel
  simpa using List.all_eq_true.1 hall c (List.contains_iff_mem.1 h)

/-- No quote is a blank. -/
theorem not_isBlank_of_isQuote {c : Char} (h : isQuote c = true) : Text.isBlank c = false := by
  rw [isQuote, Bool.or_eq_true, beq_iff_eq, beq_iff_eq] at h
  rcases h with rfl | rfl <;> rfl

/-- Both characters of a pair are operators. -/
theorem isOperatorChar_of_mem_operatorPairs {c d : Char} (h : (c, d) ∈ operatorPairs) :
    isOperatorChar c = true ∧ isOperatorChar d = true := by
  have hall : operatorPairs.all (fun p => isOperatorChar p.1 && isOperatorChar p.2) = true := by
    decide +kernel
  simpa using List.all_eq_true.1 hall (c, d) h

/-! ## Scanning -/

variable {c d q : Char} {cs rest after : List Char} {t : Token} {ts us : List Token}

/-- A quote ends the word before it and begins quoted text. -/
theorem scan_quote (h : isQuote q = true) (read : List Char) :
    scan (.word read) (q :: rest) = (Under.word read).finish ++ scan (.quoted q [q]) rest := by
  rw [scan.eq_def]
  simp only [h]
  rfl

/-- A blank ends the word before it. -/
theorem scan_blank (h : Text.isBlank c = true) (hquote : isQuote c = false)
    (hoperator : isOperatorChar c = false) (read : List Char) :
    scan (.word read) (c :: rest) = (Under.word read).finish ++ scan (.word []) rest := by
  rw [scan.eq_def]
  simp only [hquote, hoperator, h]
  rfl

/-- A pair of characters is one operator. -/
theorem scan_pair (h : (c, d) ∈ operatorPairs) (read : List Char) :
    scan (.word read) (c :: d :: rest) =
      (Under.word read).finish ++ mark (String.ofList [c, d]) :: scan (.word []) rest := by
  have hoperator := (isOperatorChar_of_mem_operatorPairs h).1
  have hquote := (not_isQuote_of_isOperatorChar hoperator).1
  have hpair : operatorPairs.contains (c, d) = true := List.contains_iff_mem.2 h
  rw [scan]
  simp only [hquote, hoperator, hpair]
  rfl

/-- An operator character is an operator by itself, unless it makes a pair with the next one. -/
theorem scan_operator (h : isOperatorChar c = true)
    (hnext : ∀ d, rest.head? = some d → (c, d) ∉ operatorPairs) (read : List Char) :
    scan (.word read) (c :: rest) =
      (Under.word read).finish ++ mark (String.ofList [c]) :: scan (.word []) rest := by
  have hquote := (not_isQuote_of_isOperatorChar h).1
  cases rest with
  | nil =>
    rw [scan.eq_def]
    simp only [hquote, h]
    rfl
  | cons d rest =>
    have hpair : operatorPairs.contains (c, d) = false := by
      rw [List.contains_eq_mem]
      exact decide_eq_false (hnext d rfl)
    rw [scan]
    simp only [hquote, h, hpair]
    rfl

/-- Characters of a word are put to it one after the other. -/
theorem scan_append (h : ∀ c ∈ cs, JoinsWord c) (read rest : List Char) :
    scan (.word read) (cs ++ rest) = scan (.word (cs.reverse ++ read)) rest := by
  induction cs generalizing read with
  | nil => rfl
  | cons c cs ih =>
    obtain ⟨⟨hquote, hoperator, hblank⟩, hcs⟩ := List.forall_mem_cons.1 h
    have hstep : scan (.word read) (c :: (cs ++ rest)) = scan (.word (c :: read)) (cs ++ rest) := by
      rw [scan.eq_def]
      simp only [hquote, hoperator, hblank]
      rfl
    rw [List.cons_append, hstep, ih hcs, List.reverse_cons, List.append_assoc]
    rfl

/-- A word ends before a character that does not belong to it. -/
theorem scan_finish (h : ∀ c, after.head? = some c → ¬JoinsWord c) (read : List Char) :
    scan (.word read) after = (Under.word read).finish ++ scan (.word []) after := by
  have hnothing : (Under.word []).finish = [] := rfl
  cases after with
  | nil => rw [scan, scan, hnothing, List.append_nil]
  | cons c rest =>
    have hc := h c rfl
    by_cases hquote : isQuote c = true
    · rw [scan_quote hquote, scan_quote hquote, hnothing, List.nil_append]
    rw [Bool.not_eq_true] at hquote
    by_cases hoperator : isOperatorChar c = true
    · by_cases hpair : ∀ d, rest.head? = some d → (c, d) ∉ operatorPairs
      · rw [scan_operator hoperator hpair, scan_operator hoperator hpair, hnothing, List.nil_append]
      · simp only [not_forall, not_not] at hpair
        obtain ⟨d, hd, hpair⟩ := hpair
        obtain ⟨rest, rfl⟩ := List.head?_eq_some_iff.1 hd
        rw [scan_pair hpair, scan_pair hpair, hnothing, List.nil_append]
    rw [Bool.not_eq_true] at hoperator
    have hblank : Text.isBlank c = true := by
      simpa [JoinsWord, hquote, hoperator] using hc
    rw [scan_blank hblank hquote hoperator, scan_blank hblank hquote hoperator, hnothing,
      List.nil_append]

/-- The word of some characters. -/
theorem ofRead_reverse (cs : List Char) : ofRead .word cs.reverse = word (String.ofList cs) := by
  rw [ofRead, List.reverse_reverse, word]

/-- The characters of a word, which are kept in reverse, make it up. -/
theorem finish_reverse (h : cs ≠ []) :
    (Under.word cs.reverse).finish = [word (String.ofList cs)] := by
  rw [← ofRead_reverse]
  cases hcs : cs.reverse with
  | nil => exact absurd (List.reverse_eq_nil_iff.1 hcs) h
  | cons => rfl

/-- Quoted characters are put to the text that is under way. -/
theorem scan_quoted_append (h : q ∉ cs) (read rest : List Char) :
    scan (.quoted q read) (cs ++ rest) = scan (.quoted q (cs.reverse ++ read)) rest := by
  induction cs generalizing read with
  | nil => rfl
  | cons c cs ih =>
    rw [List.mem_cons, not_or] at h
    rw [List.cons_append, scan, if_neg (Ne.symm h.1), ih h.2, List.reverse_cons, List.append_assoc]
    rfl

/-! ## Tokens in place -/

/-- Whether a token is well formed and ends where these characters follow. A word goes on as far as
it can, an operator takes the next character if the two are a pair, and quoted text goes on to the
next quote of its kind; only where nothing follows it may lack that. -/
def FitsBefore (t : Token) (after : List Char) : Prop :=
  match t.kind with
  | .word =>
    t.text ≠ "" ∧ (∀ c ∈ t.text.toList, JoinsWord c) ∧ ∀ c, after.head? = some c → ¬JoinsWord c
  | .operator =>
    (∃ c d, t.text.toList = [c, d] ∧ (c, d) ∈ operatorPairs) ∨
      ∃ c, t.text.toList = [c] ∧ isOperatorChar c = true ∧
        ∀ d, after.head? = some d → (c, d) ∉ operatorPairs
  | .text =>
    ∃ q inner, isQuote q = true ∧ q ∉ inner ∧ t.unquoted = String.ofList inner ∧
      (t.text.toList = q :: (inner ++ [q]) ∨ t.text.toList = q :: inner ∧ after = [])

/-- A word ends where no character follows that belongs to it. -/
theorem fitsBefore_word (hne : cs ≠ []) (hjoins : ∀ c ∈ cs, JoinsWord c)
    (hend : ∀ c, after.head? = some c → ¬JoinsWord c) :
    (word (String.ofList cs)).FitsBefore after := by
  refine ⟨?_, ?_, hend⟩
  · simpa [word] using hne
  · simpa [word] using hjoins

/-- Text in quotes is unquoted to what stands in between. -/
theorem unquoteChars_closed (q : Char) (inner : List Char) :
    unquoteChars (q :: (inner ++ [q])) = inner := by
  simp [unquoteChars]

/-- Text without its closing quote is unquoted to all that follows the quote. -/
theorem unquoteChars_unclosed {inner : List Char} (h : q ∉ inner) :
    unquoteChars (q :: inner) = inner := by
  rw [unquoteChars, if_neg fun hlast => h (List.mem_of_getLast? hlast)]

/-- A token that fits is the first one that is read. -/
theorem FitsBefore.scan_eq (h : t.FitsBefore after) :
    scan (.word []) (t.text.toList ++ after) = t :: scan (.word []) after := by
  obtain ⟨kind, text⟩ := t
  cases kind with
  | word =>
    obtain ⟨hne, hjoins, hend⟩ := h
    rw [scan_append hjoins, List.append_nil, scan_finish hend,
      finish_reverse (mt String.toList_eq_nil_iff.1 hne), String.ofList_toList]
    rfl
  | operator =>
    rcases h with ⟨c, d, htext, hpair⟩ | ⟨c, htext, hoperator, hnext⟩
    · rw [htext, List.cons_append, List.cons_append, List.nil_append, scan_pair hpair, ← htext,
        String.ofList_toList]
      rfl
    · rw [htext, List.cons_append, List.nil_append, scan_operator hoperator hnext, ← htext,
        String.ofList_toList]
      rfl
  | text =>
    obtain ⟨q, inner, hquote, hinner, -, htext | ⟨htext, rfl⟩⟩ := h
    · have hread : ofRead .text (q :: (inner.reverse ++ [q])) = ⟨.text, text⟩ := by
        simp [ofRead, ← htext]
      rw [htext, List.cons_append, List.append_assoc, scan_quote hquote, scan_quoted_append hinner,
        List.cons_append, scan, if_pos rfl, hread]
      rfl
    · have hread : ofRead .text (inner.reverse ++ [q]) = ⟨.text, text⟩ := by
        simp [ofRead, ← htext]
      have hscan := scan_quoted_append hinner [q] []
      rw [List.append_nil, scan, Under.finish, hread] at hscan
      rw [htext, List.append_nil, scan_quote hquote, hscan]
      rfl

/-- A token that fits before some characters fits before the first of them, too. -/
theorem FitsBefore.of_append (h : t.FitsBefore (cs ++ rest)) : t.FitsBefore cs := by
  have hhead : ∀ c, cs.head? = some c → (cs ++ rest).head? = some c := by
    intro c hc
    rw [List.head?_append, hc, Option.some_or]
  obtain ⟨kind, text⟩ := t
  cases kind with
  | word =>
    obtain ⟨hne, hjoins, hend⟩ := h
    exact ⟨hne, hjoins, fun c hc => hend c (hhead c hc)⟩
  | operator =>
    refine h.imp id ?_
    rintro ⟨c, htext, hoperator, hnext⟩
    exact ⟨c, htext, hoperator, fun d hd => hnext d (hhead d hd)⟩
  | text =>
    obtain ⟨q, inner, hquote, hinner, hunquoted, htext⟩ := h
    refine ⟨q, inner, hquote, hinner, hunquoted, htext.imp id ?_⟩
    rintro ⟨htext, hnil⟩
    exact ⟨htext, (List.append_eq_nil_iff.1 hnil).1⟩

/-- No token is without characters. -/
theorem FitsBefore.toList_ne_nil (h : t.FitsBefore after) : t.text.toList ≠ [] := by
  obtain ⟨kind, text⟩ := t
  cases kind with
  | word => exact mt String.toList_eq_nil_iff.1 h.1
  | operator => rcases h with ⟨c, d, htext, -⟩ | ⟨c, htext, -⟩ <;> simp [htext]
  | text => obtain ⟨q, inner, -, -, -, htext | ⟨htext, -⟩⟩ := h <;> simp [htext]

/-! ## Texts laid out -/

/-- Whether a text is some tokens with blanks around them. -/
inductive Laid : List Char → List Token → Prop
  | nil : Laid [] []
  | blank {c : Char} {cs : List Char} {ts : List Token} :
    Text.isBlank c = true → Laid cs ts → Laid (c :: cs) ts
  | token {t : Token} {cs : List Char} {ts : List Token} :
    t.FitsBefore cs → Laid cs ts → Laid (t.text.toList ++ cs) (t :: ts)

/-- A blank between tokens is passed over. -/
theorem scan_blank_cons (h : Text.isBlank c = true) :
    scan (.word []) (c :: rest) = scan (.word []) rest := by
  refine scan_blank h ?_ ?_ []
  · exact Bool.eq_false_iff.2 fun hquote => by simp [not_isBlank_of_isQuote hquote] at h
  · exact Bool.eq_false_iff.2 fun hoperator => by
      simp [(not_isQuote_of_isOperatorChar hoperator).2] at h

/-- A text is laid out in the tokens that are read from it only. -/
theorem Laid.scan_eq (h : Laid cs ts) : scan (.word []) cs = ts := by
  induction h with
  | nil => rfl
  | blank hblank _ ih => rw [scan_blank_cons hblank, ih]
  | token hfits _ ih => rw [hfits.scan_eq, ih]

/-- A text that does not begin with a blank begins with a token. -/
theorem exists_fitsBefore (hblank : Text.isBlank c = false) (rest : List Char) :
    ∃ (t : Token) (after : List Char), c :: rest = t.text.toList ++ after ∧ t.FitsBefore after := by
  by_cases hquote : isQuote c = true
  · by_cases hmem : c ∈ rest
    · obtain ⟨inner, after, rfl, hinner⟩ := List.eq_append_cons_of_mem hmem
      refine ⟨⟨.text, String.ofList (c :: (inner ++ [c]))⟩, after, by simp, c, inner, hquote,
        hinner, ?_, .inl String.toList_ofList⟩
      rw [unquoted, String.toList_ofList, unquoteChars_closed]
    · refine ⟨⟨.text, String.ofList (c :: rest)⟩, [], by simp, c, rest, hquote, hmem, ?_,
        .inr ⟨String.toList_ofList, rfl⟩⟩
      rw [unquoted, String.toList_ofList, unquoteChars_unclosed hmem]
  by_cases hoperator : isOperatorChar c = true
  · by_cases hpair : ∀ d, rest.head? = some d → (c, d) ∉ operatorPairs
    · exact ⟨mark (String.ofList [c]), rest, by simp [mark],
        .inr ⟨c, String.toList_ofList, hoperator, hpair⟩⟩
    · simp only [not_forall, not_not] at hpair
      obtain ⟨d, hd, hpair⟩ := hpair
      obtain ⟨after, rfl⟩ := List.head?_eq_some_iff.1 hd
      exact ⟨mark (String.ofList [c, d]), after, by simp [mark],
        .inl ⟨c, d, String.toList_ofList, hpair⟩⟩
  · have hc : JoinsWord c := ⟨Bool.eq_false_iff.2 hquote, Bool.eq_false_iff.2 hoperator, hblank⟩
    let after := rest.dropWhile fun d => decide (JoinsWord d)
    let cs := rest.takeWhile fun d => decide (JoinsWord d)
    have hcs : ∀ d ∈ cs, JoinsWord d := by
      intro d hd
      exact of_decide_eq_true (List.all_eq_true.1 List.all_takeWhile d hd)
    have hafter : ∀ d, after.head? = some d → ¬JoinsWord d := by
      intro d hd
      have hnot := List.head?_dropWhile_not (fun d => decide (JoinsWord d)) rest
      rw [hd] at hnot
      simpa using hnot
    refine ⟨word (String.ofList (c :: cs)), after, by simp [word, cs, after], ?_⟩
    exact fitsBefore_word (List.cons_ne_nil _ _) (List.forall_mem_cons.2 ⟨hc, hcs⟩) hafter

/-- Every text is laid out in the tokens that are read from it. -/
theorem laid_scan (cs : List Char) : Laid cs (scan (.word []) cs) := by
  -- The induction is on the length: a token takes some characters away, and more than one maybe.
  induction hlength : cs.length using Nat.strongRecOn generalizing cs with
  | ind n ih =>
    subst hlength
    cases cs with
    | nil => exact .nil
    | cons c rest =>
      cases hblank : Text.isBlank c with
      | true =>
        rw [scan_blank_cons hblank]
        exact .blank hblank (ih _ (Nat.lt_succ_self _) rest rfl)
      | false =>
        obtain ⟨t, after, htext, hfits⟩ := exists_fitsBefore hblank rest
        have hless : after.length < (c :: rest).length := by
          have hpos := List.length_pos_iff.2 hfits.toList_ne_nil
          rw [htext, List.length_append]
          omega
        rw [htext, hfits.scan_eq]
        exact .token hfits (ih _ hless after rfl)

/-- A text is laid out in one way, as it is read. -/
theorem laid_iff : Laid cs ts ↔ scan (.word []) cs = ts := by
  constructor
  · exact Laid.scan_eq
  · rintro rfl
    exact laid_scan cs

/-- Where a token lies, with what lies before it and what lies after it. -/
theorem Laid.split {us : List Token} (h : Laid cs (ts ++ t :: us)) :
    ∃ before after, cs = before ++ t.text.toList ++ after ∧ Laid before ts ∧ Laid after us ∧
      t.FitsBefore after := by
  generalize hall : ts ++ t :: us = all at h
  induction h generalizing ts with
  | nil => simp at hall
  | @blank c cs all hblank _ ih =>
    obtain ⟨before, after, rfl, hbefore, hafter, hfits⟩ := ih hall
    exact ⟨c :: before, after, rfl, .blank hblank hbefore, hafter, hfits⟩
  | @token t' cs all hfits' hlaid ih =>
    cases ts with
    | nil =>
      obtain ⟨rfl, rfl⟩ := List.cons_eq_cons.1 hall
      exact ⟨[], cs, rfl, .nil, hlaid, hfits'⟩
    | cons u ts =>
      obtain ⟨rfl, htail⟩ := List.cons_eq_cons.1 hall
      obtain ⟨before, after, rfl, hbefore, hafter, hfits⟩ := ih htail
      refine ⟨u.text.toList ++ before, after, by simp only [List.append_assoc], ?_, hafter, hfits⟩
      rw [List.append_assoc] at hfits'
      exact .token hfits'.of_append hbefore

/-! ## What is lost -/

/-- The characters of a text without the blanks outside of quotes, given the quote, if any, that is
open before it. -/
def withoutBlanks : Option Char → List Char → List Char
  | _, [] => []
  | some q, c :: cs => c :: withoutBlanks (if c = q then none else some q) cs
  | none, c :: cs =>
    if isQuote c then c :: withoutBlanks (some c) cs
    else if Text.isBlank c then withoutBlanks none cs
    else c :: withoutBlanks none cs

/-- Characters that are neither blanks nor quotes stay. -/
theorem withoutBlanks_append (h : ∀ c ∈ cs, isQuote c = false ∧ Text.isBlank c = false)
    (rest : List Char) : withoutBlanks none (cs ++ rest) = cs ++ withoutBlanks none rest := by
  induction cs with
  | nil => rfl
  | cons c cs ih =>
    obtain ⟨⟨hquote, hblank⟩, hcs⟩ := List.forall_mem_cons.1 h
    simp [withoutBlanks, hquote, hblank, ih hcs]

/-- Characters in quotes stay, blanks too. -/
theorem withoutBlanks_quoted_append (h : q ∉ cs) (rest : List Char) :
    withoutBlanks (some q) (cs ++ rest) = cs ++ withoutBlanks (some q) rest := by
  induction cs with
  | nil => rfl
  | cons c cs ih =>
    rw [List.mem_cons, not_or] at h
    simp [withoutBlanks, Ne.symm h.1, ih h.2]

/-- Of a token nothing is lost. -/
theorem FitsBefore.withoutBlanks_eq (h : t.FitsBefore after) :
    withoutBlanks none (t.text.toList ++ after) = t.text.toList ++ withoutBlanks none after := by
  obtain ⟨kind, text⟩ := t
  cases kind with
  | word => exact withoutBlanks_append (fun c hc => ⟨(h.2.1 c hc).1, (h.2.1 c hc).2.2⟩) after
  | operator =>
    refine withoutBlanks_append (fun c hc => not_isQuote_of_isOperatorChar ?_) after
    rcases h with ⟨d, e, htext, hpair⟩ | ⟨d, htext, hoperator, -⟩
    · obtain ⟨hd, he⟩ := isOperatorChar_of_mem_operatorPairs hpair
      rw [htext, List.mem_cons, List.mem_singleton] at hc
      rcases hc with rfl | rfl
      · exact hd
      · exact he
    · rw [htext, List.mem_singleton] at hc
      rwa [hc]
  | text =>
    obtain ⟨q, inner, hquote, hinner, -, htext | ⟨htext, rfl⟩⟩ := h
    · simp [htext, withoutBlanks, hquote, withoutBlanks_quoted_append hinner]
    · have hquoted := withoutBlanks_quoted_append hinner []
      rw [List.append_nil, withoutBlanks, List.append_nil] at hquoted
      simp [htext, withoutBlanks, hquote, hquoted]

/-- The characters of the tokens are those of the text, but for blanks outside of quotes. -/
theorem Laid.flatMap_eq (h : Laid cs ts) :
    ts.flatMap (·.text.toList) = withoutBlanks none cs := by
  induction h with
  | nil => rfl
  | @blank c cs ts hblank _ ih =>
    have hquote : isQuote c = false :=
      Bool.eq_false_iff.2 fun hquote => by simp [not_isBlank_of_isQuote hquote] at hblank
    simp [withoutBlanks, hquote, hblank, ih]
  | token hfits _ ih => rw [List.flatMap_cons, ih, hfits.withoutBlanks_eq]

/-- **Tokens lose nothing, and they are well formed.** Put together they are the text without the
blanks outside of quotes. Each lies somewhere in the text, after what the tokens before it are read
from and before what those after it are read from; and it is well formed there: a word has neither
blanks nor quotes nor operators and is not empty, an operator is a pair, or one character that is no
pair with the next, and quoted text ends at the next quote of its kind, or as the last token at the
end of the text, and is unquoted to what its quotes enclose. -/
theorem tokenize_faithful (s : String) :
    (tokenize s).flatMap (·.text.toList) = withoutBlanks none s.toList ∧
      ∀ ts t us, tokenize s = ts ++ t :: us →
        ∃ before after : String, s = before ++ t.text ++ after ∧
          tokenize before = ts ∧ tokenize after = us ∧ t.FitsBefore after.toList := by
  have hlaid : Laid s.toList (tokenize s) := laid_scan s.toList
  refine ⟨hlaid.flatMap_eq, fun ts t us h => ?_⟩
  rw [h] at hlaid
  obtain ⟨before, after, htext, hbefore, hafter, hfits⟩ := hlaid.split
  refine ⟨String.ofList before, String.ofList after, ?_, ?_, ?_, ?_⟩
  · rw [← String.toList_inj]
    simpa using htext
  · rw [tokenize, String.toList_ofList, hbefore.scan_eq]
  · rw [tokenize, String.toList_ofList, hafter.scan_eq]
  · rwa [String.toList_ofList]

/-- An operator of two characters, a word, and quoted text that is not closed. -/
theorem tokenize_faithful_unclosed :
    let s := "<=a  'b c"
    let t : Token := ⟨.text, "'b c"⟩
    tokenize s = [mark "<=", word "a"] ++ t :: [] ∧ t.unquoted = "b c" ∧
      withoutBlanks none s.toList = "<=a'b c".toList ∧
      ∃ before after : String, s = before ++ t.text ++ after ∧
        tokenize before = [mark "<=", word "a"] ∧ tokenize after = [] ∧
        t.FitsBefore after.toList := by
  intro s t
  have htokens : tokenize s = [mark "<=", word "a"] ++ t :: [] := by
    decide +kernel
  obtain ⟨hkept, hplaces⟩ := tokenize_faithful s
  refine ⟨htokens, by decide +kernel, ?_, hplaces _ _ _ htokens⟩
  rw [← hkept, htokens]
  decide +kernel

end Spreadsheet.Token
