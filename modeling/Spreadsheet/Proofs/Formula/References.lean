import Spreadsheet.Proofs.Formula.Words
import Spreadsheet.Proofs.Grid.Canonical

/-!
# References as words, as texts and as formulas

A reference is recognized in three ways: as a word of a formula (`Coord.ofWord?`, `Range.ofWord?`),
as a text by itself, in which blanks are passed over (`Coord.parse`, `Range.parse`), and as a
formula. On texts without blanks, quotes and operators they agree (`references_agree`): such a text
is words with colons between them, and a formula that begins with a colon, ends with one or has two
of them is none.
-/

namespace Spreadsheet

open Token

variable {o : Options} {s w : String} {c : Coord} {r : Range} {cs ds : List Char}

/-! ## Words -/

/-- Around a word there are no blanks to pass over. -/
theorem Coord.ofWord?_eq_some_iff (h : ∀ c ∈ s.toList, Text.isBlank c = false) :
    ofWord? s = some c ↔ parse s = .ok c := by
  have hparse : parse s = ofChars s.toList := by rw [parse, Text.trimChars_of_forall h]
  unfold ofWord?
  cases hshape : isAddressShaped s with
  | true =>
    rw [if_pos rfl]
    cases parse s <;> simp [Except.toOption]
  | false =>
    refine iff_of_false (by rintro ⟨⟩) fun hread => ?_
    rw [hparse] at hread
    rw [isAddressShaped_iff.2 (shaped_of_ofChars hread)] at hshape
    cases hshape

/-- A word stands for a cell if it names one. -/
theorem Expr.ofWord_eq_cell_iff : Expr.ofWord w = .ok (.cell c) ↔ Coord.ofWord? w = some c := by
  unfold Expr.ofWord Coord.ofWord?
  split
  · unfold readAddress
    cases Coord.parse w with
    | error error => exact iff_of_false (by rintro ⟨⟩) (by rintro ⟨⟩)
    | ok d =>
      change Except.ok (Expr.cell d) = _ ↔ some d = _
      rw [Except.ok.injEq, Expr.cell.injEq, Option.some.injEq]
  · refine iff_of_false (fun h => ?_) (by rintro ⟨⟩)
    split at h
    · cases h
    · split at h
      · cases h
      · split at h <;> cases h

/-- A word stands for a cell, for a number or for itself. -/
theorem Expr.ofWord_cases {x : Expr} (h : Expr.ofWord w = .ok x) :
    (∃ c, x = .cell c) ∨ (∃ n, x = .number n) ∨ x = .bare w := by
  unfold Expr.ofWord at h
  split at h
  · cases hread : readAddress w with
    | error error =>
      rw [hread] at h
      cases h
    | ok c =>
      rw [hread] at h
      cases h
      exact .inl ⟨c, rfl⟩
  · split at h
    · cases h
      exact .inr (.inl ⟨_, rfl⟩)
    · split at h
      · cases h
        exact .inr (.inl ⟨_, rfl⟩)
      · split at h
        · cases h
          exact .inr (.inl ⟨_, rfl⟩)
        · cases h
          exact .inr (.inr rfl)

/-- A word alone is read as its operand. -/
theorem Expr.ofTokens_word : Expr.ofTokens o [word w] = Expr.ofWord w := by
  have hread : Expr.ofTokens o [word w] = Expr.ofWord w >>= fun x =>
      Reader.finishOperand o ⟨.afterWord w, .fresh o.maxNesting, []⟩ x :=
    Expr.ofTokens_eq_read (List.cons_ne_nil _ _)
  rw [hread]
  cases Expr.ofWord w with
  | error error => rfl
  | ok x => exact congrArg Except.ok (Level.close_of_nil rfl x)

/-! ## Words with a colon between them -/

/-- No colon belongs to a word. -/
theorem Token.bne_colon {d : Char} (h : JoinsWord d) : (d != ':') = true := by
  rw [bne_iff_ne]
  rintro rfl
  exact absurd h (by decide +kernel)

/-- Whether characters are no blanks, no quotes and no operators but colons. -/
def Token.Plain (cs : List Char) : Prop :=
  ∀ c ∈ cs, Text.isBlank c = false ∧ isQuote c = false ∧ (isOperatorChar c = true → c = ':')

instance : DecidablePred Token.Plain := fun cs => List.decidableBAll _ cs

/-- Plain characters are a word, or they have a first colon with a word before it. -/
theorem Token.Plain.cases (h : Plain cs) : (∀ c ∈ cs, JoinsWord c) ∨
    ∃ front rest, cs = front ++ ':' :: rest ∧ (∀ c ∈ front, JoinsWord c) ∧ Plain rest := by
  have hword : ∀ front : List Char, front ⊆ cs → ':' ∉ front → ∀ c ∈ front, JoinsWord c := by
    intro front hsub hcolon c hc
    obtain ⟨hblank, hquote, hoperator⟩ := h c (hsub hc)
    refine ⟨hquote, Bool.eq_false_iff.2 fun hc' => hcolon ?_, hblank⟩
    rwa [← hoperator hc']
  by_cases hcolon : ':' ∈ cs
  · obtain ⟨front, rest, rfl, hfront⟩ := List.eq_append_cons_of_mem hcolon
    refine .inr ⟨front, rest, rfl, hword front (List.subset_append_left ..) hfront, fun c hc => ?_⟩
    exact h c (List.mem_append_right _ (.tail _ hc))
  · exact .inl (hword cs (List.Subset.refl _) hcolon)

/-- A word before a colon. -/
theorem Token.scan_colon (h : ∀ c ∈ cs, JoinsWord c) (rest : List Char) :
    scan (.word []) (cs ++ ':' :: rest) =
      (Under.word cs.reverse).finish ++ mark ":" :: scan (.word []) rest := by
  have hpair : ∀ d : Char, (':', d) ∉ operatorPairs := by simp [operatorPairs]
  rw [scan_append h, List.append_nil]
  exact scan_operator (by decide +kernel) (fun d _ => hpair d) _

/-- A word at the end. -/
theorem Token.scan_word (h : ∀ c ∈ cs, JoinsWord c) :
    scan (.word []) cs = (Under.word cs.reverse).finish := by
  have hscan := scan_append h [] []
  rwa [List.append_nil, List.append_nil, scan] at hscan

/-- No address has a colon. -/
theorem Coord.ofWord?_of_colon (h : ':' ∈ cs) : ofWord? (String.ofList cs) = none := by
  refine if_neg fun hshape => ?_
  obtain ⟨letters, ds, hshape⟩ := isAddressShaped_iff.1 hshape
  rw [String.toList_ofList] at hshape
  rw [hshape.chars, List.mem_append] at h
  rcases h with h | h
  · exact absurd (List.all_eq_true.1 hshape.all_isLetter _ h) (by decide)
  · exact absurd (List.all_eq_true.1 hshape.all_isDigit _ h) (by decide)

namespace Reader

variable {room : Nat} {x : Expr} {r r' : Reader} {start : Coord} {v : String}

/-- A word where the other corner of a range is wanted. -/
theorem cornerStep_eq_ok_iff : r.cornerStep w start (word v) = .ok r' ↔
    ∃ c, Coord.ofWord? v = some c ∧ r' = r.complete (.range (.ofCorners start c)) := by
  unfold cornerStep Coord.ofWord?
  cases hshape : Coord.isAddressShaped v with
  | false => simp [word, hshape]
  | true =>
    rw [if_pos (show (word v).kind = .word ∧ Coord.isAddressShaped (word v).text = true from
      ⟨rfl, hshape⟩), if_pos rfl]
    change (readAddress v >>= _) = _ ↔ _
    unfold readAddress
    cases Coord.parse v with
    | error error => exact iff_of_false (by rintro ⟨⟩) (by rintro ⟨c, ⟨⟩, -⟩)
    | ok c =>
      change Except.ok _ = Except.ok r' ↔ ∃ c', some c = some c' ∧ _
      simp [eq_comm]

/-- After the first corner of a range and the colon, the rest has to be the other corner. -/
theorem read_corner_eq_ok_iff (h : Plain cs) :
    read o ⟨.corner w start, .fresh room, []⟩ (scan (.word []) cs) = .ok x ↔
      ∃ c, Coord.ofWord? (String.ofList cs) = some c ∧ x = .range (.ofCorners start c) := by
  have hfirst : ∀ v ts, read o ⟨.corner w start, .fresh room, []⟩ (word v :: ts) =
      cornerStep ⟨.corner w start, .fresh room, []⟩ w start (word v) >>= fun r => r.read o ts :=
    fun v ts => read_cons ..
  have hlast : ∀ c, read o (complete ⟨.corner w start, .fresh room, []⟩
      (.range (.ofCorners start c))) [] = .ok (.range (.ofCorners start c)) :=
    fun c => congrArg Except.ok (Level.close_of_nil rfl _)
  have hcolon : ∀ ts, read o ⟨.corner w start, .fresh room, []⟩ (mark ":" :: ts) =
      .error (.badReference (.openRange w)) := fun ts => read_cons ..
  rcases h.cases with hword | ⟨front, rest, rfl, hfront, -⟩
  · rw [scan_word hword]
    by_cases hne : cs = []
    · subst hne
      exact iff_of_false (by rintro ⟨⟩) (by rintro ⟨c, ⟨⟩, -⟩)
    · rw [finish_reverse hne, hfirst]
      constructor
      · intro hread
        obtain ⟨r', hstep, hread⟩ := exists_of_bind_eq_ok hread
        obtain ⟨c, hc, rfl⟩ := cornerStep_eq_ok_iff.1 hstep
        exact ⟨c, hc, Except.ok.inj (hread.symm.trans (hlast c))⟩
      · rintro ⟨c, hc, rfl⟩
        rw [cornerStep_eq_ok_iff.2 ⟨c, hc, rfl⟩]
        exact hlast c
  · have hnone : ¬∃ c, Coord.ofWord? (String.ofList (front ++ ':' :: rest)) = some c ∧
        x = .range (.ofCorners start c) := by
      rw [Coord.ofWord?_of_colon (List.mem_append_right _ (.head _))]
      rintro ⟨c, ⟨⟩, -⟩
    rw [scan_colon hfront]
    refine iff_of_false (fun hread => ?_) hnone
    by_cases hne : front = []
    · subst hne
      cases (hcolon _).symm.trans hread
    · -- the range is complete, and the second colon is no operator
      rw [finish_reverse hne, List.singleton_append, hfirst] at hread
      obtain ⟨r', hstep, hread⟩ := exists_of_bind_eq_ok hread
      obtain ⟨c, hc, rfl⟩ := cornerStep_eq_ok_iff.1 hstep
      rw [read_cons] at hread
      cases hread

/-- A colon after a word, which has to be the first corner of a range. -/
theorem wordStep_colon_eq_ok_iff :
    wordStep o ⟨.afterWord w, .fresh room, []⟩ w (mark ":") = .ok r' ↔
      ∃ c, Coord.ofWord? w = some c ∧ r' = ⟨.corner w c, .fresh room, []⟩ := by
  simp only [← Expr.ofWord_eq_cell_iff]
  rw [wordStep, if_neg (by decide)]
  cases Expr.ofWord w with
  | error error => exact iff_of_false (by rintro ⟨⟩) (by rintro ⟨c, ⟨⟩, -⟩)
  | ok y =>
    cases y with
    | cell c =>
      change Except.ok _ = Except.ok r' ↔ _
      simp [eq_comm]
    | number | text | bare | range | binary | negate | call =>
      exact iff_of_false (by rintro ⟨⟩) (by rintro ⟨c, ⟨⟩, -⟩)

/-- A word and a colon have to be the first corner of a range. -/
theorem read_word_colon_eq_ok_iff {ts : List Token} :
    read o (Reader.start o) (word w :: mark ":" :: ts) = .ok x ↔ ∃ c, Coord.ofWord? w = some c ∧
      read o ⟨.corner w c, .fresh o.maxNesting, []⟩ ts = .ok x := by
  have hword : read o (Reader.start o) (word w :: mark ":" :: ts) =
      wordStep o ⟨.afterWord w, .fresh o.maxNesting, []⟩ w (mark ":") >>= fun r => r.read o ts := by
    rw [read_cons]
    exact read_cons ..
  rw [hword]
  constructor
  · intro hread
    obtain ⟨r', hstep, hread⟩ := exists_of_bind_eq_ok hread
    obtain ⟨c, hc, rfl⟩ := wordStep_colon_eq_ok_iff.1 hstep
    exact ⟨c, hc, hread⟩
  · rintro ⟨c, hc, hread⟩
    rw [wordStep_colon_eq_ok_iff.2 ⟨c, hc, rfl⟩]
    exact hread

end Reader

/-! ## Texts with a first colon -/

section
variable {front rest : List Char} {x : Expr}

theorem Expr.ofFormula_colon_eq_ok_iff (hs : s.toList = front ++ ':' :: rest)
    (hfront : ∀ c ∈ front, JoinsWord c) (hrest : Plain rest) :
    Expr.ofFormula o ("=" ++ s) = .ok x ↔ ∃ a b, Coord.ofWord? (String.ofList front) = some a ∧
      Coord.ofWord? (String.ofList rest) = some b ∧ x = .range (.ofCorners a b) := by
  rw [Expr.ofFormula, formulaBody_append, tokenize, hs, scan_colon hfront]
  by_cases hne : front = []
  · subst hne
    rw [Expr.ofTokens_eq]
    exact iff_of_false (by rintro ⟨⟩) (by rintro ⟨a, b, ⟨⟩, -⟩)
  · rw [finish_reverse hne, List.singleton_append, Expr.ofTokens_eq_read (List.cons_ne_nil _ _)]
    simp only [Reader.read_word_colon_eq_ok_iff, Reader.read_corner_eq_ok_iff hrest,
      exists_and_left]

theorem Range.ofWord?_colon_eq_some_iff (hs : s.toList = front ++ ':' :: rest)
    (hfront : ∀ c ∈ front, JoinsWord c) :
    ofWord? s = some r ↔ ∃ a b, Coord.ofWord? (String.ofList front) = some a ∧
      Coord.ofWord? (String.ofList rest) = some b ∧ r = .ofCorners a b := by
  unfold ofWord?
  rw [hs, span_colon fun c hc => bne_colon (hfront c hc)]
  simp only [Option.bind_eq_bind, Option.bind_eq_some_iff, ← exists_and_left]
  exact exists_congr fun a => exists_congr fun b => by simp [eq_comm]

theorem Range.parse_colon_eq_ok_iff (hs : s.toList = front ++ ':' :: rest) (h : Plain s.toList)
    (hfront : ∀ c ∈ front, JoinsWord c) :
    parse s = .ok r ↔ ∃ a b, Coord.ofWord? (String.ofList front) = some a ∧
      Coord.ofWord? (String.ofList rest) = some b ∧ r = .ofCorners a b := by
  have hcorner : ∀ part ⊆ s.toList, ∀ c,
      Coord.ofWord? (String.ofList part) = some c ↔ Coord.parse (String.ofList part) = .ok c := by
    intro part hpart c
    refine Coord.ofWord?_eq_some_iff fun d hd => (h d (hpart ?_)).1
    rwa [String.toList_ofList] at hd
  simp only [hcorner front (by simp [hs]), hcorner rest (by simp [hs])]
  unfold parse
  rw [Text.trimChars_of_forall fun c hc => (h c hc).1, hs]
  dsimp only
  rw [span_colon fun c hc => bne_colon (hfront c hc)]
  dsimp only
  cases Coord.parse (String.ofList front) with
  | error error => exact iff_of_false (by rintro ⟨⟩) (by rintro ⟨a, b, ⟨⟩, -⟩)
  | ok a =>
    cases Coord.parse (String.ofList rest) with
    | error error => exact iff_of_false (by rintro ⟨⟩) (by rintro ⟨a, b, -, ⟨⟩, -⟩)
    | ok b =>
      change Except.ok (ofCorners a b) = _ ↔ _
      simp [eq_comm]

end

/-! ## Agreement -/

/-- **References are recognized alike.** A text without blanks, quotes and operators but colons is
the word of a cell, the address of the cell and the formula of the cell, or none of these. It is the
word of a range and the formula of the range, or neither; and these are the texts with a colon that
are read as the range. -/
theorem references_agree (o : Options) {t : String} (h : Plain t.toList) :
    (∀ c, (Coord.ofWord? t = some c ↔ Coord.parse t = .ok c) ∧
        (Coord.parse t = .ok c ↔ Expr.ofFormula o ("=" ++ t) = .ok (.cell c))) ∧
      ∀ r, (Range.ofWord? t = some r ↔ ':' ∈ t.toList ∧ Range.parse t = .ok r) ∧
        (':' ∈ t.toList ∧ Range.parse t = .ok r ↔
          Expr.ofFormula o ("=" ++ t) = .ok (.range r)) := by
  have hword : ∀ c, Coord.ofWord? t = some c ↔ Coord.parse t = .ok c :=
    fun c => Coord.ofWord?_eq_some_iff fun d hd => (h d hd).1
  rcases h.cases with hjoins | ⟨front, rest, ht, hfront, hrest⟩
  · have hcolon : ':' ∉ t.toList := fun hmem => absurd (bne_colon (hjoins _ hmem)) (by decide)
    have hnone : Range.ofWord? t = none := by
      unfold Range.ofWord?
      rw [Range.span_of_forall fun c hc => bne_colon (hjoins c hc)]
    have hformula : t = "" ∧ Expr.ofFormula o ("=" ++ t) = .ok (.text "") ∨
        Expr.ofFormula o ("=" ++ t) = Expr.ofWord t := by
      rw [Expr.ofFormula, formulaBody_append, tokenize, scan_word hjoins]
      by_cases hne : t.toList = []
      · obtain rfl := String.toList_eq_nil_iff.1 hne
        exact .inl ⟨rfl, rfl⟩
      · rw [finish_reverse hne, String.ofList_toList]
        exact .inr Expr.ofTokens_word
    refine ⟨fun c => ⟨hword c, ?_⟩, fun r => ⟨?_, ?_⟩⟩
    · rw [← hword, ← Expr.ofWord_eq_cell_iff]
      rcases hformula with ⟨rfl, hempty⟩ | hsame
      · rw [hempty]
        exact iff_of_false (by rintro ⟨⟩) (by rintro ⟨⟩)
      · rw [hsame]
    · rw [hnone]
      exact iff_of_false (by rintro ⟨⟩) fun hr => hcolon hr.1
    · refine iff_of_false (fun hr => hcolon hr.1) fun hr => ?_
      rcases hformula with ⟨-, hempty⟩ | hsame
      · cases hempty.symm.trans hr
      · rcases Expr.ofWord_cases (hsame.symm.trans hr) with ⟨c, ⟨⟩⟩ | ⟨n, ⟨⟩⟩ | ⟨⟨⟩⟩
  · have hcolon : ':' ∈ t.toList := by simp [ht]
    have hformula : ∀ x, Expr.ofFormula o ("=" ++ t) = .ok x ↔ _ :=
      fun x => Expr.ofFormula_colon_eq_ok_iff ht hfront hrest
    refine ⟨fun c => ⟨hword c, ?_⟩, fun r => ⟨?_, ?_⟩⟩
    · rw [← hword, hformula]
      refine iff_of_false (fun hc => ?_) (by rintro ⟨a, b, -, -, ⟨⟩⟩)
      rw [← t.ofList_toList, Coord.ofWord?_of_colon hcolon] at hc
      cases hc
    · rw [and_iff_right hcolon, Range.ofWord?_colon_eq_some_iff ht hfront,
        Range.parse_colon_eq_ok_iff ht h hfront]
    · rw [and_iff_right hcolon, hformula, Range.parse_colon_eq_ok_iff ht h hfront]
      simp only [Expr.range.injEq]

/-- The lower left and the upper right corner, in small letters and with a leading zero. -/
theorem references_agree_corners :
    let o : Options := { grouping := .byBinding, maxNesting := 0 }
    let t := "b03:D1"
    let r := Range.ofCorners ⟨2, 1⟩ ⟨0, 3⟩
    Plain t.toList ∧ Range.ofWord? t = some r ∧ Range.parse t = .ok r ∧
      Expr.ofFormula o "=b03:D1" = .ok (.range r) := by
  intro o t r
  have hplain : Plain t.toList := by decide +kernel
  have hword : Range.ofWord? t = some r := by decide +kernel
  obtain ⟨-, hrange⟩ := references_agree o hplain
  have hparse := (hrange r).1.1 hword
  exact ⟨hplain, hword, hparse.2, (hrange r).2.1 hparse⟩

end Spreadsheet
