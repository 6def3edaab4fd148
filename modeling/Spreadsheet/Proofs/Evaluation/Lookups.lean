import Spreadsheet.Proofs.Evaluation.Recording
import Spreadsheet.Proofs.Formula.Trees

/-!
# What an evaluation looks up

An evaluation looks up cells in the order of the traversal, without what was looked up before, and
formula cells once at most (`Evaluator.lookups_in_order`). That nothing comes twice holds of every
evaluation, because each formula cell that was looked up waits or is settled until the evaluation
ends in a failure (`Session.Tidy`). And nothing is looked up that no formula on the way mentions
(`LooksFrom`).
-/

namespace Spreadsheet

open Evaluation

/-! ## Once -/

namespace Evaluation.Session

/-- Each formula cell was looked up once at most, and the current cell was not. -/
structure Once (cells : Cells) (s : Session) : Prop where
  formulas : ∀ c text, cells c = .formula text → s.lookups.count c ≤ 1
  current : ∀ c, s.frame.current = some c → c ∉ s.lookups

/-- Besides, each formula cell that was looked up waits or is settled. -/
structure Tidy (cells : Cells) (s : Session) : Prop extends s.Once cells where
  known : ∀ c text, cells c = .formula text → c ∈ s.lookups →
    c ∈ s.frame.waiting ∨ ∃ v, s.settled[c]? = some v

variable {cells : Cells} {s : Session} {c : Coord}

/-- What was looked up once stays so in another frame with the same current cell. -/
theorem Once.reframe (h : s.Once cells) {f : Frame} (hf : f.current = s.frame.current) :
    ({ s with frame := f } : Session).Once cells :=
  ⟨h.formulas, fun c hc => h.current c (hf.symm.trans hc)⟩

/-- A tidy session stays tidy in another frame where no less is waiting. -/
theorem Tidy.reframe (h : s.Tidy cells) {f : Frame} (hf : f.current = s.frame.current)
    (hw : s.frame.waiting ⊆ f.waiting) : ({ s with frame := f } : Session).Tidy cells where
  toOnce := h.toOnce.reframe hf
  known := fun c text ht hc => (h.known c text ht hc).imp_left fun hc => hw hc

/-- A cell that does not wait is not the current one, as that waits. -/
theorem ne_current (hc : c ∉ s.frame.waiting) {d : Coord} (hd : s.frame.current = some d) :
    d ≠ c := by
  rintro rfl
  exact hc (by simp [Frame.waiting, hd])

/-- A formula cell that neither waits nor is settled was not looked up. -/
theorem Tidy.not_mem (h : s.Tidy cells) {text : String} (ht : cells c = .formula text)
    (hc : c ∉ s.frame.waiting) (hn : s.settled[c]? = none) : c ∉ s.lookups := by
  intro hmem
  rcases h.known c text ht hmem with hw | ⟨v, hv⟩
  · exact hc hw
  · rw [hn] at hv
    cases hv

/-- One more cell is looked up that does not wait, for the first time if it is a formula cell. -/
theorem Once.lookedUp (h : s.Once cells) (hc : c ∉ s.frame.waiting)
    (hnew : ∀ text, cells c = .formula text → c ∉ s.lookups) : (s.lookedUp c).Once cells where
  formulas := by
    intro d text ht
    change (c :: s.lookups).count d ≤ 1
    by_cases hd : c = d
    · subst hd
      have hcount : (c :: s.lookups).count c = 1 := by
        rw [List.count_cons_self, List.count_eq_zero.2 (hnew text ht)]
      exact Nat.le_of_eq hcount
    · rw [List.count_cons_of_ne hd]
      exact h.formulas d text ht
  current := fun d hd => List.not_mem_cons_of_ne_of_not_mem (ne_current hc hd) (h.current d hd)

end Evaluation.Session

section
variable {cells : Cells} {α β : Type}

/-- The end of a computation in which nothing was looked up twice. After a circle, and when it is
too deep, there may be cells that neither wait nor are settled. -/
structure EndsTidy (cells : Cells) (f : Frame) (r : Except FormulaError α) (s : Session) :
    Prop where
  frame : s.frame = f
  once : s.Once cells
  tidy : Contained r → s.Tidy cells

/-- A computation that leaves a tidy session ends tidily, however it ends. -/
theorem EndsTidy.of_tidy {s : Session} (h : s.Tidy cells) (r : Except FormulaError α) :
    EndsTidy cells s.frame r s :=
  ⟨rfl, h.toOnce, fun _ => h⟩

/-- A computation that looks nothing up twice. -/
def LooksOnce (cells : Cells) (act : Evaluation α) : Prop :=
  ∀ s r s', s.Tidy cells → act.run s = (r, s') → EndsTidy cells s.frame r s'

/-- Computations that look nothing up twice may follow each other. -/
theorem LooksOnce.bind {act : Evaluation α} {f : α → Evaluation β} (h : LooksOnce cells act)
    (hf : ∀ a, LooksOnce cells (f a)) : LooksOnce cells (act >>= f) := by
  intro s r s' hs hrun
  rw [Evaluation.run_bind] at hrun
  rcases hact : act.run s with ⟨error | a, s₁⟩
  · rw [hact] at hrun
    cases hrun
    obtain ⟨hframe, honce, htidy⟩ := h _ _ _ hs hact
    exact ⟨hframe, honce, fun hr => htidy (.error (hr error rfl))⟩
  · rw [hact] at hrun
    obtain ⟨hframe, -, htidy⟩ := h _ _ _ hs hact
    obtain ⟨hframe', honce, htidy'⟩ := hf a _ _ _ (htidy (.ok a)) hrun
    exact ⟨hframe'.trans hframe, honce, htidy'⟩

/-- A level more looks nothing up. -/
theorem LooksOnce.level {act : Evaluation α} (h : LooksOnce cells act) (o : Options) :
    LooksOnce cells (level o act) := by
  intro s r s' hs hrun
  rw [Evaluation.run_level] at hrun
  split at hrun
  · rw [Evaluation.run_within] at hrun
    cases hrun
    obtain ⟨hframe, honce, htidy⟩ := h _ _ _ (hs.reframe (f := { s.frame with
      levels := s.frame.levels + 1 }) rfl (List.Subset.refl _)) rfl
    refine ⟨rfl, honce.reframe (by rw [hframe]), fun hr => (htidy hr).reframe (by rw [hframe]) ?_⟩
    rw [hframe]
    exact List.Subset.refl _
  · cases hrun
    exact .of_tidy hs _

/-- A call looks nothing up. -/
theorem LooksOnce.call (e : Evaluator) (f : Function) (args : List Value) :
    LooksOnce cells (e.call f args) := by
  rintro s r s' hs hrun
  cases hrun
  have hcalled : (s.called f).Tidy cells := ⟨⟨hs.formulas, hs.current⟩, hs.known⟩
  exact .of_tidy hcalled _

/-- Looking nothing up twice is passed on from the cells to all that is evaluated with them. -/
theorem LooksOnce.passedOn (cells : Cells) (e : Evaluator) : PassedOn e (LooksOnce cells) where
  pure a := by
    rintro s r s' hs ⟨⟩
    exact .of_tidy hs _
  throw error := by
    rintro s r s' hs ⟨⟩
    exact .of_tidy hs _
  tooDeep limit _ := by
    rintro s r s' hs ⟨⟩
    exact .of_tidy hs _
  bind := .bind
  call := .call e
  level h := h.level e.options
  session h s r s' hs hrun := by
    obtain ⟨act', hact', heq⟩ := h s
    exact hact' s r s' hs (heq ▸ hrun)

/-- No cell is looked up twice when a cell is read, but cells that hold values. -/
theorem resolve_looksOnce (e : Evaluator) (cells : Cells) (room : Nat) (c : Coord) :
    LooksOnce cells (resolve e cells room c) := by
  induction room using Nat.strongRecOn generalizing c with
  | ind room ih =>
    intro s r s' hs hrun
    have hformula : ∀ {text n r₀ s₁}, c ∉ s.frame.waiting → s.settled[c]? = none →
        cells c = .formula text → room = n + 1 →
        (formulaValue e (resolve e cells n) text).run
          { s.lookedUp c with frame := s.frame.enterCell c } = (r₀, s₁) →
        EndsTidy cells (s.frame.enterCell c) r₀ s₁ := by
      intro text n r₀ s₁ hc hn ht hroom hrun
      have honce := (hs.toOnce.lookedUp hc fun _ ht => hs.not_mem ht hc hn).reframe
        (f := s.frame.enterCell c) rfl
      have htidy : ({ s.lookedUp c with frame := s.frame.enterCell c } : Session).Tidy cells := by
        refine ⟨honce, fun d text' ht' hd => ?_⟩
        rcases List.mem_cons.1 hd with rfl | hd
        · exact .inl (.head _)
        · exact (hs.known d text' ht' hd).imp_left fun hd => .tail _ hd
      exact (LooksOnce.passedOn cells e).formulaValue text
        (fun d _ => ih n (by omega) d) _ _ _ htidy hrun
    cases resolve_resolved hrun with
    | waits | settled => exact .of_tidy hs _
    | value hc hn hv =>
      have honce := hs.toOnce.lookedUp hc fun text ht => by
        rw [hv] at ht
        cases ht
      refine ⟨rfl, honce, fun _ => ⟨honce, fun d text ht hd => ?_⟩⟩
      rcases List.mem_cons.1 hd with rfl | hd
      · rw [hv] at ht
        cases ht
      · exact hs.known d text ht hd
    | tooDeep limit hc hn ht =>
      refine ⟨rfl, hs.toOnce.lookedUp hc fun _ ht => hs.not_mem ht hc hn, fun hr => ?_⟩
      cases hr _ rfl
    | failed hc hn ht hroom hrun₁ hcycle =>
      obtain ⟨hframe, honce, -⟩ := hformula hc hn ht hroom hrun₁
      refine ⟨rfl, honce.reframe (by rw [hframe]; rfl), fun hr => ?_⟩
      rw [hr _ rfl] at hcycle
      cases hcycle
    | formula hc hn ht hroom hrun₁ hv =>
      obtain ⟨hframe, honce, htidy⟩ := hformula hc hn ht hroom hrun₁
      have honce' := honce.reframe (f := s.frame) (by rw [hframe]; rfl)
      have htidy := htidy (Naive.contained_of_cellResult hv)
      refine ⟨rfl, ⟨honce'.formulas, honce'.current⟩, fun _ =>
        ⟨⟨honce'.formulas, honce'.current⟩, fun d text' ht' hd => ?_⟩⟩
      rw [Session.getElem?_settle]
      split
      · exact .inr ⟨_, rfl⟩
      · next hne =>
        have hknown := htidy.known d text' ht' hd
        rw [hframe] at hknown
        exact hknown.imp_left fun hd => (List.mem_cons.1 hd).resolve_left (Ne.symm hne)

/-! ## Nothing else -/

/-- More cells that were looked up: these, and those that formulas mention that were looked up. -/
structure GrowsFrom (o : Options) (cells : Cells) (roots : Coord → Prop) (l l' : List Coord) :
    Prop where
  subset : l ⊆ l'
  source : ∀ c ∈ l', c ∈ l ∨ roots c ∨
    ∃ d ∈ l', ∃ text, cells d = .formula text ∧ Mentions o text c

variable {o : Options} {roots : Coord → Prop} {l l' l'' : List Coord}

/-- Nothing more has been looked up. -/
theorem GrowsFrom.refl (l : List Coord) : GrowsFrom o cells roots l l :=
  ⟨List.Subset.refl l, fun _ hc => .inl hc⟩

/-- A cell that may be looked up is one more. -/
theorem GrowsFrom.cons {c : Coord} (hc : roots c) (l : List Coord) :
    GrowsFrom o cells roots l (c :: l) := by
  refine ⟨List.subset_cons_self .., fun d hd => ?_⟩
  rcases List.mem_cons.1 hd with rfl | hd
  · exact .inr (.inl hc)
  · exact .inl hd

/-- What is looked up goes on to grow. -/
theorem GrowsFrom.trans (h : GrowsFrom o cells roots l l') (h' : GrowsFrom o cells roots l' l'') :
    GrowsFrom o cells roots l l'' := by
  refine ⟨fun c hc => h'.subset (h.subset hc), fun c hc => ?_⟩
  rcases h'.source c hc with hc | hc
  · -- a formula that was looked up first is still looked up in the end
    refine (h.source c hc).imp_right (Or.imp_right ?_)
    rintro ⟨d, hd, hmentions⟩
    exact ⟨d, h'.subset hd, hmentions⟩
  · exact .inr hc

/-- What the formula of a cell looks up that has been looked up itself. -/
theorem GrowsFrom.formula {c : Coord} {text : String} (ht : cells c = .formula text)
    (hc : c ∈ l) (h : GrowsFrom o cells (Mentions o text) l l') : GrowsFrom o cells roots l l' := by
  refine ⟨h.subset, fun d hd => (h.source d hd).imp_right fun hd => .inr ?_⟩
  rcases hd with hd | hd
  · exact ⟨c, h.subset hc, text, ht, hd⟩
  · exact hd

/-- A computation that looks up nothing but these cells and what the formulas mention that it has
looked up. -/
def LooksFrom (o : Options) (cells : Cells) (roots : Coord → Prop) (act : Evaluation α) : Prop :=
  ∀ s, GrowsFrom o cells roots s.lookups (act.run s).2.lookups

/-- Computations that look up no more than these cells may follow each other. -/
theorem LooksFrom.bind {act : Evaluation α} {f : α → Evaluation β}
    (h : LooksFrom o cells roots act) (hf : ∀ a, LooksFrom o cells roots (f a)) :
    LooksFrom o cells roots (act >>= f) := by
  intro s
  have hs := h s
  rw [Evaluation.run_bind]
  rcases hact : act.run s with ⟨error | a, s₁⟩
  · rwa [hact] at hs
  · rw [hact] at hs
    exact hs.trans (hf a s₁)

/-- A level more looks nothing up beyond them. -/
theorem LooksFrom.level {act : Evaluation α} (h : LooksFrom o cells roots act) (o' : Options) :
    LooksFrom o cells roots (level o' act) := by
  intro s
  rw [Evaluation.run_level]
  split
  · exact h { s with frame := { s.frame with levels := s.frame.levels + 1 } }
  · exact .refl s.lookups

/-- Looking up no more than what is mentioned is passed on from the cells to all that is evaluated
with them. -/
theorem LooksFrom.passedOn (e : Evaluator) (o : Options) (cells : Cells) (roots : Coord → Prop) :
    PassedOn e (LooksFrom o cells roots) where
  pure _ s := .refl s.lookups
  throw _ s := .refl s.lookups
  tooDeep _ _ s := .refl s.lookups
  bind := .bind
  call _ _ s := .refl s.lookups
  level h := h.level e.options
  session h s := by
    obtain ⟨act', hact', heq⟩ := h s
    rw [heq]
    exact hact' s

/-- When a cell is read, no other cells are looked up but those that formulas mention. -/
theorem resolve_looksFrom (e : Evaluator) (cells : Cells) (room : Nat) {c : Coord}
    (hroot : roots c) : LooksFrom e.options cells roots (resolve e cells room c) := by
  induction room using Nat.strongRecOn generalizing c roots with
  | ind room ih =>
    intro s
    have hformula : ∀ {text n r₀ s₁}, cells c = .formula text → room = n + 1 →
        (formulaValue e (resolve e cells n) text).run
          { s.lookedUp c with frame := s.frame.enterCell c } = (r₀, s₁) →
        GrowsFrom e.options cells roots s.lookups s₁.lookups := by
      intro text n r₀ s₁ ht hroom hrun
      have hbelow := (LooksFrom.passedOn e e.options cells
        (Mentions e.options text)).formulaValue text
        (fun d hd => ih n (by omega) hd) { s.lookedUp c with frame := s.frame.enterCell c }
      rw [hrun] at hbelow
      exact (GrowsFrom.cons hroot _).trans (hbelow.formula ht (.head _))
    rcases hrun : (resolve e cells room c).run s with ⟨r, s'⟩
    cases resolve_resolved hrun with
    | waits | settled => exact .refl s.lookups
    | value | tooDeep => exact .cons hroot s.lookups
    | failed _ _ ht hroom hrun₁ =>
      have hgrows := hformula ht hroom hrun₁
      exact hgrows
    | formula _ _ ht hroom hrun₁ =>
      have hgrows := hformula ht hroom hrun₁
      exact hgrows

end

/-! ## What is left out of an expression -/

/-- The operands of a chain. -/
def Chain.operands (c : Chain) : List Expr :=
  c.first :: c.rest.map Prod.snd

/-- The part of a chain up to the operand after the first comparison. -/
def Chain.cut (c : Chain) : Chain :=
  ⟨c.first, upToComparison c.rest⟩
where
  /-- The operands up to the first with a comparison in front. -/
  upToComparison : List (Operator × Expr) → List (Operator × Expr)
    | [] => []
    | p :: rest => if p.1.isComparison then [p] else p :: upToComparison rest

/-- The steps of a tree are those of its operands, from left to right. -/
theorem Tree.steps_toExpr (o : Options) (t : Tree) :
    t.toExpr.steps o = t.chain.operands.flatMap (Expr.steps o) := by
  induction t with
  | operand x => simp [toExpr, chain, Chain.operands]
  | join op left right ihl ihr =>
    rw [toExpr, Expr.steps, ihl, ihr]
    simp [chain, Chain.operands]

/-- Grouping from left to right keeps the operands up to the one after the first comparison. -/
theorem Tree.chain_groupLeft_cut (t : Tree) (rest : List (Operator × Expr)) :
    (Chain.groupLeft t rest).chain =
      ⟨t.chain.first, t.chain.rest ++ Chain.cut.upToComparison rest⟩ := by
  induction rest generalizing t with
  | nil =>
    rw [Chain.cut.upToComparison, List.append_nil]
    rfl
  | cons p rest ih =>
    obtain ⟨op, y⟩ := p
    rw [Chain.groupLeft, Chain.cut.upToComparison]
    cases hop : op.isComparison with
    | true => rfl
    | false =>
      rw [if_neg Bool.false_ne_true, if_neg Bool.false_ne_true, ih, chain, List.append_assoc]
      rfl

/-- The operands that are read after a comparison leave what there is as it was. -/
theorem Descent.value_of_dropped {o : Options} {room : Nat} {x : Expr} {ts : List Token}
    {chain : Phrase Expr (ts.length + 1)} (h : dropped o room x ts = .ok chain) :
    chain.value = x := by
  match ts with
  | [] =>
    unfold dropped at h
    cases h
    rfl
  | t :: rest =>
    unfold dropped at h
    split at h
    · cases h
      rfl
    · obtain ⟨y, -, h⟩ := exists_of_bind_eq_ok h
      have := y.shorter
      obtain ⟨chain', hchain, h⟩ := exists_of_bind_eq_ok h
      cases h
      exact (value_of_dropped hchain : chain'.value = x)
termination_by ts.length

/-- In the steps of a level, those of the operands are left out that are dropped after a
comparison. -/
theorem Level.steps_close {o : Options} (ho : o.grouping = .leftToRight) (l : Level) (x : Expr) :
    (l.close o x).steps o =
      (Chain.ofBefore x [] l.before).cut.operands.flatMap (Expr.steps o) := by
  unfold Level.close
  rw [Tree.steps_toExpr, ho]
  exact congrArg (fun c : Chain => c.operands.flatMap (Expr.steps o))
    (Tree.chain_groupLeft_cut _ _)

/-! ## Whole evaluations -/

section
variable (e : Evaluator) (cells : Cells) (current : Option Coord) (text : String)

/-- A whole evaluation ends tidily. -/
theorem Evaluator.session_endsTidy : EndsTidy cells { current } (e.session cells current text).1
    (e.session cells current text).2 := by
  have hstart : ({ frame := { current } } : Session).Tidy cells :=
    ⟨⟨fun _ _ _ => Nat.zero_le _, fun _ _ => List.not_mem_nil⟩,
      fun _ _ _ hc => absurd hc List.not_mem_nil⟩
  exact (LooksOnce.passedOn cells e).formulaValue text
    (fun c _ => resolve_looksOnce e cells e.options.maxDepth c) _ _ _ hstart rfl

/-- A whole evaluation looks up what its formula mentions, and what the formulas of such cells
mention. -/
theorem Evaluator.session_growsFrom : GrowsFrom e.options cells (Mentions e.options text) []
    (e.session cells current text).2.lookups :=
  (LooksFrom.passedOn e e.options cells (Mentions e.options text)).formulaValue text
    (fun _ hc => resolve_looksFrom e cells e.options.maxDepth hc) { frame := { current } }

/-- An evaluation that is not too deep and the traversal look up the same cells. Here the same
number is drawn over and over. -/
theorem Evaluator.session_traversal_of_fixed {e : Evaluator} (he : e.Fixed) {cells : Cells}
    {current : Option Coord} {text : String} (h : ¬ TooDeep (e.tryEvaluate cells current text)) :
    ∃ visits, (∃ n, ∀ fuel, n ≤ fuel → Traversal.tryEvaluate e cells current text fuel =
        some (e.tryEvaluate cells current text, visits)) ∧
      (e.session cells current text).2.lookups = (Visit.allFresh [] visits).1.reverse := by
  obtain ⟨n, hn⟩ := (session_agreement he cells current text h).yields_waiting
  have hplain := Traversal.Erases.transported.formula (e := e)
    (Traversal.erases_cell e cells n current.toList) text []
  rw [← Naive.formula_eq] at hplain
  obtain ⟨⟨r, visits⟩, hwalk, heq⟩ :=
    Option.map_eq_some_iff.1 (hplain.trans (hn n (Nat.le_refl n)))
  cases heq
  refine ⟨visits, ⟨n, fun fuel hle => ?_⟩, ?_⟩
  · exact Traversal.Extends.transported.formula (e := e)
      (Traversal.extends_cell e cells hle current.toList) text [] _ hwalk
  · obtain ⟨-, -, -, visits', hvisits, hlooks⟩ :=
      (Records.transported he).formulaValue text
        (fun c _ => resolve_records he cells e.options.maxDepth n current.toList c)
        _ _ _ _ _ _ (Session.Ready.start e cells current) rfl h hwalk
    rw [List.nil_append] at hvisits
    subst hvisits
    have hlookups := (hlooks [] (Session.Knows.start _)).1
    rwa [List.append_nil] at hlookups

/-- Whatever is drawn, an evaluation that is not too deep looks up the cells of the traversal, and
both come to the same end. -/
theorem Evaluator.session_traversal {e : Evaluator} {cells : Cells} {current : Option Coord}
    {text : String} (h : ¬ TooDeep (e.tryEvaluate cells current text)) :
    ∃ r visits, (∃ n, ∀ fuel, n ≤ fuel →
        Traversal.tryEvaluate e cells current text fuel = some (r, visits)) ∧
      SameEnd (e.tryEvaluate cells current text) r ∧
      (¬ ReachesRandom e.options cells text → r = e.tryEvaluate cells current text) ∧
      (e.session cells current text).2.lookups = (Visit.allFresh [] visits).1.reverse := by
  have hend := e.session_fixed cells current text
  have hfixed : ¬ TooDeep (e.fixed.tryEvaluate cells current text) :=
    mt hend.ending.tooDeep_iff.2 h
  obtain ⟨visits, ⟨n, hn⟩, hlookups⟩ := session_traversal_of_fixed e.fixed_fixed hfixed
  refine ⟨_, visits, ⟨n, fun fuel hle => ?_⟩, hend.ending, fun hp => (hend.result hp).symm, ?_⟩
  · rw [← Traversal.tryEvaluate_fixed]
    exact hn fuel hle
  · rw [← hend.session.lookups]
    exact hlookups

end

/-- **Cells are looked up in order, formula cells once.** An evaluation never looks up the cell its
formula belongs to, and no formula cell twice. What it looks up is mentioned in its formula or in
one it has looked up, and there neither in the arguments of a function that is not known nor in an
operand that is dropped after a comparison. If it is not too deep, it looks up what the traversal of
the naive semantics visits, without what is visited again, and comes to the same end: it fails with
the same error, or both have a value, the same one if no number is drawn. -/
theorem Evaluator.lookups_in_order (e : Evaluator) (cells : Cells) (current : Option Coord)
    (text : String) :
    let o := e.options
    let out := e.outcome cells current text
    (∀ c, current = some c → c ∉ out.lookups) ∧
      (∀ c text, cells c = .formula text → out.lookups.count c ≤ 1) ∧
      (∀ c ∈ out.lookups, ∃ text', (text' = text ∨ ∃ d ∈ out.lookups, cells d = .formula text') ∧
        Mentions o text' c) ∧
      (∀ name args, Function.find? name = none → (Expr.call name args).steps o = []) ∧
      (∀ room x ts chain, Descent.dropped o room x ts = .ok chain → chain.value = x) ∧
      (o.grouping = .leftToRight → ∀ (l : Level) (x : Expr), (l.close o x).steps o =
        (Chain.ofBefore x [] l.before).cut.operands.flatMap (Expr.steps o)) ∧
      (¬ TooDeep out.result → ∃ r visits,
        (∃ n, ∀ fuel, n ≤ fuel →
          Traversal.tryEvaluate e cells current text fuel = some (r, visits)) ∧
        SameEnd out.result r ∧ (¬ ReachesRandom o cells text → r = out.result) ∧
        out.lookups = (Visit.allFresh [] visits).1) := by
  intro o out
  have hlookups : ∀ c, c ∈ out.lookups ↔ c ∈ (e.session cells current text).2.lookups :=
    fun c => List.mem_reverse
  have htidy := e.session_endsTidy cells current text
  refine ⟨?_, ?_, ?_, ?_, fun _ _ _ _ => Descent.value_of_dropped, fun ho => Level.steps_close ho,
    ?_⟩
  · rintro c rfl hc
    exact htidy.once.current c (by rw [htidy.frame]) ((hlookups c).1 hc)
  · intro c text' ht
    change (e.session cells current text).2.lookups.reverse.count c ≤ 1
    rw [List.count_reverse]
    exact htidy.once.formulas c text' ht
  · intro c hc
    rcases (e.session_growsFrom cells current text).source c ((hlookups c).1 hc) with
      hc | hc | ⟨d, hd, text', ht, hmentions⟩
    · cases hc
    · exact ⟨text, .inl rfl, hc⟩
    · exact ⟨text', .inr ⟨d, (hlookups d).2 hd, ht⟩, hmentions⟩
  · intro name args hname
    rw [Expr.steps, hname]
  · intro hdeep
    obtain ⟨r, visits, hwalk, hend, hvalue, heq⟩ := Evaluator.session_traversal hdeep
    refine ⟨r, visits, hwalk, hend, hvalue, ?_⟩
    change (e.session cells current text).2.lookups.reverse = _
    rw [heq, List.reverse_reverse]

/-- A formula cell that two others refer to, one of them again in a range. -/
theorem Evaluator.lookups_in_order_shared :
    let e : Evaluator := { surroundings := ⟨0, 0⟩ }
    let cells : Cells := fun c =>
      if c = ⟨0, 1⟩ then .formula "=D1+1" else if c = ⟨0, 2⟩ then .formula "=B1*D1"
      else if c = ⟨0, 3⟩ then .formula "=E1" else .value (.number 3)
    let out := e.outcome cells (some ⟨0, 0⟩) "=B1+SUM(B1:E1)"
    ¬ TooDeep out.result ∧ out.lookups = [⟨0, 1⟩, ⟨0, 3⟩, ⟨0, 4⟩, ⟨0, 2⟩, ⟨0, 4⟩] ∧
      ∃ r visits, (∃ n, ∀ fuel, n ≤ fuel →
          Traversal.tryEvaluate e cells (some ⟨0, 0⟩) "=B1+SUM(B1:E1)" fuel = some (r, visits)) ∧
        SameEnd out.result r ∧
        (¬ ReachesRandom e.options cells "=B1+SUM(B1:E1)" → r = out.result) ∧
        out.lookups = (Visit.allFresh [] visits).1 := by
  intro e cells out
  have h : ¬ TooDeep out.result := by decide +kernel
  exact ⟨h, by decide +kernel, (e.lookups_in_order cells (some ⟨0, 0⟩) _).2.2.2.2.2.2 h⟩

end Spreadsheet
