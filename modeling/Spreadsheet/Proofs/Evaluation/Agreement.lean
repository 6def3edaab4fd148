import Spreadsheet.Proofs.Evaluation.Draws

/-!
# Agreement with the naive semantics

A session remembers the values of the formula cells it has settled. `Session.Sound` is what keeps
this right: no cell that waits is settled, and a settled cell has the value that the naive semantics
gives it whatever cells wait, as long as these are not settled themselves. So a circle is never
hidden behind a settled cell: all formula cells that one depends on are settled too.

`Agrees` relates a computation in a session to a naive one, for an evaluator that draws the same
number over and over. It passes through every construct of the evaluation (`Agrees.transported`),
and through cells by induction on the room that is left for formula cells (`resolve_agrees`). What
other evaluators come to differs from this in values only, and only where a number is drawn
(`Evaluator.yields_sameEnd`, `Evaluator.yields_tryEvaluate`).
-/

namespace Spreadsheet

open Evaluation

/-! ## Sound sessions -/

namespace Evaluation.Session

/-- Cells that may wait while the settled cells of a session are read: none of them is settled, and
each is the current cell or a formula cell. -/
def Apart (cells : Cells) (s : Session) (waiting : List Coord) : Prop :=
  ∀ c ∈ waiting, s.settled[c]? = none ∧
    (s.frame.current = some c ∨ ∃ text, cells c = .formula text)

/-- What is settled is right, and nothing is settled that waits. -/
structure Sound (e : Evaluator) (cells : Cells) (s : Session) : Prop where
  apart : s.Apart cells s.frame.waiting
  settled : ∀ (c : Coord) (v : Value), s.settled[c]? = some v → ∀ waiting, s.Apart cells waiting →
    Naive.Yields (fun fuel => (Naive.cell e cells fuel waiting c).run) (.ok v)

/-- What was settled in a session is settled in a later one to the same value. -/
def Grows (s s' : Session) : Prop :=
  ∀ (c : Coord) (v : Value), s.settled[c]? = some v → s'.settled[c]? = some v

variable {e : Evaluator} {cells : Cells} {s s' : Session} {waiting : List Coord}

/-- What is not settled later was not settled before. -/
theorem Grows.settled_none {c : Coord} (h : s.Grows s') (hc : s'.settled[c]? = none) :
    s.settled[c]? = none := by
  cases hs : s.settled[c]? with
  | none => rfl
  | some v =>
    rw [h c v hs] at hc
    cases hc

/-- Cells that may wait later might have waited before. -/
theorem Apart.of_grows (h : s'.Apart cells waiting) (hg : s.Grows s')
    (hf : s'.frame.current = s.frame.current) : s.Apart cells waiting :=
  fun c hc => ⟨hg.settled_none (h c hc).1, hf ▸ (h c hc).2⟩

/-- A session stays sound when it goes back to a frame where no more cells wait. -/
theorem Sound.reframe (h : s.Sound e cells) {f : Frame} (hc : f.current = s.frame.current)
    (hw : f.waiting ⊆ s.frame.waiting) : ({ s with frame := f } : Session).Sound e cells where
  apart := fun c hc' => ⟨(h.apart c (hw hc')).1, hc ▸ (h.apart c (hw hc')).2⟩
  settled := fun c v hv waiting hwaiting =>
    h.settled c v hv waiting fun d hd => ⟨(hwaiting d hd).1, hc ▸ (hwaiting d hd).2⟩

end Evaluation.Session

/-! ## Computations that agree -/

section
variable (e : Evaluator) (cells : Cells) {α β : Type}

/-- What is right after a computation in a session that corresponds to a naive one. The naive one
has the same result whatever cells wait, as long as they are not settled; but a circle is met only
with the cells that really wait. -/
structure Agreement (plain : List Coord → Nat → Option (Except FormulaError α)) (s : Session)
    (r : Except FormulaError α) (s' : Session) : Prop where
  frame : s'.frame = s.frame
  grows : s.Grows s'
  sound : s'.Sound e cells
  yields : ∀ waiting, s'.Apart cells waiting → Contained r ∨ waiting = s.frame.waiting →
    Naive.Yields (plain waiting) r

/-- A computation in sessions comes to what a naive one comes to, if it is not too deep. -/
def Agrees (act : Evaluation α) (plain : List Coord → Nat → Naive α) : Prop :=
  ∀ s r s', s.Sound e cells → act.run s = (r, s') → ¬ TooDeep r →
    Agreement e cells (fun waiting fuel => (plain waiting fuel).run) s r s'

end

section
variable {e : Evaluator} {cells : Cells} {α β : Type}

/-- A result agrees with itself. -/
theorem Agrees.pure (a : α) : Agrees e cells (pure a) fun _ _ => pure a := by
  rintro s r s' hs ⟨⟩ _
  exact ⟨rfl, fun _ _ h => h, hs, fun _ _ _ => ⟨0, fun _ _ => rfl⟩⟩

/-- A failure agrees with itself. -/
theorem Agrees.throw (error : FormulaError) :
    Agrees e cells (throw error : Evaluation α) fun _ _ => throw error := by
  rintro s r s' hs ⟨⟩ _
  exact ⟨rfl, fun _ _ h => h, hs, fun _ _ _ => ⟨0, fun _ _ => rfl⟩⟩

/-- Computations that agree may follow each other. -/
theorem Agrees.bind {act : Evaluation α} {f : α → Evaluation β}
    {plain : List Coord → Nat → Naive α} {plainThen : α → List Coord → Nat → Naive β}
    (hact : Agrees e cells act plain) (hf : ∀ a, Agrees e cells (f a) (plainThen a)) :
    Agrees e cells (act >>= f) fun waiting fuel =>
      plain waiting fuel >>= fun a => plainThen a waiting fuel := by
  intro s r s' hs hrun hdeep
  rw [Evaluation.run_bind] at hrun
  rcases h : act.run s with ⟨error | a, s₁⟩
  · rw [h] at hrun
    cases hrun
    have hdeep : ¬ TooDeep (.error error : Except FormulaError α) := by
      rintro ⟨limit, ⟨⟩⟩
      exact hdeep ⟨limit, rfl⟩
    obtain ⟨hframe, hgrows, hsound, hyields⟩ := hact s _ _ hs h hdeep
    refine ⟨hframe, hgrows, hsound, fun waiting hw hr => ?_⟩
    have hr : Contained (.error error : Except FormulaError α) ∨ waiting = s.frame.waiting :=
      hr.imp_left fun hc => .error (hc error rfl)
    obtain ⟨n, hn⟩ := hyields waiting hw hr
    exact ⟨n, fun fuel hle => congrArg ExceptT.run (Naive.bind_of_error (hn fuel hle) _)⟩
  · rw [h] at hrun
    have hok : ¬ TooDeep (.ok a : Except FormulaError α) := by
      rintro ⟨limit, ⟨⟩⟩
    obtain ⟨hframe, hgrows, hsound, hyields⟩ := hact s _ _ hs h hok
    obtain ⟨hframe', hgrows', hsound', hyields'⟩ := hf a s₁ r s' hsound hrun hdeep
    refine ⟨hframe'.trans hframe, fun c v hv => hgrows' c v (hgrows c v hv), hsound', ?_⟩
    intro waiting hw hr
    obtain ⟨n, hn⟩ := hyields waiting (hw.of_grows hgrows' (by rw [hframe'])) (.inl (.ok a))
    obtain ⟨n', hn'⟩ := hyields' waiting hw (by rwa [hframe])
    refine ⟨max n n', fun fuel hle => ?_⟩
    have hn := hn fuel (Nat.le_trans (Nat.le_max_left ..) hle)
    have hn' := hn' fuel (Nat.le_trans (Nat.le_max_right ..) hle)
    exact (congrArg ExceptT.run (Naive.bind_of_ok hn _)).trans hn'

/-! ## Going deeper -/

/-- What is right after a computation in another frame. -/
theorem Agrees.of_within {act : Evaluation α} {plain : List Coord → Nat → Naive α}
    (hact : Agrees e cells act plain) {enter : Frame → Frame} {s s' : Session}
    {r : Except FormulaError α}
    (hs : ({ s with frame := enter s.frame } : Session).Sound e cells)
    (hrun : (within enter act).run s = (r, s')) (hdeep : ¬ TooDeep r) :
    ∃ s₁, s' = { s₁ with frame := s.frame } ∧
      Agreement e cells (fun waiting fuel => (plain waiting fuel).run)
        { s with frame := enter s.frame } r s₁ := by
  rw [Evaluation.run_within] at hrun
  cases hrun
  exact ⟨_, rfl, hact _ _ _ hs rfl hdeep⟩

/-- A level more agrees with no level, unless it is too deep. -/
theorem Agrees.level {act : Evaluation α} {plain : List Coord → Nat → Naive α}
    (hact : Agrees e cells act plain) (o : Options) : Agrees e cells (level o act) plain := by
  intro s r s' hs hrun hdeep
  rw [Evaluation.run_level] at hrun
  split at hrun
  · have hs₀ := hs.reframe (f := { s.frame with levels := s.frame.levels + 1 }) rfl
      (List.Subset.refl _)
    obtain ⟨s₁, rfl, h⟩ := hact.of_within hs₀ hrun hdeep
    have hw : s.frame.waiting ⊆ s₁.frame.waiting := by
      rw [h.frame]
      exact List.Subset.refl _
    have hc : s.frame.current = s₁.frame.current := by rw [h.frame]
    exact ⟨rfl, h.grows, h.sound.reframe hc hw, fun waiting hwaiting hr =>
      h.yields waiting (fun c hc' => ⟨(hwaiting c hc').1, hc ▸ (hwaiting c hc').2⟩) hr⟩
  · cases hrun
    exact absurd ⟨_, rfl⟩ hdeep

/-! ## Formulas and cells -/

/-- A call leaves a session sound. -/
theorem Evaluation.Session.Sound.called {s : Session} (h : s.Sound e cells) (f : Function) :
    (s.called f).Sound e cells :=
  ⟨h.apart, h.settled⟩

/-- A call agrees if the same number is drawn over and over. -/
theorem Agrees.call (he : e.Fixed) (f : Function) (args : List Value) :
    Agrees e cells (e.call f args) fun _ _ => e.plainCall f args := by
  rintro s r s' hs hrun _
  rw [Evaluator.run_call_of_fixed he] at hrun
  cases hrun
  exact ⟨rfl, fun _ _ h => h, hs.called f, fun _ _ _ => ⟨0, fun _ _ => rfl⟩⟩

/-- A naive evaluation while some cells wait, by a clock. -/
abbrev Clocked := ReaderT (List Coord) (ReaderT Nat Naive)

/-- Agreement passes through every construct of expressions. -/
theorem Agrees.transported (he : e.Fixed) :
    Transported (m := Clocked) e fun act plain => Agrees e cells act plain where
  pure := .pure
  throw := .throw
  tooDeep limit _ := by
    rintro s r s' _ ⟨⟩ hdeep
    exact absurd ⟨limit, rfl⟩ hdeep
  bind := .bind
  call := .call he
  level h := h.level _
  session h s r s' hs hrun hdeep := by
    obtain ⟨act', hact', hrun'⟩ := h s
    exact hact' s r s' hs (hrun' ▸ hrun) hdeep

/-- Cells that wait and a clock are nothing but passed on to the cells. -/
theorem naiveFormula_clocked (read : Coord → Clocked Value) (text : String) (waiting : List Coord)
    (fuel : Nat) :
    naiveFormula e read text waiting fuel =
      Naive.formula e (fun c => read c waiting fuel) text := by
  have h : PlainlyTransported Clocked Naive fun act plain => act waiting fuel = plain := by
    refine ⟨fun _ => rfl, fun _ => rfl, ?_⟩
    rintro α β act f _ g rfl hf
    exact bind_congr hf
  rw [Naive.formula_eq]
  exact h.formula (fun _ => rfl) text

variable {lookUp : Coord → Evaluation Value} {read : List Coord → Nat → Coord → Naive Value}

/-- The result of a formula agrees if the cells it refers to do. -/
theorem formulaValue_agrees (he : e.Fixed)
    (hread : ∀ c, Agrees e cells (lookUp c) fun waiting fuel => read waiting fuel c)
    (text : String) :
    Agrees e cells (formulaValue e lookUp text) fun waiting fuel =>
      Naive.formula e (read waiting fuel) text := by
  have h := (Agrees.transported he).formulaValue text fun c _ => hread c
  have hplain : (fun waiting fuel => Naive.formula e (read waiting fuel) text) =
      (naiveFormula e (fun c waiting fuel => read waiting fuel c) text : Clocked Value) :=
    funext fun waiting => funext fun fuel =>
      (naiveFormula_clocked (fun c waiting fuel => read waiting fuel c) text waiting fuel).symm
  rw [hplain]
  exact h

/-- What is settled after a cell has been. -/
theorem Evaluation.Session.getElem?_settle (s : Session) (c : Coord) (v : Value) (d : Coord) :
    (s.settle c v).settled[d]? = if c = d then some v else s.settled[d]? := by
  simp [Session.settle, Std.ExtTreeMap.getElem?_insert]

/-- Cells that may wait in a session where one more cell is settled. -/
theorem Evaluation.Session.apart_settle {s : Session} {c : Coord} {v : Value}
    {waiting : List Coord} :
    (s.settle c v).Apart cells waiting ↔ c ∉ waiting ∧ s.Apart cells waiting := by
  constructor
  · intro h
    have hc : c ∉ waiting := by
      intro hc
      have := (h c hc).1
      rw [Session.getElem?_settle, if_pos rfl] at this
      cases this
    refine ⟨hc, fun d hd => ⟨?_, (h d hd).2⟩⟩
    have := (h d hd).1
    rwa [Session.getElem?_settle, if_neg (ne_of_mem_of_not_mem hd hc).symm] at this
  · rintro ⟨hc, h⟩ d hd
    refine ⟨?_, (h d hd).2⟩
    rw [Session.getElem?_settle, if_neg (ne_of_mem_of_not_mem hd hc).symm]
    exact (h d hd).1

/-- A session stays sound when a formula cell that does not wait is settled to the value it has in
the naive semantics. -/
theorem Evaluation.Session.Sound.settle {s : Session} {c : Coord} {v : Value} (h : s.Sound e cells)
    (hc : c ∉ s.frame.waiting)
    (hv : ∀ waiting, c ∉ waiting → s.Apart cells waiting →
      Naive.Yields (fun fuel => (Naive.cell e cells fuel waiting c).run) (.ok v)) :
    (s.settle c v).Sound e cells where
  apart := Session.apart_settle.2 ⟨hc, h.apart⟩
  settled := fun d w hd waiting hw => by
    obtain ⟨hcw, hw⟩ := Session.apart_settle.1 hw
    rw [Session.getElem?_settle] at hd
    split at hd
    · next he =>
      subst he
      cases hd
      exact hv waiting hcw hw
    · exact h.settled d w hd waiting hw

/-- A cell yields what its formula yields while it waits. -/
theorem Naive.Yields.cell {c : Coord} {text : String} (ht : cells c = .formula text)
    {waiting : List Coord} (hc : c ∉ waiting) {r : Except FormulaError Value}
    (h : Yields (fun fuel =>
      (Naive.formula e (Naive.cell e cells fuel (c :: waiting)) text).run) r) :
    Yields (fun fuel => (Naive.cell e cells fuel waiting c).run) (cellResult r) := by
  obtain ⟨n, hn⟩ := h
  refine ⟨n + 1, fun fuel hle => ?_⟩
  obtain ⟨fuel, rfl⟩ : ∃ k, fuel = k + 1 := ⟨fuel - 1, by omega⟩
  exact Naive.cell_of_formula hc ht (hn fuel (by omega))

/-- What is right after the formula of a cell has been evaluated and its frame is left: the session
is sound, and the cell yields what the formula came to. -/
theorem Agreement.leaveCell {c : Coord} {text : String} {s s₁ : Session}
    {r : Except FormulaError Value} (ht : cells c = .formula text)
    (h : Agreement e cells (fun waiting fuel =>
        (Naive.formula e (Naive.cell e cells fuel waiting) text).run)
      { s with frame := s.frame.enterCell c } r s₁) :
    ({ s₁ with frame := s.frame } : Session).Sound e cells ∧
      ∀ waiting, c ∉ waiting → ({ s₁ with frame := s.frame } : Session).Apart cells waiting →
        Contained r ∨ waiting = s.frame.waiting →
        Naive.Yields (fun fuel => (Naive.cell e cells fuel waiting c).run)
          (Naive.cellResult r) := by
  obtain ⟨hframe, -, hsound, hyields⟩ := h
  have hcur : s.frame.current = s₁.frame.current := by
    rw [hframe]
    rfl
  have hsub : s.frame.waiting ⊆ s₁.frame.waiting := by
    rw [hframe]
    exact List.subset_cons_self ..
  refine ⟨hsound.reframe hcur hsub, fun waiting hc hw hr => ?_⟩
  have hn : s₁.settled[c]? = none := by
    refine (hsound.apart c ?_).1
    rw [hframe]
    exact .head _
  refine Naive.Yields.cell ht hc (hyields (c :: waiting) ?_ (hr.imp_right ?_))
  · refine List.forall_mem_cons.2 ⟨⟨hn, .inr ⟨text, ht⟩⟩, fun d hd => ⟨(hw d hd).1, ?_⟩⟩
    rw [← hcur]
    exact (hw d hd).2
  · rintro rfl
    rfl

/-- The value of a formula cell that neither waits nor is settled agrees if those of the cells it
refers to do. -/
theorem formulaCellValue_agreement (he : e.Fixed)
    (hread : ∀ c, Agrees e cells (lookUp c) fun waiting fuel => Naive.cell e cells fuel waiting c)
    {c : Coord} {text : String} (ht : cells c = .formula text) {s s' : Session}
    {r : Except FormulaError Value} (hs : s.Sound e cells) (hc : c ∉ s.frame.waiting)
    (hn : s.settled[c]? = none) (hrun : (formulaCellValue e lookUp c text).run s = (r, s'))
    (hdeep : ¬ TooDeep r) :
    Agreement e cells (fun waiting fuel => (Naive.cell e cells fuel waiting c).run) s r s' := by
  have hs₀ : ({ s with frame := s.frame.enterCell c } : Session).Sound e cells :=
    ⟨List.forall_mem_cons.2 ⟨⟨hn, .inr ⟨text, ht⟩⟩, hs.apart⟩, hs.settled⟩
  rw [run_formulaCellValue, Evaluation.run_cellLevel] at hrun
  by_cases hl : s.frame.levels < e.options.maxRecursion
  · rcases hrun₀ : (formulaValue e lookUp text).run { s with frame := s.frame.enterCell c } with
      ⟨r₀, s₁⟩
    rw [if_pos hl, hrun₀] at hrun
    dsimp only at hrun
    have hdeep₀ : ¬ TooDeep r₀ := by
      rintro ⟨limit, rfl⟩
      cases hrun
      exact hdeep ⟨limit, rfl⟩
    have hformula := formulaValue_agrees he hread text _ _ _ hs₀ hrun₀ hdeep₀
    obtain ⟨hsound, hcell⟩ := hformula.leaveCell ht
    cases hres : Naive.cellResult r₀ with
    | error error =>
      -- a circle: the cell is not settled
      rw [hres] at hrun hcell
      cases hrun
      obtain ⟨rfl, hcycle⟩ := Naive.cellResult_eq_error hres
      refine ⟨rfl, hformula.grows, hsound, fun waiting hw hr => ?_⟩
      rcases hr with hr | rfl
      · rw [hr _ rfl] at hcycle
        cases hcycle
      · exact hcell _ hc hw (.inr rfl)
    | ok v =>
      have hr₀ := Naive.contained_of_cellResult hres
      rw [hres] at hrun hcell
      cases hrun
      refine ⟨rfl, fun d w hd => ?_, hsound.settle hc fun waiting hcw hw =>
        hcell waiting hcw hw (.inl hr₀), fun waiting hw _ => ?_⟩
      · have hne : c ≠ d := by
          rintro rfl
          rw [hn] at hd
          cases hd
        rw [Session.getElem?_settle, if_neg hne]
        exact hformula.grows d w hd
      · obtain ⟨hcw, hw⟩ := Session.apart_settle.1 hw
        exact hcell waiting hcw hw (.inl hr₀)
  · rw [if_neg hl] at hrun
    cases hrun
    exact absurd ⟨_, rfl⟩ hdeep

/-- Looking up a cell leaves a session sound. -/
theorem Evaluation.Session.Sound.lookedUp {s : Session} (h : s.Sound e cells) (c : Coord) :
    (s.lookedUp c).Sound e cells :=
  ⟨h.apart, h.settled⟩

/-- A cell agrees if its formula does while it waits. -/
theorem cellValue_agrees {formulaCell : Coord → String → Evaluation Value}
    (hformula : ∀ c text s r s', cells c = .formula text → s.Sound e cells →
      c ∉ s.frame.waiting → s.settled[c]? = none → (formulaCell c text).run s = (r, s') →
      ¬ TooDeep r →
      Agreement e cells (fun waiting fuel => (Naive.cell e cells fuel waiting c).run) s r s')
    (c : Coord) :
    Agrees e cells (cellValue cells formulaCell c) fun waiting fuel =>
      Naive.cell e cells fuel waiting c := by
  intro s r s' hs hrun hdeep
  rw [run_cellValue] at hrun
  by_cases hw : c ∈ s.frame.waiting
  · rw [if_pos (Frame.waitsFor_iff.2 hw)] at hrun
    cases hrun
    refine ⟨rfl, fun _ _ h => h, hs, fun waiting _ hr => ?_⟩
    rcases hr with hr | rfl
    · cases hr _ rfl
    · exact ⟨0, fun _ _ => Naive.cell_of_mem hw⟩
  · rw [if_neg (mt Frame.waitsFor_iff.1 hw)] at hrun
    cases hc : s.settled[c]? with
    | some v =>
      rw [hc] at hrun
      cases hrun
      exact ⟨rfl, fun _ _ h => h, hs, fun waiting hwaiting _ => hs.settled c v hc waiting hwaiting⟩
    | none =>
      rw [hc] at hrun
      cases ht : cells c with
      | value v =>
        rw [ht] at hrun
        cases hrun
        refine ⟨rfl, fun _ _ h => h, hs.lookedUp c, fun waiting hwaiting _ =>
          ⟨0, fun _ _ => Naive.cell_of_value ?_ ht⟩⟩
        -- a cell that waits and holds no formula is the current cell
        intro hmem
        rcases (hwaiting c hmem).2 with hcur | ⟨text, ht'⟩
        · exact hw (by simp [Frame.waiting, show s.frame.current = some c from hcur])
        · rw [ht] at ht'
          cases ht'
      | formula text =>
        rw [ht] at hrun
        obtain ⟨hframe, hgrows, hsound, hyields⟩ :=
          hformula c text _ r s' ht (hs.lookedUp c) hw hc hrun hdeep
        exact ⟨hframe, hgrows, hsound, hyields⟩

/-- **Cells agree.** With any room for formula cells, a cell comes to the value or the circle that
it comes to in the naive semantics, if the evaluation is not too deep. -/
theorem resolve_agrees (he : e.Fixed) (cells : Cells) (room : Nat) (c : Coord) :
    Agrees e cells (resolve e cells room c) fun waiting fuel =>
      Naive.cell e cells fuel waiting c := by
  induction room generalizing c with
  | zero =>
    refine cellValue_agrees (fun c text s r s' _ _ _ _ hrun hdeep => ?_) c
    cases hrun
    exact absurd ⟨_, rfl⟩ hdeep
  | succ room ih =>
    exact cellValue_agrees (fun c text s r s' ht hs hc hn hrun hdeep =>
      formulaCellValue_agreement he ih ht hs hc hn hrun hdeep) c

end

/-! ## Whole evaluations -/

/-- After a computation in a session, the naive one with the cells that wait in the session comes to
the same. -/
theorem Agreement.yields_waiting {α : Type} {e : Evaluator} {cells : Cells}
    {plain : List Coord → Nat → Option (Except FormulaError α)} {s s' : Session}
    {r : Except FormulaError α} (h : Agreement e cells plain s r s') :
    Naive.Yields (plain s.frame.waiting) r := by
  refine h.yields _ ?_ (.inr rfl)
  have := h.sound.apart
  rwa [h.frame] at this

/-- In a new session nothing is settled. -/
theorem Evaluation.Session.Sound.start (e : Evaluator) (cells : Cells) (current : Option Coord) :
    ({ frame := { current } } : Session).Sound e cells := by
  refine ⟨fun c hc => ⟨rfl, .inl ?_⟩, fun c v hv => by cases hv⟩
  simpa [Frame.waiting] using hc

/-- The session of an evaluation that is not too deep and draws the same number over and over. -/
theorem Evaluator.session_agreement {e : Evaluator} (he : e.Fixed) (cells : Cells)
    (current : Option Coord) (text : String) (h : ¬ TooDeep (e.tryEvaluate cells current text)) :
    Agreement e cells (fun waiting fuel =>
        (Naive.formula e (Naive.cell e cells fuel waiting) text).run)
      { frame := { current } } (e.tryEvaluate cells current text)
      (e.session cells current text).2 :=
  formulaValue_agrees he (resolve_agrees he cells e.options.maxDepth) text _ _ _
    (.start e cells current) rfl h

/-- What an evaluation with the same number over and over comes to, the naive semantics comes to. -/
theorem Evaluator.yields_fixed (e : Evaluator) (cells : Cells) (current : Option Coord)
    (text : String) (h : ¬ TooDeep (e.tryEvaluate cells current text)) :
    Naive.Yields (Naive.tryEvaluate e cells current text)
      (e.fixed.tryEvaluate cells current text) := by
  have hdeep := mt (e.sameEnd_fixed cells current text).tooDeep_iff.2 h
  rw [← Naive.tryEvaluate_fixed]
  exact (session_agreement e.fixed_fixed cells current text hdeep).yields_waiting

/-- Whatever is drawn, an evaluation that is not too deep ends as the naive semantics does: both
have a value, or both the same error. -/
theorem Evaluator.yields_sameEnd (e : Evaluator) (cells : Cells) (current : Option Coord)
    (text : String) (h : ¬ TooDeep (e.tryEvaluate cells current text)) :
    ∃ r, Naive.Yields (Naive.tryEvaluate e cells current text) r ∧
      SameEnd (e.tryEvaluate cells current text) r :=
  ⟨_, e.yields_fixed cells current text h, e.sameEnd_fixed cells current text⟩

/-- **An evaluation agrees with the naive semantics.** If it draws no number and is not too deep,
then the naive one comes to its end, with the same value or the same error. -/
theorem Evaluator.yields_tryEvaluate (e : Evaluator) (cells : Cells) (current : Option Coord)
    (text : String) (hrandom : ¬ ReachesRandom e.options cells text)
    (h : ¬ TooDeep (e.tryEvaluate cells current text)) :
    Naive.Yields (Naive.tryEvaluate e cells current text) (e.tryEvaluate cells current text) := by
  rw [← Evaluator.tryEvaluate_fixed hrandom]
  exact e.yields_fixed cells current text h

/-- A cell that is needed twice, and settled in between. -/
theorem Evaluator.yields_tryEvaluate_shared :
    let e : Evaluator := { surroundings := ⟨0, 0⟩ }
    let cells : Cells := fun c => if c = ⟨0, 1⟩ then .formula "=C1*2" else .value (.number 3)
    ¬ ReachesRandom e.options cells "=B1+B1" ∧
      ¬ TooDeep (e.tryEvaluate cells (some ⟨0, 0⟩) "=B1+B1") ∧
      Naive.Yields (Naive.tryEvaluate e cells (some ⟨0, 0⟩) "=B1+B1")
        (e.tryEvaluate cells (some ⟨0, 0⟩) "=B1+B1") := by
  intro e cells
  have hrandom : ¬ ReachesRandom e.options cells "=B1+B1" := by
    refine not_reachesRandom (by decide +kernel) fun c text hc => ?_
    dsimp only [cells] at hc
    split at hc <;> cases hc
    decide +kernel
  have h : ¬ TooDeep (e.tryEvaluate cells (some ⟨0, 0⟩) "=B1+B1") := by decide +kernel
  exact ⟨hrandom, h, Evaluator.yields_tryEvaluate e cells _ _ hrandom h⟩

end Spreadsheet
