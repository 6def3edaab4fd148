import Spreadsheet.Proofs.Evaluation.Frames
import Spreadsheet.Proofs.Evaluation.Traversal

/-!
# Looking up in the order of the traversal

What a session looks up is what the traversal visits, without what it visits again: `Records` says
so of a computation and a traversal, whatever both have looked up before. It passes through every
construct of the evaluation (`Records.transported`), and through cells by induction on the room that
is left for formula cells (`resolve_records`): a cell that the session has settled is a formula cell
that the traversal has seen.
-/

namespace Spreadsheet

open Evaluation

namespace Evaluation.Session

/-- The formula cells that are settled in a session. -/
def Knows (s : Session) (seen : List Coord) : Prop :=
  ∀ c, c ∈ seen ↔ ∃ v, s.settled[c]? = some v

/-- A sound session in which these cells wait and only formula cells are settled. -/
structure Ready (e : Evaluator) (cells : Cells) (waiting : List Coord) (s : Session) : Prop where
  sound : s.Sound e cells
  formulas : ∀ (c : Coord) (v : Value), s.settled[c]? = some v → ∃ text, cells c = .formula text
  waiting : s.frame.waiting = waiting

variable {s s' : Session} {seen : List Coord} {c : Coord}

/-- The session in which an evaluation begins. -/
theorem Ready.start (e : Evaluator) (cells : Cells) (current : Option Coord) :
    ({ frame := { current } } : Session).Ready e cells current.toList := by
  refine ⟨⟨fun c hc => ⟨rfl, .inl ?_⟩, ?_⟩, ?_, rfl⟩
  · simpa [Frame.waiting] using hc
  · intro c v hv
    cases hv
  · intro c v hv
    cases hv

/-- At the beginning nothing is settled. -/
theorem Knows.start (f : Frame) : ({ frame := f } : Session).Knows [] := by
  intro c
  constructor
  · intro hc
    cases hc
  · rintro ⟨v, hv⟩
    cases hv

/-- A cell that is settled is known. -/
theorem Knows.settle (h : s.Knows seen) (v : Value) : (s.settle c v).Knows (c :: seen) := by
  intro d
  rw [Session.getElem?_settle]
  by_cases hd : c = d
  · simp [hd]
  · rw [if_neg hd, ← h d]
    simp [Ne.symm hd]

/-- A cell that is not settled is not known. -/
theorem Knows.not_mem (h : s.Knows seen) (hn : s.settled[c]? = none) : c ∉ seen := by
  rw [h c, hn]
  rintro ⟨v, ⟨⟩⟩

/-- What is known depends on the cells that are settled alone. -/
theorem Knows.of_settled (h : s.Knows seen) (hs : s'.settled = s.settled) : s'.Knows seen := by
  unfold Session.Knows
  rwa [hs]

end Evaluation.Session

section
variable (e : Evaluator) (cells : Cells) (waiting : List Coord) {α β : Type}

/-- What a session has looked up after a computation, where a traversal has noted these visits. -/
def Looks (s : Session) (r : Except FormulaError α) (s' : Session) (visits : List Visit) : Prop :=
  ∀ seen, s.Knows seen →
    s'.lookups = (Visit.allFresh seen visits).1.reverse ++ s.lookups ∧
      (Contained r → s'.Knows (Visit.allFresh seen visits).2)

/-- A computation that is not too deep looks up what a traversal visits, without what it visits
again, and comes to the same. -/
def Records (act : Evaluation α) (walk : Traversal α) : Prop :=
  ∀ s r s' before r' after, s.Ready e cells waiting → act.run s = (r, s') → ¬ TooDeep r →
    walk.run before = some (r', after) →
    r' = r ∧ s'.frame = s.frame ∧ s'.Ready e cells waiting ∧
      ∃ visits, after = before ++ visits ∧ Looks s r s' visits

end

section
variable {e : Evaluator} {cells : Cells} {waiting : List Coord} {α β : Type}

/-! ## Parts of computations -/

/-- A computation that looks nothing up. -/
theorem Looks.nil {s s' : Session} {r : Except FormulaError α} (hl : s'.lookups = s.lookups)
    (hs : s'.settled = s.settled) : Looks s r s' [] := by
  intro seen hseen
  exact ⟨hl, fun _ => hseen.of_settled hs⟩

/-- Two computations one after the other look up what both visit. -/
theorem Looks.append {s s₁ s' : Session} {a : α} {r : Except FormulaError β}
    {visits visits' : List Visit} (h : Looks s (.ok a) s₁ visits) (h' : Looks s₁ r s' visits') :
    Looks s r s' (visits ++ visits') := by
  intro seen hseen
  obtain ⟨hlookups, hknows⟩ := h seen hseen
  obtain ⟨hlookups', hknows'⟩ := h' _ (hknows (.ok a))
  rw [Visit.allFresh_append]
  refine ⟨?_, hknows'⟩
  rw [hlookups', hlookups, List.reverse_append, List.append_assoc]

/-- A result looks nothing up. -/
theorem Records.pure (a : α) : Records e cells waiting (Pure.pure a) (Pure.pure a) := by
  rintro s r s' before r' after hs ⟨⟩ _ ⟨⟩
  exact ⟨rfl, rfl, hs, [], (List.append_nil _).symm, .nil rfl rfl⟩

/-- A failure looks nothing up. -/
theorem Records.throw (error : FormulaError) :
    Records e cells waiting (throw error : Evaluation α) (MonadExcept.throw error) := by
  rintro s r s' before r' after hs ⟨⟩ _ ⟨⟩
  exact ⟨rfl, rfl, hs, [], (List.append_nil _).symm, .nil rfl rfl⟩

/-- Computations may follow each other, as the traversals do. -/
theorem Records.bind {act : Evaluation α} {f : α → Evaluation β} {walk : Traversal α}
    {g : α → Traversal β} (h : Records e cells waiting act walk)
    (hf : ∀ a, Records e cells waiting (f a) (g a)) :
    Records e cells waiting (act >>= f) (walk >>= g) := by
  intro s r s' before r' after hs hrun hdeep hwalk
  rw [Evaluation.run_bind] at hrun
  rw [Noting.run_bind] at hwalk
  rcases hact : act.run s with ⟨r₁, s₁⟩
  rcases hwalk₁ : walk.run before with _ | ⟨r₁', between⟩
  · rw [hwalk₁] at hwalk
    cases hwalk
  rw [hact] at hrun
  rw [hwalk₁] at hwalk
  have hdeep₁ : ¬ TooDeep r₁ := by
    rintro ⟨limit, rfl⟩
    cases hrun
    exact hdeep ⟨limit, rfl⟩
  obtain ⟨rfl, hframe, hs₁, visits, rfl, hlooks⟩ := h _ _ _ _ _ _ hs hact hdeep₁ hwalk₁
  cases r₁' with
  | error error =>
    cases hrun
    cases hwalk
    refine ⟨rfl, hframe, hs₁, visits, rfl, fun seen hseen => ?_⟩
    exact ⟨(hlooks seen hseen).1, fun hr => (hlooks seen hseen).2 (.error (hr error rfl))⟩
  | ok a =>
    obtain ⟨rfl, hframe', hs', visits', rfl, hlooks'⟩ := hf a _ _ _ _ _ _ hs₁ hrun hdeep hwalk
    exact ⟨rfl, hframe'.trans hframe, hs', visits ++ visits', List.append_assoc ..,
      hlooks.append hlooks'⟩

/-- The same session in another frame in which the same cells wait. -/
theorem Evaluation.Session.Ready.reframe {s : Session} (h : s.Ready e cells waiting) {f : Frame}
    (hc : f.current = s.frame.current) (hw : f.waiting = s.frame.waiting) :
    ({ s with frame := f } : Session).Ready e cells waiting where
  sound := h.sound.reframe hc (hw ▸ List.Subset.refl _)
  formulas := h.formulas
  waiting := hw.trans h.waiting

/-- A level more looks nothing up. -/
theorem Records.level {act : Evaluation α} {walk : Traversal α}
    (h : Records e cells waiting act walk) (o : Options) :
    Records e cells waiting (level o act) walk := by
  intro s r s' before r' after hs hrun hdeep hwalk
  rw [Evaluation.run_level] at hrun
  split at hrun
  · rw [Evaluation.run_within] at hrun
    cases hrun
    let s₀ : Session := { s with frame := { s.frame with levels := s.frame.levels + 1 } }
    obtain ⟨hr, hframe, hs₁, visits, hafter, hlooks⟩ :=
      h s₀ _ _ _ _ _ (hs.reframe rfl rfl) rfl hdeep hwalk
    refine ⟨hr, rfl, hs₁.reframe ?_ ?_, visits, hafter, hlooks⟩
    · exact (congrArg Frame.current hframe).symm
    · exact (congrArg Frame.waiting hframe).symm
  · cases hrun
    exact absurd ⟨_, rfl⟩ hdeep

/-- A call looks nothing up. -/
theorem Records.call (he : e.Fixed) (f : Function) (args : List Value) :
    Records e cells waiting (e.call f args) (e.plainCall f args) := by
  rintro s r s' before r' after hs hrun _ ⟨⟩
  rw [Evaluator.run_call_of_fixed he] at hrun
  cases hrun
  exact ⟨rfl, rfl, ⟨hs.sound.called f, hs.formulas, hs.waiting⟩, [], (List.append_nil _).symm,
    .nil rfl rfl⟩

/-- Recording passes through every construct of expressions. -/
theorem Records.transported (he : e.Fixed) :
    Transported (m := Traversal) e fun act walk => Records e cells waiting act walk where
  pure := .pure
  throw := .throw
  tooDeep limit _ := by
    rintro s r s' before r' after _ ⟨⟩ hdeep _
    exact absurd ⟨limit, rfl⟩ hdeep
  bind := .bind
  call := .call he
  level h := h.level e.options
  session h s r s' before r' after hs hrun hdeep hwalk := by
    obtain ⟨act', hact', heq⟩ := h s
    exact hact' s r s' before r' after hs (heq ▸ hrun) hdeep hwalk

/-! ## Cells -/

variable {lookUp : Coord → Evaluation Value} {c : Coord} {text : String} {fuel : Nat}

/-- A session that is ready is so inside a formula cell, which waits then. -/
theorem Evaluation.Session.Ready.enterCell {s : Session} (h : s.Ready e cells waiting)
    (hn : s.settled[c]? = none) (ht : cells c = .formula text) :
    ({ s.lookedUp c with frame := s.frame.enterCell c } : Session).Ready e cells
      (c :: waiting) where
  sound := ⟨List.forall_mem_cons.2 ⟨⟨hn, .inr ⟨text, ht⟩⟩, h.sound.apart⟩, h.sound.settled⟩
  formulas := h.formulas
  waiting := congrArg (c :: ·) h.waiting

/-- A cell that is settled is looked up no more. -/
theorem Looks.settled {s : Session} {v : Value} (hv : s.settled[c]? = some v)
    (r : Except FormulaError Value) (below : List Visit) : Looks s r s [.formula c below] := by
  intro seen hseen
  rw [Visit.allFresh_singleton, Visit.fresh, if_pos ((hseen c).2 ⟨v, hv⟩)]
  exact ⟨rfl, fun _ => hseen⟩

/-- A plain value is looked up, whatever it comes to. -/
theorem Looks.plain (s : Session) (c : Coord) (r : Except FormulaError Value) :
    Looks s r (s.lookedUp c) [.plain c] := by
  intro seen hseen
  rw [Visit.allFresh_singleton, Visit.fresh]
  exact ⟨rfl, fun _ => hseen⟩

/-- A formula cell that is not settled is looked up, and then what its formula looks up while it
waits. -/
theorem Looks.formula {s s₁ : Session} {r₀ : Except FormulaError Value} {below : List Visit}
    (hn : s.settled[c]? = none)
    (h : Looks { s.lookedUp c with frame := s.frame.enterCell c } r₀ s₁ below) (seen : List Coord)
    (hseen : s.Knows seen) :
    s₁.lookups = (Visit.allFresh seen [.formula c below]).1.reverse ++ s.lookups ∧
      (Contained r₀ → ∀ v, (s₁.settle c v).Knows (Visit.allFresh seen [.formula c below]).2) := by
  obtain ⟨hlookups, hknows⟩ := h seen hseen
  rw [Visit.allFresh_singleton, Visit.fresh, if_neg (hseen.not_mem hn)]
  refine ⟨?_, fun hr v => (hknows hr).settle v⟩
  rw [hlookups]
  simp [Session.lookedUp]

/-- What the formula of a cell looks up that is not settled, and what the traversal has noted for
it. -/
theorem formulaValue_looks (he : e.Fixed) {n : Nat}
    (ih : ∀ fuel d, Records e cells (c :: waiting) (resolve e cells n d)
      (Traversal.cell e cells fuel (c :: waiting) d))
    {s s₁ : Session} {r₀ r' : Except FormulaError Value} {before after : List Visit}
    (hs : s.Ready e cells waiting) (hc : c ∉ s.frame.waiting) (hn : s.settled[c]? = none)
    (ht : cells c = .formula text)
    (hrun : (formulaValue e (resolve e cells n) text).run
      { s.lookedUp c with frame := s.frame.enterCell c } = (r₀, s₁)) (hdeep : ¬ TooDeep r₀)
    (hwalk : (Traversal.cell e cells fuel waiting c).run before = some (r', after)) :
    ∃ below, after = before ++ [.formula c below] ∧ s₁.Ready e cells (c :: waiting) ∧
      Looks { s.lookedUp c with frame := s.frame.enterCell c } r₀ s₁ below := by
  rw [hs.waiting] at hc
  obtain ⟨fuel', r₀', below, rfl, hvisits, -, hafter⟩ := Traversal.run_cell_eq_some hc ht hwalk
  have hrecords := (Records.transported he).formulaValue text fun d _ => ih fuel' d
  obtain ⟨-, -, hready, visits, hbelow, hlooks⟩ :=
    hrecords _ _ _ _ _ _ (hs.enterCell hn ht) hrun hdeep hvisits
  rw [List.nil_append] at hbelow
  subst hbelow
  exact ⟨below, hafter, hready, hlooks⟩

/-- What is looked up when a cell is read. -/
theorem Resolved.looks (he : e.Fixed) {room : Nat}
    (ih : ∀ n < room, ∀ fuel waiting d,
      Records e cells waiting (resolve e cells n d) (Traversal.cell e cells fuel waiting d))
    {s s' : Session} {r r' : Except FormulaError Value} {before after : List Visit}
    (h : Resolved e cells room c s r s') (hs : s.Ready e cells waiting) (hdeep : ¬ TooDeep r)
    (hwalk : (Traversal.cell e cells fuel waiting c).run before = some (r', after)) :
    (∀ d v, s'.settled[d]? = some v → ∃ text, cells d = .formula text) ∧
      ∃ visits, after = before ++ visits ∧ Looks s r s' visits := by
  cases h with
  | tooDeep limit => exact absurd ⟨limit, rfl⟩ hdeep
  | waits hc =>
    rw [hs.waiting] at hc
    rw [Traversal.run_cell_of_mem hc] at hwalk
    cases hwalk
    exact ⟨hs.formulas, [], (List.append_nil _).symm, .nil rfl rfl⟩
  | settled hc hv =>
    rw [hs.waiting] at hc
    obtain ⟨text, ht⟩ := hs.formulas c _ hv
    obtain ⟨_, _, below, _, _, _, hafter⟩ := Traversal.run_cell_eq_some hc ht hwalk
    exact ⟨hs.formulas, _, hafter, .settled hv _ below⟩
  | value hc hn hv =>
    rw [hs.waiting] at hc
    rw [Traversal.run_cell_of_value hc hv] at hwalk
    cases hwalk
    exact ⟨hs.formulas, _, rfl, .plain s c _⟩
  | @failed text n error s₁ hc hn ht hroom hrun hcycle =>
    obtain ⟨below, hafter, hready, hlooks⟩ :=
      formulaValue_looks he (fun fuel d => ih n (by omega) fuel _ d) hs hc hn ht hrun hdeep hwalk
    refine ⟨hready.formulas, _, hafter, fun seen hseen => ?_⟩
    refine ⟨(Looks.formula hn hlooks seen hseen).1, fun hr => ?_⟩
    rw [hr error rfl] at hcycle
    cases hcycle
  | @formula text n r₀ v s₁ hc hn ht hroom hrun hv =>
    have hr₀ := Naive.contained_of_cellResult hv
    have hdeep₀ : ¬ TooDeep r₀ := by
      rintro ⟨limit, rfl⟩
      cases hr₀ _ rfl
    obtain ⟨below, hafter, hready, hlooks⟩ :=
      formulaValue_looks he (fun fuel d => ih n (by omega) fuel _ d) hs hc hn ht hrun hdeep₀ hwalk
    refine ⟨fun d w hw => ?_, _, hafter, fun seen hseen => ?_⟩
    · rw [Session.getElem?_settle] at hw
      split at hw
      · next heq => exact ⟨text, heq ▸ ht⟩
      · exact hready.formulas d w hw
    · obtain ⟨hlookups, hknows⟩ := Looks.formula hn hlooks seen hseen
      exact ⟨hlookups, fun _ => hknows hr₀ v⟩

/-- **Cells are looked up in the order of the traversal.** -/
theorem resolve_records (he : e.Fixed) (cells : Cells) (room fuel : Nat) (waiting : List Coord)
    (c : Coord) :
    Records e cells waiting (resolve e cells room c) (Traversal.cell e cells fuel waiting c) := by
  induction room using Nat.strongRecOn generalizing fuel waiting c with
  | ind room ih =>
    intro s r s' before r' after hs hrun hdeep hwalk
    have hagreement := resolve_agrees he cells room c s r s' hs.sound hrun hdeep
    have hyields := hagreement.yields_waiting
    rw [hs.waiting] at hyields
    have hplain : (Naive.cell e cells fuel waiting c).run = some r' := by
      rw [← Traversal.erases_cell e cells fuel waiting c before, hwalk]
      rfl
    have hr : r' = r := Naive.Yields.unique ⟨fuel, fun _ hle => Naive.cell_mono hplain hle⟩ hyields
    obtain ⟨hformulas, hvisits⟩ := (resolve_resolved hrun).looks he ih hs hdeep hwalk
    have hwaiting : s'.frame.waiting = waiting := by rw [hagreement.frame, hs.waiting]
    exact ⟨hr, hagreement.frame, ⟨hagreement.sound, hformulas, hwaiting⟩, hvisits⟩

end

end Spreadsheet
