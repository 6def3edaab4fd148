import Spreadsheet.Proofs.Evaluation.Rounds

/-!
# The calls that an evaluation reaches

A call makes another one if it depends on what comes of it (`Calls`). All calls that an evaluation
reaches in this way keep its budgets, and what waits on each of them is what is under way
(`Evaluator.keeps_budgets`). A cell makes a call in one case only (`Calls.cell_iff`).
-/

namespace Spreadsheet

open Evaluation

/-- A call, and the session in which it is made. -/
abbrev Entry := Call × Session

/-- A call makes another one: what the first comes to can change when nothing changes but what the
second comes to. Every call that is made is found out, because a failure that was not there, or
another session, shows in whatever comes after it. -/
def Calls (e : Evaluator) (cells : Cells) (a b : Entry) : Prop :=
  ∃ self : Call → Evaluation Value,
    (∀ entry, entry ≠ b → (self entry.1).run entry.2 = (entry.1.evaluate e cells).run entry.2) ∧
      (a.1.round e cells self).run a.2 ≠ (a.1.evaluate e cells).run a.2

section
variable {e : Evaluator} {cells : Cells} {a b : Entry}

/-- A call makes only calls below it. -/
theorem Calls.descends (h : Calls e cells a b) :
    Descends e cells (a.1, a.2.frame) (b.1, b.2.frame) := by
  obtain ⟨self, hself, hne⟩ := h
  refine Classical.byContradiction fun hb => hne ?_
  refine (Call.round_sameIn a.1 (fun call g hcall s hs => ⟨hself (call, s) ?_, ?_⟩) a.2 rfl).1
  · rintro rfl
    subst hs
    exact hb hcall
  · rw [← hs]
    exact (Call.evaluate_keeps e cells call s).frame

/-- What meets every circle that a call meets makes this call. -/
theorem Calls.of_circular
    (h : ∀ (self : Call → Evaluation Value) (d : Coord),
      ((self b.1).run b.2).1 = .error (.circular d) →
      ((a.1.round e cells self).run a.2).1 = .error (.circular d)) : Calls e cells a b := by
  classical
  let patched (d : Coord) : Call → Evaluation Value := fun call => ExceptT.mk fun s =>
    if (call, s) = b then (.error (.circular d), s) else (call.evaluate e cells).run s
  have hpatched : ∀ d, ((a.1.round e cells (patched d)).run a.2).1 = .error (.circular d) := by
    intro d
    refine h _ d ?_
    change (ite _ _ _ : Except FormulaError Value × Session).1 = _
    rw [if_pos rfl]
  have hcalls : ∀ d, ((a.1.evaluate e cells).run a.2).1 ≠ .error (.circular d) →
      Calls e cells a b := by
    intro d hne
    refine ⟨patched d, fun entry hentry => if_neg hentry, fun heq => hne ?_⟩
    rw [← heq]
    exact hpatched d
  -- not all circles are the same
  by_cases hcircle : ((a.1.evaluate e cells).run a.2).1 = .error (.circular ⟨0, 0⟩)
  · refine hcalls ⟨0, 1⟩ ?_
    rw [hcircle]
    nofun
  · exact hcalls ⟨0, 0⟩ hcircle

theorem Call.not_before_of_cell (c : Coord) (b : Call) : ¬ (Call.cell c).Before b := by
  intro h
  cases b with
  | formula text => cases h with | left _ _ h => cases h
  | value onLeft x => cases h with
    | left _ _ h => cases h
    | right _ h => cases h
  | cell d => cases h with
    | left _ _ h => cases h
    | right _ h => cases h

/-- How a round goes on that evaluates the formula of a cell. -/
theorem Call.run_round_cell {self : Call → Evaluation Value} {c : Coord} {text : String}
    {s : Session} (hc : c ∉ s.frame.waiting) (hn : s.settled[c]? = none)
    (ht : cells c = .formula text) (hd : s.frame.chain.length < e.options.maxDepth)
    (hl : s.frame.levels < e.options.maxRecursion) :
    ((cell c).round e cells self).run s =
      (do
        let v ← tryCatch (ExceptT.mk fun _ =>
            let (r, s₁) := (self (.formula text)).run
              { s.lookedUp c with frame := s.frame.enterCell c }
            (r, { s₁ with frame := { s₁.frame with
              chain := s₁.frame.chain.erase c, levels := s₁.frame.levels - 1 } }))
          fun error => if error.isCycle then throw error else return Sentinel.error.value
        settle c v
        return v : Evaluation Value).run s := by
  change (cellValue cells (formulaCell e self) c).run s = _
  rw [run_cellValue, if_neg (mt Frame.waitsFor_iff.1 hc), hn, ht]
  change (ite _ _ _ : Evaluation Value).run (s.lookedUp c) = _
  have hd : (s.lookedUp c).frame.chain.length < e.options.maxDepth := hd
  have hcount : (countCell e.options c (self (.formula text))).run (s.lookedUp c) =
      (bracket (fun f => { f with levels := f.levels + 1 })
        (fun f => { f with levels := f.levels - 1 })
        (bracket (fun f => { f with chain := c :: f.chain })
          (fun f => { f with chain := f.chain.erase c }) (self (.formula text)))).run
        (s.lookedUp c) := by
    have hl : (s.lookedUp c).frame.levels < e.options.maxRecursion := hl
    change (ite _ _ _ : Evaluation Value).run (s.lookedUp c) = _
    rw [if_pos hl]
  rw [if_pos hd, Evaluation.run_bind, Evaluation.run_bind, Evaluation.run_tryCatch,
    Evaluation.run_tryCatch, hcount]
  rfl

/-- The call that a cell makes: its formula is evaluated if the cell is a formula cell that neither
waits nor is settled, and the budgets allow it. -/
theorem Calls.cell_iff {c : Coord} {s : Session} :
    Calls e cells (.cell c, s) b ↔
      ∃ text, cells c = .formula text ∧ c ∉ s.frame.waiting ∧ s.settled[c]? = none ∧
        s.frame.chain.length < e.options.maxDepth ∧ s.frame.levels < e.options.maxRecursion ∧
        b = (.formula text, { s.lookedUp c with frame := s.frame.enterCell c }) := by
  constructor
  · intro h
    obtain ⟨call, s'⟩ := b
    have hdescends := h.descends
    obtain ⟨self, hself, hne⟩ := h
    rw [← Call.round_evaluate] at hne
    generalize s'.frame = g at hdescends
    cases hdescends with
    | inside h | deeper h => exact absurd h (Call.not_before_of_cell c call)
    | @formula _ text _ hc ht hd hl =>
      have hn : s.settled[c]? = none := by
        cases hn : s.settled[c]? with
        | none => rfl
        | some v =>
          -- a settled cell makes no call
          refine absurd ?_ hne
          change (cellValue cells _ c).run s = (cellValue cells _ c).run s
          rw [run_cellValue, run_cellValue, hn]
      refine ⟨text, ht, hc, hn, hd, hl, Classical.byContradiction fun hb => hne ?_⟩
      dsimp only
      rw [Call.run_round_cell hc hn ht hd hl, Call.run_round_cell hc hn ht hd hl,
        hself (.formula text, { s.lookedUp c with frame := s.frame.enterCell c }) (Ne.symm hb)]
  · rintro ⟨text, ht, hc, hn, hd, hl, rfl⟩
    refine Calls.of_circular fun self d hcircle => ?_
    rcases hrun : (self (.formula text)).run
      { s.lookedUp c with frame := s.frame.enterCell c } with ⟨r, s₁⟩
    rw [hrun] at hcircle
    cases hcircle
    dsimp only
    rw [Call.run_round_cell hc hn ht hd hl, hrun]
    rfl

/-- The cell that waits for a call while another one goes on. -/
def Call.opens : Call → Call → List Coord
  | .cell c, .formula _ => [c]
  | _, _ => []

/-- A call that an evaluation reaches, in its session, and the formula cells whose formulas are
under way, the innermost first. -/
inductive Reached (e : Evaluator) (cells : Cells) (start : Entry) : List Coord → Entry → Prop
  | start : Reached e cells start [] start
  | call {path : List Coord} {a b : Entry} (h : Reached e cells start path a)
    (hcall : Calls e cells a b) : Reached e cells start (a.1.opens b.1 ++ path) b

/-- A frame within the budgets, with the current cell and the formula cells that are under way. -/
structure Evaluation.Frame.Within (o : Options) (cells : Cells) (current : Option Coord)
    (path : List Coord) (f : Frame) : Prop where
  distinct : (path ++ current.toList).Nodup
  formulas : ∀ c ∈ path, ∃ text, cells c = .formula text
  depth : path.length ≤ o.maxDepth
  depth_le_levels : path.length ≤ f.levels
  levels : f.levels ≤ o.maxRecursion
  chain : f.chain = path
  current : f.current = current

theorem Call.opens_of_before {a b : Call} (h : a.Before b) : a.opens b = [] := by
  cases a with
  | formula | value => rfl
  | cell c => exact absurd h (not_before_of_cell c b)

/-- A call below one that is within the budgets is within them too. -/
theorem Descends.within {current : Option Coord} {path : List Coord} {a b : Call} {f g : Frame}
    (h : Descends e cells (a, f) (b, g)) (hf : f.Within e.options cells current path) :
    g.Within e.options cells current (a.opens b ++ path) := by
  cases h with
  | inside h =>
    rw [Call.opens_of_before h]
    exact hf
  | deeper h hl =>
    rw [Call.opens_of_before h]
    exact { hf with depth_le_levels := Nat.le_succ_of_le hf.depth_le_levels, levels := hl }
  | @formula c text _ hc ht hd hl =>
    obtain ⟨hnodup, hformulas, hdepth, hle, hlevels, rfl, rfl⟩ := hf
    exact {
      distinct := List.nodup_cons.2 ⟨hc, hnodup⟩
      formulas := List.forall_mem_cons.2 ⟨⟨text, ht⟩, hformulas⟩
      depth := hd
      depth_le_levels := Nat.succ_le_succ hle
      levels := hl
      chain := rfl
      current := rfl }

theorem Reached.within {start : Entry} {current : Option Coord} {path : List Coord}
    {entry : Entry} (h : Reached e cells start path entry)
    (hstart : start.2.frame.Within e.options cells current []) :
    entry.2.frame.Within e.options cells current path := by
  induction h with
  | start => exact hstart
  | call _ hcall ih => exact hcall.descends.within ih

/-- **An evaluation keeps its budgets and its books.** The evaluation is the one solution of the
equations of its recursion, which is well founded. On every call that it reaches, no more formula
cells are under way than levels, neither more than is allowed, and what waits is the current cell
and these cells, all different. And however a call ends, in whatever session, it leaves the frame as
it was and all that was settled. -/
theorem Evaluator.keeps_budgets (e : Evaluator) (cells : Cells) (current : Option Coord)
    (text : String) :
    let start : Entry := (.formula text, { frame := { current } })
    e.session cells current text = (start.1.evaluate e cells).run start.2 ∧
      (∀ self : Call → Evaluation Value,
        (∀ call, call.round e cells self = self call) ↔ self = Call.evaluate e cells) ∧
      (WellFounded fun b a => Calls e cells a b) ∧
      (∀ path entry, Reached e cells start path entry →
        entry.2.frame.Within e.options cells current path) ∧
      ∀ (call : Call) (s : Session), ((call.evaluate e cells).run s).2.frame = s.frame ∧
        s.Grows ((call.evaluate e cells).run s).2 := by
  refine ⟨rfl, fun self => ⟨Call.evaluate_unique, ?_⟩, ?_, fun path entry h => h.within ?_,
    fun call s => ⟨(Call.evaluate_keeps e cells call s).frame,
      (Call.evaluate_keeps e cells call s).grows⟩⟩
  · rintro rfl
    exact Call.round_evaluate e cells
  · exact Subrelation.wf Calls.descends
      (InvImage.wf (fun a : Entry => (a.1, a.2.frame)) (Descends.wellFounded e cells))
  · exact ⟨by cases current <;> simp, nofun, Nat.zero_le _, Nat.le_refl _, Nat.zero_le _, rfl, rfl⟩

end

end Spreadsheet
