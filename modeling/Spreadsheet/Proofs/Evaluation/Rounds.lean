import Spreadsheet.Proofs.Evaluation.Frames

/-!
# Rounds of the evaluation

An evaluation is a recursion of three kinds of calls: the result of a formula, the value of an
expression and the value of a cell. `Call.round` is one round of it, with the calls it makes left
open. It counts levels and lets cells wait by opening and closing, where the evaluation goes to
another frame and back. A call depends only on the calls that it descends to (`Descends`), which is
well founded, so the evaluation is the one solution of the equations of this recursion
(`Call.round_evaluate`, `Call.evaluate_unique`).
-/

namespace Spreadsheet

open Evaluation

/-! ## One round -/

namespace Evaluation

variable {α : Type}

/-- Goes on with something opened, and closes it afterwards, however the computation ends. -/
def bracket (opening closing : Frame → Frame) (act : Evaluation α) : Evaluation α :=
  ExceptT.mk do
    modify fun s => { s with frame := opening s.frame }
    let result ← act.run
    modify fun s => { s with frame := closing s.frame }
    return result

/-- Counts one level more, if there is one left, and one less afterwards. -/
def countLevel (o : Options) (act : Evaluation α) : Evaluation α := do
  if (← get).frame.levels < o.maxRecursion then
    bracket (fun f => { f with levels := f.levels + 1 })
      (fun f => { f with levels := f.levels - 1 }) act
  else throw (.tooDeep o.maxRecursion)

/-- Counts one level more, and lets a cell wait meanwhile. -/
def countCell (o : Options) (c : Coord) (act : Evaluation α) : Evaluation α :=
  countLevel o (bracket (fun f => { f with chain := c :: f.chain })
    (fun f => { f with chain := f.chain.erase c }) act)

end Evaluation

/-- A call that an evaluation makes. -/
inductive Call where
  /-- The result of a formula. -/
  | formula (text : String)
  /-- The value of an expression, which stands on the left of an operator or not. -/
  | value (onLeft : Bool) (x : Expr)
  /-- The value of a cell. -/
  | cell (c : Coord)

namespace Call

section
variable (e : Evaluator) (cells : Cells) (self : Call → Evaluation Value)

/-- The values of arguments, given what calls come to. -/
def arguments : List Expr → Evaluation (List Value)
  | [] => return []
  | .range r :: args =>
    return (← r.values e.options fun c => self (.cell c)) ++ (← arguments args)
  | .cell c :: args => return (← self (.cell c)) :: (← arguments args)
  | x :: args => return (← self (.value false x)) :: (← arguments args)

/-- The value of a formula cell, given what calls come to. -/
def formulaCell (c : Coord) (text : String) : Evaluation Value := do
  if (← get).frame.chain.length < e.options.maxDepth then
    let v ← tryCatch (countCell e.options c (self (.formula text))) fun error =>
      if error.isCycle then throw error else return Sentinel.error.value
    settle c v
    return v
  else throw (.tooDeep e.options.maxDepth)

/-- One round of the evaluation: what a call comes to, given what the calls it makes come to. -/
def round : Call → Evaluation Value
  | .formula text => do
    let left := e.options.maxRecursion - (← get).frame.levels
    let x ← liftExcept (Expr.ofFormulaWithin e.options left text)
    return (← self (.value false x)).displayed
  | .value _ (.number n) => return .number n
  | .value _ (.text s) | .value _ (.bare s) => return .text s
  | .value _ (.cell c) => return (← self (.cell c)).asOperand
  | .value _ (.range r) => throw (.rangeAsValue r)
  | .value _ (.negate x) => countLevel e.options do
    return .ofFinite (-(← self (.value false x)).toNumber)
  | .value onLeft (.binary op l r) =>
    let operation : Evaluation Value := do
      return op.apply (← self (.value true l)) (← self (.value false r))
    if onLeft then operation else countLevel e.options operation
  | .value _ (.call name args) => countLevel e.options do
    match Function.find? name with
    | none => return Sentinel.name.value
    | some f => do e.call f (← arguments e self args)
  | .cell c => cellValue cells (formulaCell e self) c

end

section
variable (e : Evaluator) (cells : Cells)

/-- What is left for formula cells in a frame. -/
def room (f : Frame) : Nat :=
  e.options.maxDepth - f.chain.length

/-- What a call comes to, given how cells are looked up. -/
def evaluateWith (lookUp : Coord → Evaluation Value) : Call → Evaluation Value
  | .formula text => formulaValue e lookUp text
  | .value onLeft x => x.value e lookUp onLeft
  | .cell c => lookUp c

/-- What a call comes to in the evaluation, with what the session has left for formula cells. -/
def evaluate (call : Call) : Evaluation Value := do
  call.evaluateWith e (resolve e cells (room e (← get).frame))

end

/-- Formulas come before expressions, expressions before their parts, and cells last. -/
noncomputable def rank : Call → Nat × Nat
  | .formula _ => (1, 0)
  | .value _ x => (0, sizeOf x)
  | .cell _ => (0, 0)

/-- Whether a call comes before another one in this order. -/
def Before (a b : Call) : Prop :=
  Prod.Lex (· < ·) (· < ·) b.rank a.rank

end Call

/-! ## Calls below a call -/

/-- A call in a frame is below another one in another frame. -/
inductive Descends (e : Evaluator) (cells : Cells) : Call × Frame → Call × Frame → Prop
  /-- A part of an expression, or the expression of a formula. -/
  | inside {a b : Call} {f : Frame} (h : a.Before b) : Descends e cells (a, f) (b, f)
  /-- A part of an expression, a level deeper. -/
  | deeper {a b : Call} {f : Frame} (h : a.Before b) (hl : f.levels < e.options.maxRecursion) :
    Descends e cells (a, f) (b, { f with levels := f.levels + 1 })
  /-- The formula of a cell. -/
  | formula {c : Coord} {text : String} {f : Frame} (hc : c ∉ f.waiting)
    (ht : cells c = .formula text) (hd : f.chain.length < e.options.maxDepth)
    (hl : f.levels < e.options.maxRecursion) :
    Descends e cells (.cell c, f) (.formula text, f.enterCell c)

/-- There is no infinite descent from call to call. -/
theorem Descends.wellFounded (e : Evaluator) (cells : Cells) :
    WellFounded fun b a => Descends e cells a b := by
  let measure : Call × Frame → Nat × Nat × Nat := fun a => (Call.room e a.2, a.1.rank)
  let order : WellFoundedRelation (Nat × Nat × Nat) :=
    Prod.lex Nat.lt_wfRel (Prod.lex Nat.lt_wfRel Nat.lt_wfRel)
  refine Subrelation.wf (r := InvImage order.rel measure) ?_ (InvImage.wf measure order.wf)
  intro b a h
  cases h with
  | inside h => exact .right _ h
  | deeper h => exact .right _ h
  | formula _ _ hd =>
    exact .left _ _ (Nat.sub_lt_sub_left hd (Nat.lt_succ_self _))

/-! ## Computations that run alike in a frame -/

section
variable {α β : Type}

/-- Two computations that do the same in every session with this frame, which they keep. -/
def SameIn (f : Frame) (act act' : Evaluation α) : Prop :=
  ∀ s : Session, s.frame = f → act.run s = act'.run s ∧ (act'.run s).2.frame = f

variable {f : Frame} {act act' act'' : Evaluation α}

/-- An action that keeps the frame is the same as itself in every frame. -/
theorem Keeps.sameIn (h : Keeps act) (f : Frame) : SameIn f act act := by
  rintro s rfl
  exact ⟨rfl, (h s).frame⟩

/-- Sameness in a frame is transitive. -/
theorem SameIn.trans (h : SameIn f act act') (h' : SameIn f act' act'') : SameIn f act act'' :=
  fun s hs => ⟨(h s hs).1.trans (h' s hs).1, (h' s hs).2⟩

/-- A result is the same as itself. -/
theorem SameIn.pure (a : α) : SameIn f (Pure.pure a) (Pure.pure a) :=
  fun _ hs => ⟨rfl, hs⟩

/-- A failure is the same as itself. -/
theorem SameIn.throw (error : FormulaError) :
    SameIn f (throw error : Evaluation α) (MonadExcept.throw error) :=
  fun _ hs => ⟨rfl, hs⟩

/-- Actions that are the same in a frame may go on with what is the same there. -/
theorem SameIn.bind {g g' : α → Evaluation β} (h : SameIn f act act')
    (hg : ∀ a, SameIn f (g a) (g' a)) : SameIn f (act >>= g) (act' >>= g') := by
  intro s hs
  obtain ⟨hrun, hframe⟩ := h s hs
  rw [Evaluation.run_bind, Evaluation.run_bind, hrun]
  rcases hrun' : act'.run s with ⟨error | a, s₁⟩
  · rw [hrun'] at hframe
    exact ⟨rfl, hframe⟩
  · rw [hrun'] at hframe
    exact hg a s₁ hframe

/-- Closing what was opened is going back, if the frame is kept in between. -/
theorem SameIn.bracket {opening closing : Frame → Frame} (hf : closing (opening f) = f)
    (h : SameIn (opening f) act act') :
    SameIn f (Evaluation.bracket opening closing act) (within opening act') := by
  rintro s rfl
  obtain ⟨hrun, hframe⟩ := h { s with frame := opening s.frame } rfl
  refine ⟨?_, rfl⟩
  change ((act.run { s with frame := opening s.frame }).1,
    { (act.run { s with frame := opening s.frame }).2 with
      frame := closing (act.run { s with frame := opening s.frame }).2.frame }) = _
  rw [hrun, hframe, hf]
  rfl

/-- Counting a level is the same in a frame if what is counted is so one level further. -/
theorem SameIn.countLevel {o : Options}
    (h : f.levels < o.maxRecursion → SameIn { f with levels := f.levels + 1 } act act') :
    SameIn f (Evaluation.countLevel o act) (level o act') := by
  rintro s rfl
  unfold Evaluation.countLevel
  rw [Evaluation.run_bind, Evaluation.run_level]
  change (ite _ _ _ : Evaluation α).run s = _ ∧ _
  split
  · next hl => exact SameIn.bracket rfl (h hl) s rfl
  · exact ⟨rfl, rfl⟩

/-- Counting a cell is the same in a frame if what is counted is so inside the cell. -/
theorem SameIn.countCell {o : Options} {c : Coord}
    (h : f.levels < o.maxRecursion → SameIn (f.enterCell c) act act') :
    SameIn f (Evaluation.countCell o c act) (cellLevel o c act') :=
  SameIn.countLevel fun hl => SameIn.bracket (by simp) (h hl)

/-- Sameness in a frame is symmetric. -/
theorem SameIn.symm (h : SameIn f act act') : SameIn f act' act := by
  intro s hs
  obtain ⟨hrun, hframe⟩ := h s hs
  exact ⟨hrun.symm, hrun ▸ hframe⟩

/-- Failures may be handled in the same way. -/
theorem SameIn.tryCatch {handle : FormulaError → Evaluation α} (h : SameIn f act act')
    (hhandle : ∀ error, SameIn f (handle error) (handle error)) :
    SameIn f (tryCatch act handle) (MonadExcept.tryCatch act' handle) := by
  intro s hs
  obtain ⟨hrun, hframe⟩ := h s hs
  rw [Evaluation.run_tryCatch, Evaluation.run_tryCatch, hrun]
  rcases hrun' : act'.run s with ⟨error | a, s₁⟩
  · rw [hrun'] at hframe
    exact hhandle error s₁ hframe
  · rw [hrun'] at hframe
    exact ⟨rfl, hframe⟩

/-- Cells that are looked up in the same way are so one after the other. -/
theorem SameIn.mapM {lookUp lookUp' : Coord → Evaluation Value} {cs : List Coord}
    (h : ∀ c, SameIn f (lookUp c) (lookUp' c)) : SameIn f (cs.mapM lookUp) (cs.mapM lookUp') := by
  induction cs with
  | nil => exact SameIn.pure []
  | cons c cs ih =>
    rw [List.mapM_cons, List.mapM_cons]
    exact (h c).bind fun _ => ih.bind fun _ => SameIn.pure _

end

/-! ## The equations of the recursion -/

section
variable {e : Evaluator} {cells : Cells} {self : Call → Evaluation Value}
  {lookUp : Coord → Evaluation Value} {f : Frame}

/-- A range is read in the same way if its cells are. -/
theorem Range.values_sameIn {lookUp' : Coord → Evaluation Value} (o : Options) (r : Range)
    (h : ∀ c, SameIn f (lookUp' c) (lookUp c)) :
    SameIn f (r.values o lookUp') (r.values o lookUp) := by
  unfold Range.values
  split
  · exact SameIn.throw _
  · exact SameIn.mapM h

namespace Call

/-- Arguments are evaluated in the same way if the expressions and the cells among them are. -/
theorem arguments_sameIn (hcell : ∀ c, SameIn f (self (.cell c)) (lookUp c)) :
    (args : List Expr) →
    (∀ x ∈ args, SameIn f (self (.value false x)) (x.value e lookUp false)) →
    SameIn f (arguments e self args) (Expr.arguments e lookUp args)
  | [], _ => SameIn.pure []
  | .range r :: args, h => (r.values_sameIn _ hcell).bind fun _ =>
    (arguments_sameIn hcell args fun x hx => h x (.tail _ hx)).bind fun _ => SameIn.pure _
  | .cell c :: args, h => (hcell c).bind fun _ =>
    (arguments_sameIn hcell args fun x hx => h x (.tail _ hx)).bind fun _ => SameIn.pure _
  | .number _ :: args, h | .text _ :: args, h | .bare _ :: args, h | .binary .. :: args, h
  | .negate _ :: args, h | .call .. :: args, h => (h _ (.head _)).bind fun _ =>
    (arguments_sameIn hcell args fun x hx => h x (.tail _ hx)).bind fun _ => SameIn.pure _

/-- An expression comes before every cell. -/
theorem before_cell (onLeft : Bool) (x : Expr) (c : Coord) : (value onLeft x).Before (.cell c) := by
  refine .right _ ?_
  cases x <;>
    simp only [Expr.number.sizeOf_spec, Expr.text.sizeOf_spec, Expr.bare.sizeOf_spec,
      Expr.cell.sizeOf_spec, Expr.range.sizeOf_spec, Expr.binary.sizeOf_spec,
      Expr.negate.sizeOf_spec, Expr.call.sizeOf_spec] <;>
    omega

/-- An expression comes before every smaller one. -/
theorem before_value {x y : Expr} (onLeft onLeft' : Bool) (h : sizeOf y < sizeOf x) :
    (value onLeft x).Before (.value onLeft' y) :=
  .right _ h

/-- An evaluation keeps the frame if the look-ups do. -/
theorem evaluateWith_keeps (h : ∀ c, Keeps (lookUp c)) (call : Call) :
    Keeps (call.evaluateWith e lookUp) := by
  cases call with
  | formula text => exact formulaValue_keeps h text
  | value onLeft x => exact Expr.value_keeps h onLeft x
  | cell c => exact h c

/-- A call leaves the frame as it was, and what was settled. -/
theorem evaluate_keeps (e : Evaluator) (cells : Cells) (call : Call) :
    Keeps (call.evaluate e cells) :=
  fun s => evaluateWith_keeps (resolve_keeps e cells (room e s.frame)) call s

/-- An evaluation is what its call comes to with the room that its frame leaves. -/
theorem evaluate_sameIn (e : Evaluator) (cells : Cells) (call : Call) (f : Frame) :
    SameIn f (call.evaluate e cells) (call.evaluateWith e (resolve e cells (room e f))) := by
  rintro s rfl
  exact ⟨rfl, (evaluate_keeps e cells call s).frame⟩

/-- A cell is looked up in the same way if a formula in it is evaluated in the same way. -/
theorem cellValue_sameIn {c : Coord} {formulaCell formulaCell' : Coord → String → Evaluation Value}
    (h : ∀ text, c ∉ f.waiting → cells c = .formula text →
      SameIn f (formulaCell c text) (formulaCell' c text)) :
    SameIn f (cellValue cells formulaCell c) (cellValue cells formulaCell' c) := by
  rintro s rfl
  rw [run_cellValue, run_cellValue]
  by_cases hw : s.frame.waitsFor c = true
  · rw [if_pos hw, if_pos hw]
    exact ⟨rfl, rfl⟩
  · rw [if_neg hw, if_neg hw]
    cases s.settled[c]? with
    | some v => exact ⟨rfl, rfl⟩
    | none =>
      cases ht : cells c with
      | value v => exact ⟨rfl, rfl⟩
      | formula text => exact h text (mt Frame.waitsFor_iff.2 hw) ht (s.lookedUp c) rfl

/-- A formula cell is evaluated in the same way if the budgets allow its formula, which is so
inside. -/
theorem formulaCell_sameIn {c : Coord} {text : String} (hd : f.chain.length < e.options.maxDepth)
    (h : f.levels < e.options.maxRecursion →
      SameIn (f.enterCell c) (self (.formula text)) (formulaValue e lookUp text)) :
    SameIn f (formulaCell e self c text) (formulaCellValue e lookUp c text) := by
  rintro s rfl
  change (ite _ _ _ : Evaluation Value).run s = _ ∧ _
  rw [if_pos hd]
  refine SameIn.bind (SameIn.tryCatch (SameIn.countCell h) fun error => ?_) (fun v => ?_) s rfl
  · split
    · exact SameIn.throw error
    · exact SameIn.pure _
  · exact fun _ hs => ⟨rfl, hs⟩

/-- Entering a cell takes one from the room. -/
theorem room_enterCell {n : Nat} {c : Coord} (h : room e f = n + 1) :
    room e (f.enterCell c) = n := by
  change e.options.maxDepth - (f.chain.length + 1) = n
  unfold room at h
  omega

/-! One round of each kind of call, where the calls below it come to what they come to in the
evaluation. -/

/-- One round of a formula: it is read, and its expression is a call of its own. -/
theorem round_formula (text : String)
    (h : ∀ x, SameIn f (self (.value false x)) (x.value e (resolve e cells (room e f)) false)) :
    SameIn f ((formula text).round e cells self)
      (formulaValue e (resolve e cells (room e f)) text) := by
  rintro s rfl
  refine ⟨?_, (formulaValue_keeps (resolve_keeps e cells _) text s).frame⟩
  -- both read the formula with what is left of the same levels
  let reading := Expr.ofFormulaWithin e.options (e.options.maxRecursion - s.frame.levels) text
  change (liftExcept reading >>= fun x => self (.value false x) >>= fun v =>
      Pure.pure v.displayed : Evaluation Value).run s =
    (liftExcept reading >>= fun x => x.value e _ false >>= fun v =>
      Pure.pure v.displayed : Evaluation Value).run s
  cases reading with
  | error error => rfl
  | ok x => exact ((h x).bind (fun v => SameIn.pure v.displayed) s rfl).1

/-- One round of an expression: its parts are calls of their own, some of them a level further. -/
theorem round_value (onLeft : Bool) (x : Expr)
    (h : ∀ b, (value onLeft x).Before b → SameIn f (self b) (b.evaluateWith e lookUp))
    (hdeep : f.levels < e.options.maxRecursion → ∀ b, (value onLeft x).Before b →
      SameIn { f with levels := f.levels + 1 } (self b) (b.evaluateWith e lookUp)) :
    SameIn f ((value onLeft x).round e cells self) (x.value e lookUp onLeft) := by
  cases x with
  | number | text | bare => exact SameIn.pure _
  | range r => exact SameIn.throw _
  | cell c => exact (h (.cell c) (before_cell _ _ c)).bind fun _ => SameIn.pure _
  | negate x =>
    refine SameIn.countLevel fun hl => ?_
    have hx : (value onLeft (.negate x)).Before (.value false x) := by
      refine before_value _ _ ?_
      rw [Expr.negate.sizeOf_spec]
      omega
    exact (hdeep hl _ hx).bind fun _ => SameIn.pure _
  | binary op l r =>
    have hleft : (value onLeft (.binary op l r)).Before (.value true l) := by
      refine before_value _ _ ?_
      rw [Expr.binary.sizeOf_spec]
      omega
    have hright : (value onLeft (.binary op l r)).Before (.value false r) := by
      refine before_value _ _ ?_
      rw [Expr.binary.sizeOf_spec]
      omega
    cases onLeft with
    | true => exact (h _ hleft).bind fun _ => (h _ hright).bind fun _ => SameIn.pure _
    | false =>
      refine SameIn.countLevel fun hl => ?_
      exact (hdeep hl _ hleft).bind fun _ => (hdeep hl _ hright).bind fun _ => SameIn.pure _
  | call name args =>
    simp only [round, Expr.value]
    refine SameIn.countLevel fun hl => ?_
    cases Function.find? name with
    | none => exact SameIn.pure _
    | some f =>
      refine SameIn.bind (arguments_sameIn (fun c => ?_) args fun x hx => ?_) fun _ =>
        (Keeps.call e f _).sameIn _
      · exact hdeep hl (.cell c) (before_cell _ _ c)
      · refine hdeep hl (.value false x) (before_value _ _ ?_)
        have := List.sizeOf_lt_of_mem hx
        rw [Expr.call.sizeOf_spec]
        omega

/-- One round of a cell: the formula in it is a call of its own, if the budgets allow it. -/
theorem round_cell (c : Coord)
    (h : ∀ text, c ∉ f.waiting → cells c = .formula text →
      f.chain.length < e.options.maxDepth → f.levels < e.options.maxRecursion →
      SameIn (f.enterCell c) (self (.formula text))
        (formulaValue e (resolve e cells (room e (f.enterCell c))) text)) :
    SameIn f ((cell c).round e cells self) (resolve e cells (room e f) c) := by
  change SameIn f (cellValue cells (formulaCell e self) c) _
  cases hroom : room e f with
  | zero =>
    refine cellValue_sameIn fun text _ _ => ?_
    rintro s rfl
    change (ite _ _ _ : Evaluation Value).run s = _ ∧ _
    rw [if_neg (Nat.not_lt.2 (Nat.le_of_sub_eq_zero hroom))]
    exact ⟨rfl, rfl⟩
  | succ n =>
    have hd : f.chain.length < e.options.maxDepth := Nat.lt_of_sub_eq_succ hroom
    refine cellValue_sameIn fun text hc ht => formulaCell_sameIn hd fun hl => ?_
    have := h text hc ht hd hl
    rwa [room_enterCell hroom] at this

/-- **One round is the whole.** Where the calls below a call come to what they come to in the
evaluation, one round of the call does too. -/
theorem round_sameIn (call : Call) (hself : ∀ b g, Descends e cells (call, f) (b, g) →
    SameIn g (self b) (b.evaluate e cells)) :
    SameIn f (call.round e cells self) (call.evaluate e cells) := by
  have hbelow : ∀ b g, Descends e cells (call, f) (b, g) →
      SameIn g (self b) (b.evaluateWith e (resolve e cells (room e g))) :=
    fun b g h => (hself b g h).trans (evaluate_sameIn e cells b g)
  refine SameIn.trans ?_ (evaluate_sameIn e cells call f).symm
  cases call with
  | formula text =>
    exact round_formula text fun x => hbelow _ _ (.inside (.left _ _ Nat.zero_lt_one))
  | value onLeft x =>
    exact round_value onLeft x (fun b hb => hbelow b f (.inside hb))
      fun hl b hb => hbelow b _ (.deeper hb hl)
  | cell c => exact round_cell c fun text hc ht hd hl => hbelow _ _ (.formula hc ht hd hl)

/-- **The evaluation solves the equations of its recursion.** -/
theorem round_evaluate (e : Evaluator) (cells : Cells) (call : Call) :
    call.round e cells (Call.evaluate e cells) = call.evaluate e cells := by
  funext s
  exact (round_sameIn call (fun b g _ => (evaluate_keeps e cells b).sameIn g) s rfl).1

/-- Nothing else solves them. -/
theorem evaluate_unique (h : ∀ call, call.round e cells self = self call) :
    self = Call.evaluate e cells := by
  have hsame : ∀ a : Call × Frame, SameIn a.2 (self a.1) (a.1.evaluate e cells) := by
    intro a
    induction a using (Descends.wellFounded e cells).induction with
    | h a ih =>
      rw [← h a.1]
      exact round_sameIn a.1 fun b g hb => ih (b, g) hb
  funext call s
  exact (hsame (call, s.frame) s rfl).1

end Call

end

end Spreadsheet
