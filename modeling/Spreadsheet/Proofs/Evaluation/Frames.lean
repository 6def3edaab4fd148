import Spreadsheet.Proofs.Evaluation.Agreement
import Spreadsheet.Proofs.Evaluation.Constructs

/-!
# What an evaluation leaves as it found it

However a computation ends, it goes back to the frame it started in, and what had been settled
before stays settled (`Keeps`). No cell that waits is settled meanwhile: this is why the value that
a formula cell is settled with in the end never takes the place of another one. `Resolved` tells the
ways in which a cell is read.
-/

namespace Spreadsheet

open Evaluation

namespace Evaluation.Session

/-- What a later session has in common with an earlier one. -/
structure Kept (s s' : Session) : Prop where
  frame : s'.frame = s.frame
  grows : s.Grows s'
  waiting : ∀ c ∈ s.frame.waiting, s'.settled[c]? = s.settled[c]?

variable {s s' s'' : Session}

/-- A session has everything in common with itself. -/
theorem Kept.refl (s : Session) : s.Kept s :=
  ⟨rfl, fun _ _ h => h, fun _ _ => rfl⟩

/-- Looking up a cell changes neither the frame nor what is settled. -/
theorem Kept.lookedUp (s : Session) (c : Coord) : s.Kept (s.lookedUp c) :=
  ⟨rfl, fun _ _ h => h, fun _ _ => rfl⟩

/-- What sessions have in common goes on along an evaluation. -/
theorem Kept.trans (h : s.Kept s') (h' : s'.Kept s'') : s.Kept s'' where
  frame := h'.frame.trans h.frame
  grows := fun c v hv => h'.grows c v (h.grows c v hv)
  waiting := fun c hc => (h'.waiting c (h.frame ▸ hc)).trans (h.waiting c hc)

/-- What is kept in a frame where more cells wait is kept when that frame is left. -/
theorem Kept.of_frame {f : Frame} (h : ({ s with frame := f } : Session).Kept s')
    (hw : s.frame.waiting ⊆ f.waiting) : s.Kept { s' with frame := s.frame } where
  frame := rfl
  grows := h.grows
  waiting := fun c hc => h.waiting c (hw hc)

/-- A cell that is not settled and does not wait may be settled. -/
theorem Kept.settle (h : s.Kept s') {c : Coord} (hc : c ∉ s.frame.waiting)
    (hn : s.settled[c]? = none) (v : Value) : s.Kept (s'.settle c v) where
  frame := h.frame
  grows := fun d w hw => by
    have hne : c ≠ d := by
      rintro rfl
      rw [hn] at hw
      cases hw
    rw [getElem?_settle, if_neg hne]
    exact h.grows d w hw
  waiting := fun d hd => by
    rw [getElem?_settle, if_neg (ne_of_mem_of_not_mem hd hc).symm]
    exact h.waiting d hd

end Evaluation.Session

section
variable {α : Type}

/-- A computation that keeps, in every session, the frame and what is settled. -/
def Keeps (act : Evaluation α) : Prop :=
  ∀ s : Session, s.Kept (act.run s).2

/-- A computation in another frame keeps the frame outside, if no less waits inside. -/
theorem Keeps.within {act : Evaluation α} (h : Keeps act) {enter : Frame → Frame} {s : Session}
    (hw : s.frame.waiting ⊆ (enter s.frame).waiting) :
    s.Kept ((Evaluation.within enter act).run s).2 :=
  (h { s with frame := enter s.frame }).of_frame hw

/-- A level more is kept. -/
theorem Keeps.level {act : Evaluation α} (h : Keeps act) (o : Options) :
    Keeps (Evaluation.level o act) := by
  intro s
  rw [Evaluation.run_level]
  split
  · exact h.within (List.Subset.refl _)
  · exact .refl s

/-- Computations that keep may follow each other. -/
theorem Keeps.bind {β : Type} {act : Evaluation α} {f : α → Evaluation β} (h : Keeps act)
    (hf : ∀ a, Keeps (f a)) : Keeps (act >>= f) := by
  intro s
  rw [Evaluation.run_bind]
  have hs := h s
  rcases hrun : act.run s with ⟨error | a, s₁⟩
  · rwa [hrun] at hs
  · rw [hrun] at hs
    exact hs.trans (hf a s₁)

/-- A call keeps the frame and what is settled. -/
theorem Keeps.call (e : Evaluator) (f : Function) (args : List Value) : Keeps (e.call f args) :=
  fun _ => ⟨rfl, fun _ _ h => h, fun _ _ => rfl⟩

/-- Keeping is passed on from the cells to all that is evaluated with them. -/
theorem Keeps.passedOn (e : Evaluator) : PassedOn e Keeps where
  pure _ := .refl
  throw _ := .refl
  tooDeep _ _ := .refl
  bind := Keeps.bind
  call := .call e
  level h := h.level e.options
  session h s := by
    obtain ⟨act', hact', hrun⟩ := h s
    rw [hrun]
    exact hact' s

end

/-! ## Formulas and cells -/

section
variable {e : Evaluator} {cells : Cells} {lookUp : Coord → Evaluation Value}

/-- The value of an expression keeps if the look-ups do. -/
theorem Expr.value_keeps (h : ∀ c, Keeps (lookUp c)) (onLeft : Bool) (x : Expr) :
    Keeps (x.value e lookUp onLeft) :=
  (Keeps.passedOn e).value onLeft x fun c _ => h c

/-- The value of a formula keeps if the look-ups do. -/
theorem formulaValue_keeps (h : ∀ c, Keeps (lookUp c)) (text : String) :
    Keeps (formulaValue e lookUp text) :=
  (Keeps.passedOn e).formulaValue text fun c _ => h c

/-- What reading a cell comes to, in each of the ways it can go. -/
inductive Resolved (e : Evaluator) (cells : Cells) (room : Nat) (c : Coord) (s : Session) :
    Except FormulaError Value → Session → Prop
  /-- The cell waits. -/
  | waits (hc : c ∈ s.frame.waiting) : Resolved e cells room c s (.error (.circular c)) s
  /-- It has been settled. -/
  | settled {v : Value} (hc : c ∉ s.frame.waiting) (hv : s.settled[c]? = some v) :
    Resolved e cells room c s (.ok v) s
  /-- It holds a value. -/
  | value {v : Value} (hc : c ∉ s.frame.waiting) (hn : s.settled[c]? = none)
    (hv : cells c = .value v) : Resolved e cells room c s (.ok v) (s.lookedUp c)
  /-- It holds a formula, and there is no room or no level left. -/
  | tooDeep {text : String} (limit : Nat) (hc : c ∉ s.frame.waiting) (hn : s.settled[c]? = none)
    (ht : cells c = .formula text) :
    Resolved e cells room c s (.error (.tooDeep limit)) (s.lookedUp c)
  /-- It holds a formula that meets a circle or goes too deep. -/
  | failed {text : String} {n : Nat} {error : FormulaError} {s₁ : Session}
    (hc : c ∉ s.frame.waiting) (hn : s.settled[c]? = none) (ht : cells c = .formula text)
    (hroom : room = n + 1) (hrun : (formulaValue e (resolve e cells n) text).run
      { s.lookedUp c with frame := s.frame.enterCell c } = (.error error, s₁))
    (hcycle : error.isCycle = true) :
    Resolved e cells room c s (.error error) { s₁ with frame := s.frame }
  /-- It holds a formula, and is settled with what the formula comes to. -/
  | formula {text : String} {n : Nat} {r : Except FormulaError Value} {v : Value} {s₁ : Session}
    (hc : c ∉ s.frame.waiting) (hn : s.settled[c]? = none) (ht : cells c = .formula text)
    (hroom : room = n + 1) (hrun : (formulaValue e (resolve e cells n) text).run
      { s.lookedUp c with frame := s.frame.enterCell c } = (r, s₁))
    (hv : Naive.cellResult r = .ok v) :
    Resolved e cells room c s (.ok v) (({ s₁ with frame := s.frame } : Session).settle c v)

/-- Reading a formula cell that neither waits nor is settled goes one of the last three ways. -/
theorem formulaCellValue_resolved {c : Coord} {text : String} {n : Nat} {s s' : Session}
    {r : Except FormulaError Value} (hc : c ∉ s.frame.waiting) (hn : s.settled[c]? = none)
    (ht : cells c = .formula text)
    (hrun : (formulaCellValue e (resolve e cells n) c text).run (s.lookedUp c) = (r, s')) :
    Resolved e cells (n + 1) c s r s' := by
  rw [run_formulaCellValue, Evaluation.run_cellLevel] at hrun
  by_cases hl : (s.lookedUp c).frame.levels < e.options.maxRecursion
  · rw [if_pos hl] at hrun
    rcases hrun₁ : (formulaValue e (resolve e cells n) text).run
      { s.lookedUp c with frame := s.frame.enterCell c } with ⟨r₁, s₁⟩
    have hframe : (s.lookedUp c).frame = s.frame := rfl
    rw [hframe, hrun₁] at hrun
    dsimp only at hrun
    cases hr : Naive.cellResult r₁ with
    | ok v =>
      rw [hr] at hrun
      cases hrun
      exact .formula hc hn ht rfl hrun₁ hr
    | error error =>
      rw [hr] at hrun
      cases hrun
      obtain ⟨rfl, hcycle⟩ := Naive.cellResult_eq_error hr
      exact .failed hc hn ht rfl hrun₁ hcycle
  · rw [if_neg hl] at hrun
    cases hrun
    exact .tooDeep _ hc hn ht

/-- **How a cell is read.** -/
theorem resolve_resolved {room : Nat} {c : Coord} {s s' : Session}
    {r : Except FormulaError Value} (hrun : (resolve e cells room c).run s = (r, s')) :
    Resolved e cells room c s r s' := by
  have hcell : ∀ formulaCell : Coord → String → Evaluation Value,
      (∀ text, c ∉ s.frame.waiting → s.settled[c]? = none → cells c = .formula text →
        (formulaCell c text).run (s.lookedUp c) = (r, s') → Resolved e cells room c s r s') →
      (cellValue cells formulaCell c).run s = (r, s') → Resolved e cells room c s r s' := by
    intro formulaCell hformula hrun
    rw [run_cellValue] at hrun
    by_cases hw : s.frame.waitsFor c = true
    · rw [if_pos hw] at hrun
      cases hrun
      exact .waits (Frame.waitsFor_iff.1 hw)
    · rw [if_neg hw] at hrun
      have hc := mt Frame.waitsFor_iff.2 hw
      cases hn : s.settled[c]? with
      | some v =>
        rw [hn] at hrun
        cases hrun
        exact .settled hc hn
      | none =>
        rw [hn] at hrun
        cases ht : cells c with
        | value v =>
          rw [ht] at hrun
          cases hrun
          exact .value hc hn ht
        | formula text =>
          rw [ht] at hrun
          exact hformula text hc hn ht hrun
  cases room with
  | zero =>
    refine hcell _ (fun text hc hn ht hrun => ?_) hrun
    cases hrun
    exact .tooDeep _ hc hn ht
  | succ n => exact hcell _ (fun text hc hn ht hrun => formulaCellValue_resolved hc hn ht hrun) hrun

/-- **Every cell is read without a trace** but for what is settled on the way. -/
theorem resolve_keeps (e : Evaluator) (cells : Cells) (room : Nat) (c : Coord) :
    Keeps (resolve e cells room c) := by
  induction room using Nat.strongRecOn generalizing c with
  | ind room ih =>
    intro s
    have hformula : ∀ {text n r s₁}, room = n + 1 →
        (formulaValue e (resolve e cells n) text).run
          { s.lookedUp c with frame := s.frame.enterCell c } = (r, s₁) →
        s.Kept { s₁ with frame := s.frame } := by
      intro text n r s₁ hroom hrun
      have hk := formulaValue_keeps (e := e) (ih n (by omega)) text
        { s.lookedUp c with frame := s.frame.enterCell c }
      rw [hrun] at hk
      exact (Session.Kept.lookedUp s c).trans (hk.of_frame (List.subset_cons_self ..))
    rcases hrun : (resolve e cells room c).run s with ⟨r, s'⟩
    cases resolve_resolved hrun with
    | waits | settled => exact .refl s
    | value | tooDeep => exact .lookedUp s c
    | failed _ _ _ hroom hrun₁ => exact hformula hroom hrun₁
    | formula hc hn _ hroom hrun₁ => exact (hformula hroom hrun₁).settle hc hn _

end

end Spreadsheet
