import Spreadsheet.Proofs.Formula.WrittenOut

/-!
# Arguments one after the other

After a comma or the parenthesis of a call, a reader is at the beginning of an argument
(`Reader.atArgument_of_beginsArgument`), and from there the tokens of an argument are read up to its
end (`ReadsAs.read_argument`). So a range as an argument and the addresses of its cells with commas
between them are read to expressions that are the same once they are written out
(`Expr.ofTokens_range`).
-/

namespace Spreadsheet

open Token

/-! ## Where arguments begin and end -/

/-- Whether an argument may begin after some tokens: they end with a comma, or with the name of a
function and a parenthesis. -/
def Token.BeginsArgument (ts : List Token) : Prop :=
  ∃ before, ts = before ++ [mark ","] ∨ ∃ name, ts = before ++ [word name, mark "("]

/-- Whether an argument may end before some tokens: they begin with a comma or a parenthesis, if
there are any. -/
def Token.EndsArgument (ts : List Token) : Prop :=
  ∀ t ∈ ts.head?, t = mark "," ∨ t = mark ")"

/-- Whether a reader is where an argument begins: in a call, with nothing read of the argument. -/
def Reader.AtArgument (r : Reader) : Prop :=
  ∃ room name args outer opened,
    r = ⟨.argument, .fresh room, (.call name args, outer) :: opened⟩

namespace Reader

variable {o : Options} {r r' : Reader} {t : Token} {ts : List Token}

/-- Where a step comes to an argument, it comes to the very beginning of it. -/
theorem step_atArgument (hr : r.expecting = .argument → r.AtArgument) (h : r.step o t = .ok r')
    (hargument : r'.expecting = .argument) : r'.AtArgument := by
  obtain ⟨result, hsteps⟩ := r.exists_steps o t
  rw [h] at hsteps
  generalize houtcome : Except.ok r' = outcome at hsteps
  cases hsteps with
  | group | call =>
    unfold enter at houtcome
    split at houtcome <;> cases houtcome
    first | exact ⟨_, _, _, _, _, rfl⟩ | cases hargument
  | push =>
    obtain ⟨l, -, ⟨⟩⟩ := exists_of_bind_eq_ok houtcome.symm
    cases hargument
  | close =>
    cases houtcome
    cases hargument
  | argument =>
    cases houtcome
    exact ⟨_, _, _, _, _, rfl⟩
  | stay _ _ hstay =>
    cases houtcome
    obtain ⟨hexpecting, rfl⟩ := hstay hargument
    obtain ⟨room, name, args, outer, opened, rfl⟩ := hr hexpecting
    exact ⟨room, name, args, outer, opened, by rw [← hargument]⟩
  | badSyntax | badReference => cases houtcome

theorem foldlM_atArgument (hr : r.expecting = .argument → r.AtArgument)
    (h : ts.foldlM (·.step o) r = .ok r') (hargument : r'.expecting = .argument) :
    r'.AtArgument := by
  induction ts generalizing r with
  | nil =>
    cases h
    exact hr hargument
  | cons t ts ih =>
    rw [List.foldlM_cons] at h
    obtain ⟨r₁, hstep, h⟩ := exists_of_bind_eq_ok h
    exact ih (step_atArgument hr hstep) h

theorem operatorStep_comma {x : Expr} (h : r.operatorStep o x (mark ",") = .ok r') :
    r'.expecting = .argument := by
  obtain ⟨expecting, level, opened⟩ := r
  match opened with
  | [] => cases h
  | (.group, outer) :: opened => cases h
  | (.call name args, outer) :: opened =>
    cases h
    rfl

/-- After a comma, an argument may begin. -/
theorem step_comma (h : r.step o (mark ",") = .ok r') : r'.expecting = .argument := by
  obtain ⟨expecting, level, opened⟩ := r
  cases expecting with
  | operand => cases h
  | argument =>
    cases h
    rfl
  | afterWord word =>
    obtain ⟨x, -, h⟩ := exists_of_bind_eq_ok h
    split at h
    · next hcolon => cases hcolon
    · exact operatorStep_comma h
  | corner word start => cases h
  | operator x => exact operatorStep_comma h

/-- After an operand there comes an operator or the end of what is open. -/
theorem operatorStep_ne_ok {x : Expr}
    (hoperator : t.binary? = none)
    (hclose : t.isOperator ")" = false) (hcomma : t.isOperator "," = false) :
    r.operatorStep o x t ≠ .ok r' := by
  unfold operatorStep
  rw [hoperator]
  obtain ⟨expecting, level, opened⟩ := r
  match opened with
  | [] => nofun
  | (.group, outer) :: opened =>
    simp only [hclose]
    nofun
  | (.call name args, outer) :: opened =>
    simp only [hclose, hcomma]
    nofun

/-- After a word and a parenthesis, an argument may begin. -/
theorem step_call {name : String} {r₁ : Reader} (hword : r.step o (word name) = .ok r₁)
    (h : r₁.step o (mark "(") = .ok r') : r'.expecting = .argument := by
  have hcall : ∀ l opened, step o ⟨.afterWord name, l, opened⟩ (mark "(") = .ok r' →
      r'.expecting = .argument := by
    intro l opened hstep
    change enter o _ (.call (Text.upper name) []) .argument = _ at hstep
    unfold enter at hstep
    split at hstep <;> cases hstep
    rfl
  obtain ⟨expecting, level, opened⟩ := r
  cases expecting with
  | operand =>
    cases hword
    exact hcall _ _ h
  | argument =>
    rw [step_argument rfl rfl] at hword
    cases hword
    exact hcall _ _ h
  | afterWord w =>
    obtain ⟨x, -, hword⟩ := exists_of_bind_eq_ok hword
    split at hword
    · next hcolon => cases hcolon
    · exact (operatorStep_ne_ok (t := word name) rfl rfl rfl hword).elim
  | corner w start =>
    obtain ⟨c, -, rfl⟩ := cornerStep_eq_ok_iff.1 hword
    exact (operatorStep_ne_ok (t := mark "(") rfl rfl rfl h).elim
  | operator x => exact (operatorStep_ne_ok (t := word name) rfl rfl rfl hword).elim

/-- A reader that has read tokens after which an argument may begin is there. -/
theorem atArgument_of_beginsArgument (hts : BeginsArgument ts)
    (h : ts.foldlM (·.step o) (start o) = .ok r) : r.AtArgument := by
  have hstart : (start o).expecting = .argument → (start o).AtArgument := by
    intro hargument
    cases hargument
  refine foldlM_atArgument hstart h ?_
  obtain ⟨before, rfl | ⟨name, rfl⟩⟩ := hts
  · rw [List.foldlM_append] at h
    obtain ⟨r₁, -, h⟩ := exists_of_bind_eq_ok h
    obtain ⟨r₂, hstep, ⟨⟩⟩ := exists_of_bind_eq_ok h
    exact step_comma hstep
  · rw [List.foldlM_append] at h
    obtain ⟨r₁, -, h⟩ := exists_of_bind_eq_ok h
    obtain ⟨r₂, hword, h⟩ := exists_of_bind_eq_ok h
    obtain ⟨r₃, hstep, ⟨⟩⟩ := exists_of_bind_eq_ok h
    exact step_call hword hstep

end Reader

/-! ## Arguments one after the other -/

section
variable {o : Options} {room : Nat} {ts after : List Token} {x : Expr} (name : String)
  (args : List Expr) (outer : Level) (opened : List (Opening × Level))

/-- Tokens that spell an argument, before its end. -/
theorem ReadsAs.read_argument (h : ReadsAs o room ts x) (hafter : EndsArgument after) :
    Reader.read o ⟨.argument, .fresh room, (.call name args, outer) :: opened⟩ (ts ++ after) =
      Reader.read o ⟨.argument, .fresh room, (.call name (x :: args), outer) :: opened⟩ after := by
  obtain ⟨r, y, hr, hbase, hopened, hoperand, hclose⟩ := h ((.call name args, outer) :: opened)
  have hread : Reader.read o ⟨.argument, .fresh room, (.call name args, outer) :: opened⟩
      (ts ++ after) = r.read o after := by
    rw [Reader.read, h.foldlM_argument, foldlM_of_append hr]
    rfl
  rw [hread]
  cases after with
  | nil =>
    rw [Reader.read_nil, hoperand.finish, Reader.finishOperand, hopened]
    rfl
  | cons t after =>
    rw [Reader.read_cons, Reader.read_cons]
    rcases hafter t rfl with rfl | rfl
    · rw [hoperand.comma hopened, hbase, hclose]
      rfl
    · rw [hoperand.close_call hopened, hclose, ← List.reverse_cons]
      rfl

/-- Two words that name opposite corners, with a colon between. -/
theorem readsAs_corners {v w : String} {a b : Coord} (hv : Coord.ofWord? v = some a)
    (hw : Coord.ofWord? w = some b) :
    ReadsAs o room [word v, mark ":", word w] (.range (.ofCorners a b)) := by
  refine readsAs_of_operand (l := .fresh room) rfl rfl fun opened => ?_
  have hcolon : Reader.step o ⟨.afterWord v, .fresh room, opened⟩ (mark ":") =
      .ok ⟨.corner v a, .fresh room, opened⟩ := by
    change Reader.wordStep o _ _ (mark ":") = _
    rw [Reader.wordStep, Expr.ofWord_eq_cell_iff.2 hv]
    rfl
  have hcorner : Reader.step o ⟨.corner v a, .fresh room, opened⟩ (word w) =
      .ok ⟨.operator (.range (.ofCorners a b)), .fresh room, opened⟩ :=
    Reader.cornerStep_eq_ok_iff.2 ⟨b, hw, rfl⟩
  rw [foldlM_of_step (Reader.step_word _), foldlM_of_step hcolon, foldlM_of_step hcorner]
  rfl

/-- Words with commas between them. -/
def Token.listed (ws : List String) : List Token :=
  (ws.map word).intersperse (mark ",")

/-- Words that name cells, as arguments. -/
theorem Reader.read_listed {ws : List String} {cs : List Coord}
    (h : List.Forall₂ (fun w c => Coord.ofWord? w = some c) ws cs) (hafter : EndsArgument after) :
    Reader.read o ⟨.argument, .fresh room, (.call name args, outer) :: opened⟩
        (listed ws ++ after) =
      Reader.read o ⟨.argument, .fresh room,
        (.call name ((cs.map .cell).reverse ++ args), outer) :: opened⟩ after := by
  induction h generalizing args with
  | nil => rfl
  | @cons w c ws cs hw hws ih =>
    have hcell : ReadsAs o room [word w] (.cell c) := readsAs_word (Expr.ofWord_eq_cell_iff.2 hw)
    cases hws with
    | nil => exact hcell.read_argument name args outer opened hafter
    | @cons w' c' ws cs hw' hws =>
      have hcomma : EndsArgument (mark "," :: (listed (w' :: ws) ++ after)) := by
        rintro t ⟨⟩
        exact .inl rfl
      have hfirst := hcell.read_argument name args outer opened hcomma
      have hskip : Reader.read o ⟨.argument, .fresh room,
          (.call name (.cell c :: args), outer) :: opened⟩
            (mark "," :: (listed (w' :: ws) ++ after)) = _ := Reader.read_cons ..
      have hrest := ih (.cell c :: args)
      rw [List.map_cons, List.reverse_cons, List.append_assoc]
      exact (hfirst.trans hskip).trans hrest

/-- **A range is read as its cells.** Where an argument is a range, written from any two opposite
corners, the addresses of its cells may be written instead, row by row: what is read is the same
once it is written out, and so is the error if it is no formula. -/
theorem Expr.ofTokens_range {m : Nat} {before : List Token} {v w : String} {a b : Coord}
    {ws : List String} (hbefore : BeginsArgument before) (hafter : EndsArgument after)
    (hv : Coord.ofWord? v = some a) (hw : Coord.ofWord? w = some b)
    (hws : ws.map Coord.ofWord? = (Range.ofCorners a b).rowByRow.map some)
    (hcount : (Range.ofCorners a b).count ≤ m) :
    (Expr.ofTokens o (before ++ ([word v, mark ":", word w] ++ after))).map
        (Expr.writtenOut m) =
      (Expr.ofTokens o (before ++ (listed ws ++ after))).map (Expr.writtenOut m) := by
  have hne : ∀ ts, before ++ ts ≠ [] := by
    obtain ⟨front, rfl | ⟨name, rfl⟩⟩ := hbefore <;> simp
  have hread : ∀ ts, Expr.ofTokens o (before ++ ts) =
      before.foldlM (·.step o) (Reader.start o) >>= fun r => r.read o ts := by
    intro ts
    rw [Expr.ofTokens_eq_read (hne ts), Reader.read, List.foldlM_append]
    cases before.foldlM (·.step o) (Reader.start o) <;> rfl
  rw [hread, hread]
  cases hstart : before.foldlM (·.step o) (Reader.start o) with
  | error error => rfl
  | ok r =>
    obtain ⟨room, name, args, outer, opened, rfl⟩ :=
      Reader.atArgument_of_beginsArgument hbefore hstart
    have hcells : List.Forall₂ (fun w c => Coord.ofWord? w = some c) ws
        (Range.ofCorners a b).rowByRow := by
      rwa [← List.forall₂_eq_eq_eq, List.forall₂_map_left_iff, List.forall₂_map_right_iff] at hws
    have hrange : ReadsAs o room [word v, mark ":", word w] (.range (.ofCorners a b)) :=
      readsAs_corners hv hw
    have hargs : Expr.argumentsWrittenOut m (.range (.ofCorners a b) :: args).reverse =
        Expr.argumentsWrittenOut m
          (((Range.ofCorners a b).rowByRow.map Expr.cell).reverse ++ args).reverse := by
      rw [List.reverse_cons, List.reverse_append, List.reverse_reverse,
        argumentsWrittenOut_append, argumentsWrittenOut_append, argumentsWrittenOut_range hcount,
        argumentsWrittenOut_cells]
    have hpaired : ∀ l : Level, l.Paired (.writtenOut m) l := .refl fun _ => rfl
    have hsame : Reader.Compared (.writtenOut m) (Level.Paired (.writtenOut m))
        ⟨.argument, .fresh room, (.call name (.range (.ofCorners a b) :: args), outer) :: opened⟩
        ⟨.argument, .fresh room, (.call name
          (((Range.ofCorners a b).rowByRow.map Expr.cell).reverse ++ args), outer) :: opened⟩ :=
      ⟨.argument, hpaired _, .cons ⟨.call name hargs, hpaired outer⟩
        (Reader.Compared.opened_refl (fun _ => rfl) hpaired opened)⟩
    have hread := hsame.read_writtenOut (o := o) after
    rw [← hrange.read_argument name args outer opened hafter,
      ← Reader.read_listed name args outer opened hcells hafter] at hread
    exact hread

end

end Spreadsheet
