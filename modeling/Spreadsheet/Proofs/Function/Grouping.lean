import Spreadsheet.Function.Wording
import Spreadsheet.Proofs.Number.Fixed

/-!
# Digits in groups

A number in lakhs is its rendering with three places, less the zeros at the end, with commas put in
between its integer digits: after the third from the right, and then after every second
(`inLakhs_commas`). The digits are cut into groups from the end. Read from the front, each digit has
a comma behind it or none by the number of digits behind it (`grouped_eq_spaced`).
-/

namespace Spreadsheet.Function

open Text Number

/-! ## Commas -/

/-- Whether a comma stands in front of the `i`-th digit from the right and behind the digit before
it. -/
def CommaBefore (i : Nat) (cs : List Char) : Prop :=
  ∃ before d e after, cs = before ++ d :: ',' :: e :: after ∧ isDigit d = true ∧
    isDigit e = true ∧ (e :: after).countP isDigit = i

/-- Whether every comma stands between two digits. -/
def CommasEnclosed (cs : List Char) : Prop :=
  ∀ before after, cs = before ++ ',' :: after →
    before.getLast?.any isDigit = true ∧ after.head?.any isDigit = true

/-- Digits with commas, in front of `behind` others: a comma follows a digit that has three other
digits behind it, or an odd number of more. -/
def spaced (behind : Nat) : List Char → List Char
  | [] => []
  | d :: ds =>
    if 3 ≤ ds.length + behind ∧ (ds.length + behind) % 2 = 1 then d :: ',' :: spaced behind ds
    else d :: spaced behind ds

section
variable {i : Nat} {c : Char} {cs ds : List Char}

/-- A digit is no comma. -/
theorem ne_comma_of_isDigit (h : isDigit c = true) : c ≠ ',' := by
  rintro rfl
  cases h

/-- A comma in front of a digit is the next character of a digit with so many digits behind it, or
comes later. -/
theorem commaBefore_cons : CommaBefore i (c :: cs) ↔ CommaBefore i cs ∨
    isDigit c = true ∧ ∃ e after, cs = ',' :: e :: after ∧ isDigit e = true ∧
      (e :: after).countP isDigit = i := by
  constructor
  · rintro ⟨before, d, e, after, heq, hd, he, hcount⟩
    cases before with
    | nil =>
      obtain ⟨rfl, rfl⟩ := List.cons.inj heq
      exact .inr ⟨hd, e, after, rfl, he, hcount⟩
    | cons b before =>
      obtain ⟨rfl, rfl⟩ := List.cons.inj heq
      exact .inl ⟨before, d, e, after, rfl, hd, he, hcount⟩
  · rintro (⟨before, d, e, after, rfl, hd, he, hcount⟩ | ⟨hc, e, after, rfl, he, hcount⟩)
    · exact ⟨c :: before, d, e, after, rfl, hd, he, hcount⟩
    · exact ⟨[], c, e, after, rfl, hc, he, hcount⟩

/-- What is no digit has no comma behind it that counts. -/
theorem commaBefore_cons_of_not_isDigit (h : isDigit c = false) :
    CommaBefore i (c :: cs) ↔ CommaBefore i cs := by
  rw [commaBefore_cons, h]
  simp

/-- A comma in front of digits, and behind another one. -/
theorem commaBefore_cons_comma (hc : isDigit c = true) (hcs : cs.head?.any isDigit = true) :
    CommaBefore i (c :: ',' :: cs) ↔ CommaBefore i cs ∨ i = cs.countP isDigit := by
  obtain ⟨e, he, hdigit⟩ := (Option.any_eq_true _ _).1 hcs
  obtain ⟨after, rfl⟩ := List.head?_eq_some_iff.1 he
  rw [commaBefore_cons, commaBefore_cons_of_not_isDigit (by decide)]
  refine or_congr_right ⟨?_, ?_⟩
  · rintro ⟨-, e, after, heq, -, hcount⟩
    rw [(List.cons.inj heq).2]
    exact hcount.symm
  · rintro rfl
    exact ⟨hc, e, after, rfl, hdigit, rfl⟩

/-- No comma stands behind a digit that another character follows. -/
theorem commaBefore_cons_of_head (h : cs.head? ≠ some ',') :
    CommaBefore i (c :: cs) ↔ CommaBefore i cs := by
  rw [commaBefore_cons]
  refine or_iff_left ?_
  rintro ⟨-, e, after, rfl, -⟩
  exact h rfl

/-- A character may be put in front unless it is a comma or comes before one. -/
theorem CommasEnclosed.cons (h : CommasEnclosed cs) (hc : c ≠ ',') (hcs : cs.head? ≠ some ',') :
    CommasEnclosed (c :: cs) := by
  intro before after heq
  cases before with
  | nil => exact absurd (List.cons.inj heq).1 hc
  | cons b before =>
    obtain ⟨-, rfl⟩ := List.cons.inj heq
    cases before with
    | nil => exact absurd rfl hcs
    | cons b' before =>
      rw [List.getLast?_cons_cons]
      exact h _ _ rfl

/-- A comma may be put between two digits. -/
theorem CommasEnclosed.cons_comma (h : CommasEnclosed cs) (hc : isDigit c = true)
    (hcs : cs.head?.any isDigit = true) : CommasEnclosed (c :: ',' :: cs) := by
  intro before after heq
  match before with
  | [] => exact absurd (List.cons.inj heq).1 (ne_comma_of_isDigit hc)
  | [b] =>
    obtain ⟨rfl, heq'⟩ := List.cons.inj heq
    obtain ⟨-, rfl⟩ := List.cons.inj heq'
    exact ⟨hc, hcs⟩
  | b :: b' :: before =>
    obtain ⟨rfl, heq'⟩ := List.cons.inj heq
    obtain ⟨rfl, rfl⟩ := List.cons.inj heq'
    cases before with
    | nil => cases hcs
    | cons b'' before =>
      rw [List.getLast?_cons_cons, List.getLast?_cons_cons]
      exact h _ _ rfl

/-! ## Digits with commas -/

/-- Digits with commas begin with the first digit. -/
theorem head?_spaced (ds : List Char) : (spaced 0 ds).head? = ds.head? := by
  cases ds with
  | nil => rfl
  | cons d ds =>
    rw [spaced]
    split <;> rfl

/-- Digits with other digits behind them begin with a digit when they are grouped. -/
theorem head?_spaced_any (h : ∀ d ∈ ds, isDigit d = true) (hne : ds ≠ []) :
    (spaced 0 ds).head?.any isDigit = true := by
  obtain ⟨d, ds, rfl⟩ := List.exists_cons_of_ne_nil hne
  rw [head?_spaced]
  exact h d (.head _)

/-- Digits with commas begin with no comma. -/
theorem head?_spaced_ne (h : ∀ d ∈ ds, isDigit d = true) : (spaced 0 ds).head? ≠ some ',' := by
  rw [head?_spaced]
  intro hcomma
  exact ne_comma_of_isDigit (h _ (List.mem_of_head? hcomma)) rfl

/-- Grouping digits puts in nothing but commas. -/
theorem filter_spaced (h : ∀ d ∈ ds, isDigit d = true) : (spaced 0 ds).filter (· != ',') = ds := by
  induction ds with
  | nil => rfl
  | cons d ds ih =>
    obtain ⟨hd, hds⟩ := List.forall_mem_cons.1 h
    have hkept : (d != ',') = true := by simpa using ne_comma_of_isDigit hd
    rw [spaced]
    split <;> simp [hkept, ih hds]

/-- Commas change nothing about the number of digits. -/
theorem countP_spaced (h : ∀ d ∈ ds, isDigit d = true) :
    (spaced 0 ds).countP isDigit = ds.length := by
  induction ds with
  | nil => rfl
  | cons d ds ih =>
    obtain ⟨hd, hds⟩ := List.forall_mem_cons.1 h
    have hcomma : isDigit ',' = false := rfl
    rw [spaced]
    split <;> simp [hd, hcomma, ih hds]

/-- Among digits with commas there is nothing else. -/
theorem mem_spaced (h : c ∈ spaced 0 ds) : c ∈ ds ∨ c = ',' := by
  induction ds with
  | nil => cases h
  | cons d ds ih =>
    rw [spaced] at h
    split at h
    · rcases List.mem_cons.1 h with rfl | h
      · exact .inl (.head _)
      · rcases List.mem_cons.1 h with rfl | h
        · exact .inr rfl
        · exact (ih h).imp_left (.tail _)
    · rcases List.mem_cons.1 h with rfl | h
      · exact .inl (.head _)
      · exact (ih h).imp_left (.tail _)

/-- **The places of the commas** among grouped digits. -/
theorem commaBefore_spaced (h : ∀ d ∈ ds, isDigit d = true) :
    CommaBefore i (spaced 0 ds) ↔ 3 ≤ i ∧ i % 2 = 1 ∧ i < ds.length := by
  induction ds with
  | nil =>
    refine iff_of_false ?_ (by simp)
    rintro ⟨before, d, e, after, heq, -⟩
    simp [spaced] at heq
  | cons d ds ih =>
    obtain ⟨hd, hds⟩ := List.forall_mem_cons.1 h
    rw [spaced, List.length_cons, Nat.add_zero]
    split
    · next hcomma =>
      have hne : ds ≠ [] := List.ne_nil_of_length_pos (by omega)
      rw [commaBefore_cons_comma hd (head?_spaced_any hds hne), ih hds, countP_spaced hds]
      omega
    · next hnone =>
      rw [commaBefore_cons_of_head (head?_spaced_ne hds), ih hds]
      omega

/-- Every comma among digits with commas stands between two digits. -/
theorem commasEnclosed_spaced (h : ∀ d ∈ ds, isDigit d = true) : CommasEnclosed (spaced 0 ds) := by
  induction ds with
  | nil =>
    intro before after heq
    simp [spaced] at heq
  | cons d ds ih =>
    obtain ⟨hd, hds⟩ := List.forall_mem_cons.1 h
    rw [spaced]
    split
    · next hcomma =>
      have hne : ds ≠ [] := List.ne_nil_of_length_pos (by omega)
      exact (ih hds).cons_comma hd (head?_spaced_any hds hne)
    · exact (ih hds).cons (ne_comma_of_isDigit hd) (head?_spaced_ne hds)

end

/-! ## Groups cut off the end -/

section
variable {digits ds : List Char} {stop width behind : Nat} {groups : List (List Char)}

/-- Commas go into digits in two parts, the one in front with the other behind it. -/
theorem spaced_append (behind : Nat) (cs ds : List Char) :
    spaced behind (cs ++ ds) = spaced (ds.length + behind) cs ++ spaced behind ds := by
  induction cs with
  | nil => rfl
  | cons c cs ih =>
    rw [List.cons_append, spaced, spaced, ih, List.length_append, Nat.add_assoc]
    split <;> rfl

/-- No comma stands inside the last group. -/
theorem spaced_last (h : ds.length ≤ 3) : spaced 0 ds = ds := by
  induction ds with
  | nil => rfl
  | cons d ds ih =>
    rw [List.length_cons] at h
    rw [spaced, if_neg (by omega), ih (by omega)]

/-- One comma stands behind any other group. -/
theorem spaced_group (hne : ds ≠ []) (hlength : ds.length ≤ 2) (hbehind : 3 ≤ behind)
    (hodd : behind % 2 = 1) : spaced behind ds = ds ++ [','] := by
  match ds with
  | [d] =>
    rw [spaced, if_pos (by rw [List.length_nil]; omega)]
    rfl
  | [d, e] =>
    rw [spaced, spaced, if_neg (by rw [List.length_singleton]; omega),
      if_pos (by rw [List.length_nil]; omega)]
    rfl
  | _ :: _ :: _ :: _ => exact absurd hlength (by simp)

/-- What holds whenever a group is about to be cut off: those that have been cut off are the digits
behind `stop` with their commas. Either there are none yet, or it is digits of whole groups that
stand behind those in front of `stop`. -/
structure Cut (digits : List Char) (stop width : Nat) (groups : List (List Char)) : Prop where
  stop_le : stop ≤ digits.length
  text : spaced 0 digits =
    spaced (digits.length - stop) (digits.take stop) ++ [','].intercalate groups.reverse
  state : (groups = [] ∧ stop = digits.length ∧ width = 3) ∨
    (groups ≠ [] ∧ width = 2 ∧
      (0 < stop → 3 ≤ digits.length - stop ∧ (digits.length - stop) % 2 = 1))

/-- Nothing has been cut off at first. -/
theorem Cut.start (digits : List Char) : Cut digits digits.length 3 [] where
  stop_le := Nat.le_refl _
  text := by simp [List.intercalate_nil]
  state := .inl ⟨rfl, rfl, rfl⟩

/-- **One group more.** -/
theorem Cut.step (h : Cut digits stop width groups) (hstop : 0 < stop) :
    Cut digits (stop - width) 2 (groups ++ [digits.extract (stop - width) stop]) := by
  obtain ⟨hle, htext, hstate⟩ := h
  set group := digits.extract (stop - width) stop with hgroup
  have hlength : group.length = stop - (stop - width) := by
    rw [hgroup, List.extract_eq_take_drop, List.length_take, List.length_drop]
    omega
  have hsplit : digits.take stop = digits.take (stop - width) ++ group := by
    rw [hgroup, List.extract_eq_take_drop, ← List.take_add]
    congr 1
    omega
  have hwidth : 2 ≤ width := by omega
  have hne : group ≠ [] := List.ne_nil_of_length_pos (by omega)
  have hbehind : group.length + (digits.length - stop) = digits.length - (stop - width) := by omega
  have hjoined : spaced (digits.length - stop) group ++ [','].intercalate groups.reverse =
      [','].intercalate (groups ++ [group]).reverse := by
    rw [List.reverse_append, List.reverse_singleton, List.singleton_append]
    obtain ⟨rfl, rfl, rfl⟩ | ⟨hsome, rfl, hodd⟩ := hstate
    · rw [Nat.sub_self, spaced_last (by omega)]
      simp [List.intercalate_nil]
    · obtain ⟨hthree, hodd⟩ := hodd hstop
      rw [spaced_group hne (by omega) hthree hodd,
        List.intercalate_cons_of_ne_nil (by simpa using hsome)]
  refine ⟨by omega, ?_, .inr ⟨by simp, rfl, fun hleft => ?_⟩⟩
  · rw [htext, hsplit, spaced_append, hbehind, List.append_assoc, hjoined]
  · omega

/-- When no digits are left, the groups with their commas are all of them. -/
theorem Cut.cutGroups (hwidth : 0 < width) (h : Cut digits stop width groups) :
    [','].intercalate (cutGroups digits stop width hwidth groups).reverse = spaced 0 digits := by
  induction stop, width, hwidth, groups using cutGroups.induct digits with
  | case1 stop width _ groups hstop start ih =>
    rw [Function.cutGroups, if_pos hstop]
    exact ih (h.step hstop)
  | case2 stop width _ groups hstop =>
    obtain rfl : stop = 0 := Nat.eq_zero_of_not_pos hstop
    rw [Function.cutGroups, if_neg hstop, h.text]
    rfl

/-- **Groups and commas.** The groups that are cut off the end have their commas where the digits
behind each digit say. -/
theorem grouped_eq_spaced (digits : List Char) : grouped digits = spaced 0 digits :=
  (Cut.start digits).cutGroups (Nat.succ_pos 2)

end

/-! ## Zeros at the end -/

/-- A numeral without the zeros at its end, and without a point that would be left there. -/
def withoutZeros (cs : List Char) : List Char :=
  dropEndWhile (· == '.') (dropEndWhile (· == '0') cs)

/-- The point and the digits behind it, less the zeros at the end. -/
def pointed (fraction : List Char) : List Char :=
  if (dropEndWhile (· == '0') fraction).isEmpty then []
  else '.' :: dropEndWhile (· == '0') fraction

section
variable {c : Char} {ds whole fraction : List Char}

/-- What is left of a text was in it. -/
theorem mem_of_mem_dropEndWhile {p : Char → Bool} (h : c ∈ dropEndWhile p ds) : c ∈ ds :=
  (List.rdropWhile_prefix p ds).subset h

/-- Nothing is dropped in front of a character that is kept. -/
theorem dropEndWhile_append_cons {p : Char → Bool} (cs ds : List Char) (h : p c = false) :
    dropEndWhile p (cs ++ c :: ds) = cs ++ c :: dropEndWhile p ds := by
  induction ds using List.reverseRecOn with
  | nil => exact List.rdropWhile_concat_neg p cs c (by simp [h])
  | append_singleton ds d ih =>
    have hleft : dropEndWhile p (cs ++ c :: (ds ++ [d])) =
        if p d then dropEndWhile p (cs ++ c :: ds) else cs ++ c :: ds ++ [d] := by
      rw [← List.cons_append, ← List.append_assoc]
      exact List.rdropWhile_concat ..
    have hright : dropEndWhile p (ds ++ [d]) = if p d then dropEndWhile p ds else ds ++ [d] :=
      List.rdropWhile_concat ..
    rw [hleft, hright]
    split
    · exact ih
    · simp

/-- Digits that all are zeros. -/
theorem all_zero_iff (h : ∀ d ∈ ds, isDigit d = true) :
    (∀ d ∈ ds, (d == '0') = true) ↔ hasNonzeroDigit ds = false := by
  rw [hasNonzeroDigit, List.any_eq_false]
  refine forall₂_congr fun d hd => ?_
  rw [h d hd, Bool.true_and, bne, Bool.not_eq_true, Bool.not_eq_false']

/-- Dropping zeros drops no digit but zeros. -/
theorem hasNonzeroDigit_dropZeros (ds : List Char) :
    hasNonzeroDigit (dropEndWhile (· == '0') ds) = hasNonzeroDigit ds := by
  induction ds using List.reverseRecOn with
  | nil => rfl
  | append_singleton ds d ih =>
    have hlast : dropEndWhile (· == '0') (ds ++ [d]) =
        if (d == '0') = true then dropEndWhile (· == '0') ds else ds ++ [d] :=
      List.rdropWhile_concat ..
    rw [hlast]
    split
    · next hzero =>
      rw [ih, hasNonzeroDigit_append, beq_iff_eq.1 hzero]
      exact (Bool.or_false _).symm
    · rfl

/-- Nothing is left of the zeros of a fraction. -/
theorem isEmpty_dropZeros (ds : List Char) (h : ∀ d ∈ ds, isDigit d = true) :
    (dropEndWhile (· == '0') ds).isEmpty = !hasNonzeroDigit ds := by
  rw [Bool.eq_iff_iff, List.isEmpty_iff, Bool.not_eq_true', ← all_zero_iff h]
  exact List.rdropWhile_eq_nil_iff

/-- Without the zeros at its end a fraction has a digit other than zero if it had one before. -/
theorem hasNonzeroDigit_pointed (fraction : List Char) :
    hasNonzeroDigit (pointed fraction) = hasNonzeroDigit fraction := by
  have hsame := hasNonzeroDigit_dropZeros fraction
  unfold pointed
  split
  · next hempty =>
    rw [← hsame, List.isEmpty_iff.1 hempty]
  · rw [← hsame]
    rfl

/-- There is no comma behind the point. -/
theorem not_comma_mem_pointed (h : ∀ d ∈ fraction, isDigit d = true) : ',' ∉ pointed fraction := by
  unfold pointed
  split
  · exact List.not_mem_nil
  · rintro (_ | ⟨_, hmem⟩)
    exact ne_comma_of_isDigit (h _ (mem_of_mem_dropEndWhile hmem)) rfl

/-- The characters in front of the point, and those from the point on. -/
theorem span_pointed {cs : List Char} (h : ∀ c ∈ cs, c ≠ '.') (fraction : List Char) :
    (cs ++ pointed fraction).takeWhile (· != '.') = cs ∧
      (cs ++ pointed fraction).dropWhile (· != '.') = pointed fraction := by
  have hcs : ∀ c ∈ cs, (c != '.') = true := fun c hc => by simpa using h c hc
  rw [List.takeWhile_append_of_pos hcs, List.dropWhile_append_of_pos hcs]
  unfold pointed
  split
  · exact ⟨List.append_nil cs, rfl⟩
  · exact ⟨List.append_nil cs, rfl⟩

/-- What is left of a numeral with a point. -/
theorem withoutZeros_point (hne : whole ≠ []) (hwhole : ∀ d ∈ whole, isDigit d = true)
    (hfraction : ∀ d ∈ fraction, isDigit d = true) :
    withoutZeros (whole ++ '.' :: fraction) = whole ++ pointed fraction := by
  have hpoint : ∀ d, isDigit d = true → (d == '.') = false := by
    intro d hd
    rw [beq_eq_false_iff_ne]
    rintro rfl
    cases hd
  have hlast : ∀ ds : List Char, ds ≠ [] → (∀ d ∈ ds, isDigit d = true) → ∀ cs,
      dropEndWhile (· == '.') (cs ++ ds) = cs ++ ds := by
    intro ds hne hds cs
    rw [← List.dropLast_append_getLast hne, ← List.append_assoc]
    exact dropEndWhile_append_cons _ [] (hpoint _ (hds _ (List.getLast_mem hne)))
  rw [withoutZeros, dropEndWhile_append_cons whole fraction (by decide), pointed]
  split
  · next hempty =>
    have hone : dropEndWhile (· == '.') (whole ++ ['.']) = dropEndWhile (· == '.') whole :=
      List.rdropWhile_concat_pos _ _ _ rfl
    rw [List.isEmpty_iff.1 hempty, hone, List.append_nil]
    exact hlast whole hne hwhole []
  · next hsome =>
    have hcons := hlast (dropEndWhile (· == '0') fraction) (by simpa using hsome)
      (fun d hd => hfraction d (mem_of_mem_dropEndWhile hd)) (whole ++ ['.'])
    simpa using hcons

end

/-! ## Numbers in lakhs -/

section
variable {x : Float} {p : Parts}

/-- The parts of a number in lakhs. Its sign is written unless all its digits are zeros. -/
theorem inLakhs_eq (hp : parts? x = some p) :
    inLakhs x =
      (if p.negative && hasNonzeroDigit ((p.fixedDigits 3).1 ++ (p.fixedDigits 3).2) then ['-']
        else []) ++ (spaced 0 (p.fixedDigits 3).1 ++ pointed (p.fixedDigits 3).2) := by
  have hwhole : (p.fixedDigits 3).1.all (· == '0') = !hasNonzeroDigit (p.fixedDigits 3).1 := by
    rw [Bool.eq_iff_iff, List.all_eq_true, Bool.not_eq_true',
      ← all_zero_iff fun _ => Parts.isDigit_whole]
  have hfraction := isEmpty_dropZeros (p.fixedDigits 3).2 fun _ => Parts.isDigit_fraction
  have hzero : (!((p.fixedDigits 3).1.all (· == '0') &&
      (dropEndWhile (· == '0') (p.fixedDigits 3).2).isEmpty)) =
      hasNonzeroDigit ((p.fixedDigits 3).1 ++ (p.fixedDigits 3).2) := by
    rw [hwhole, hfraction, hasNonzeroDigit_append, Bool.not_and, Bool.not_not, Bool.not_not]
  rw [← hzero, ← List.append_assoc, inLakhs, hp, ← grouped_eq_spaced]
  rfl

/-- A number that is not written as zero is below zero if it has a minus sign. -/
theorem toRat_neg_of_hasNonzeroDigit (hp : parts? x = some p) {places : Nat} (hplaces : places ≠ 0)
    (h : hasNonzeroDigit ((p.fixedDigits places).1 ++ (p.fixedDigits places).2) = true) :
    toRat x < 0 ↔ p.negative = true := by
  rw [toRat_neg_iff hp]
  refine and_iff_left fun hzero => ?_
  exact (p.hasNonzeroDigit_fixedDigits hplaces).1 h (Parts.inPlaces_eq_zero hzero)

/-- The sign that is written is the sign of the number. -/
theorem sign_inLakhs (hp : parts? x = some p) :
    (if toRat x < 0 ∧ hasNonzeroDigit ((p.fixedDigits 3).1 ++ (p.fixedDigits 3).2) = true then ['-']
      else []) =
    if p.negative && hasNonzeroDigit ((p.fixedDigits 3).1 ++ (p.fixedDigits 3).2) then ['-']
      else [] := by
  refine if_congr ?_ rfl rfl
  rw [Bool.and_eq_true]
  exact and_congr_left fun h => toRat_neg_of_hasNonzeroDigit hp (by decide) h

/-- The rendering of the size with three places, less the zeros at the end. -/
theorem withoutZeros_fixed (hp : parts? x = some p) :
    withoutZeros (fixed 3 x.abs) = (p.fixedDigits 3).1 ++ pointed (p.fixedDigits 3).2 := by
  rw [fixed_abs hp, withoutZeros_point (p.whole_digits_ne_nil 3) (fun _ => Parts.isDigit_whole)
    fun _ => Parts.isDigit_fraction]

end

section
variable {whole fraction : List Char}

/-- Without its commas, a text is made of a sign, digits and a fraction. -/
theorem filter_signed_spaced (negative : Bool) (hwhole : ∀ d ∈ whole, isDigit d = true)
    (hfraction : ∀ d ∈ fraction, isDigit d = true) :
    ((if negative then ['-'] else []) ++ (spaced 0 whole ++ pointed fraction)).filter (· != ',') =
      (if negative then ['-'] else []) ++ (whole ++ pointed fraction) := by
  have hkept : (pointed fraction).filter (· != ',') = pointed fraction := by
    refine List.filter_eq_self.2 fun c hc => ?_
    simpa using ne_of_mem_of_not_mem hc (not_comma_mem_pointed hfraction)
  rw [List.filter_append, List.filter_append, filter_spaced hwhole, hkept]
  cases negative <;> rfl

/-- A sign changes nothing about the places of the commas. -/
theorem commas_signed_spaced (negative : Bool) (hwhole : ∀ d ∈ whole, isDigit d = true) :
    (∀ i, CommaBefore i ((if negative then ['-'] else []) ++ spaced 0 whole) ↔
      3 ≤ i ∧ i % 2 = 1 ∧
        i < ((if negative then ['-'] else []) ++ spaced 0 whole).countP isDigit) ∧
      CommasEnclosed ((if negative then ['-'] else []) ++ spaced 0 whole) := by
  have hcount : ((if negative then ['-'] else []) ++ spaced 0 whole).countP isDigit =
      whole.length := by
    rw [List.countP_append, countP_spaced hwhole]
    cases negative <;> exact Nat.zero_add _
  refine ⟨fun i => ?_, ?_⟩
  · rw [hcount, ← commaBefore_spaced hwhole]
    cases negative with
    | false => rfl
    | true => exact commaBefore_cons_of_not_isDigit rfl
  · cases negative with
    | false => exact commasEnclosed_spaced hwhole
    | true => exact (commasEnclosed_spaced hwhole).cons (by decide) (head?_spaced_ne hwhole)

/-- There is no point among a sign and digits with commas. -/
theorem not_point_mem_signed_spaced (negative : Bool) (hwhole : ∀ d ∈ whole, isDigit d = true) :
    ∀ c ∈ (if negative then ['-'] else []) ++ spaced 0 whole, c ≠ '.' := by
  refine List.forall_mem_append.2 ⟨?_, ?_⟩
  · cases negative <;> simp
  · rintro c hc rfl
    rcases mem_spaced hc with hdigit | hcomma
    · cases hwhole _ hdigit
    · cases hcomma

/-- **Grouping puts in commas only, and in the right places.** Without its commas, a number in lakhs
is the rendering of its size with three places, less the zeros at the end, after a minus sign if it
is below zero and not written as zero. Its commas stand between two digits before the point: after
the third digit from the right, and then after every second. -/
theorem inLakhs_commas {x : Float} (h : isFinite x = true) :
    (inLakhs x).filter (· != ',') =
        (if toRat x < 0 ∧ hasNonzeroDigit (withoutZeros (fixed 3 x.abs)) = true then ['-']
          else []) ++ withoutZeros (fixed 3 x.abs) ∧
      (∀ i, CommaBefore i ((inLakhs x).takeWhile (· != '.')) ↔
        3 ≤ i ∧ i % 2 = 1 ∧ i < ((inLakhs x).takeWhile (· != '.')).countP isDigit) ∧
      CommasEnclosed ((inLakhs x).takeWhile (· != '.')) ∧
      ',' ∉ (inLakhs x).dropWhile (· != '.') := by
  obtain ⟨p, hp⟩ := Option.isSome_iff_exists.1 h
  have hwhole : ∀ d ∈ (p.fixedDigits 3).1, isDigit d = true := fun _ => Parts.isDigit_whole
  have hfraction : ∀ d ∈ (p.fixedDigits 3).2, isDigit d = true := fun _ => Parts.isDigit_fraction
  have htext := inLakhs_eq hp
  rw [withoutZeros_fixed hp, hasNonzeroDigit_append, hasNonzeroDigit_pointed,
    ← hasNonzeroDigit_append, sign_inLakhs hp]
  generalize (p.negative &&
    hasNonzeroDigit ((p.fixedDigits 3).1 ++ (p.fixedDigits 3).2)) = negative at htext ⊢
  obtain ⟨htake, hdrop⟩ := span_pointed (not_point_mem_signed_spaced negative hwhole)
    (p.fixedDigits 3).2
  rw [List.append_assoc, ← htext] at htake hdrop
  obtain ⟨hplaces, henclosed⟩ := commas_signed_spaced negative hwhole
  rw [htake, hdrop, htext]
  exact ⟨filter_signed_spaced negative hwhole hfraction, hplaces, henclosed,
    not_comma_mem_pointed hfraction⟩

/-- A number of crores that is below zero. -/
theorem inLakhs_commas_crores :
    isFinite (-12345678.9) = true ∧ inLakhs (-12345678.9) = "-1,23,45,678.9".toList ∧
      (inLakhs (-12345678.9)).filter (· != ',') =
        (if toRat (-12345678.9) < 0 ∧
            hasNonzeroDigit (withoutZeros (fixed 3 (-12345678.9 : Float).abs)) = true then ['-']
          else []) ++ withoutZeros (fixed 3 (-12345678.9 : Float).abs) ∧
      (∀ i, CommaBefore i ((inLakhs (-12345678.9)).takeWhile (· != '.')) ↔ 3 ≤ i ∧ i % 2 = 1 ∧
        i < ((inLakhs (-12345678.9)).takeWhile (· != '.')).countP isDigit) ∧
      CommasEnclosed ((inLakhs (-12345678.9)).takeWhile (· != '.')) ∧
      ',' ∉ (inLakhs (-12345678.9)).dropWhile (· != '.') := by
  have hfinite : isFinite (-12345678.9) = true := by decide +kernel
  exact ⟨hfinite, by decide +kernel, inLakhs_commas hfinite⟩

end

end Spreadsheet.Function
