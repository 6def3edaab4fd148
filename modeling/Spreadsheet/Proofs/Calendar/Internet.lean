import Spreadsheet.Proofs.Calendar.Patterns

/-!
# Dates written in the internet notation

A text in the internet notation (`InternetText`) shows the date and the time of a zone and tells how
far the zone is ahead of universal time. It is read to the moment of universal time at which the
clock of the zone shows them (`InternetText.ofText?_chars`). A clock is written in this notation, in
the zone of universal time (`clockText_eq`), and its date in the first pattern of a date alone
(`Date.toText_eq`).
-/

namespace Spreadsheet

open Text

/-! ## The notation -/

/-- The end of a text in the internet notation: universal time, or a zone that is ahead of it or
behind it. -/
inductive Zone where
  | universal (letter : Char)
  | ahead (hours minutes : Nat)
  | behind (hours minutes : Nat)
  deriving Repr, DecidableEq

namespace Zone

/-- Whether a zone can be written: the letter is a Z, and there are hours of a day and minutes of an
hour. -/
def IsValid : Zone → Prop
  | universal letter => letter = 'Z' ∨ letter = 'z'
  | ahead hours minutes | behind hours minutes => hours ≤ 23 ∧ minutes ≤ 59

/-- The minutes that a zone is ahead of universal time. -/
def offset : Zone → Int
  | universal _ => 0
  | ahead hours minutes => hours * 60 + minutes
  | behind hours minutes => -(hours * 60 + minutes)

/-- A zone as it is written. -/
def chars : Zone → List Char
  | universal letter => [letter]
  | ahead hours minutes => '+' :: paddedDigits 2 hours ++ ':' :: paddedDigits 2 minutes
  | behind hours minutes => '-' :: paddedDigits 2 hours ++ ':' :: paddedDigits 2 minutes

end Zone

/-- The time of day, as in `09:05:07`. -/
def Moment.timeText (m : Moment) : List Char :=
  paddedDigits 2 m.hour ++ ':' :: paddedDigits 2 m.minute ++ ':' :: paddedDigits 2 m.second

/-- A text in the internet notation: the date and the time of a zone, which the divider parts, the
digits of a fraction of a second, if there are any, and the zone. -/
structure InternetText where
  shown : Moment
  divider : Char
  fraction : List Char
  zone : Zone

namespace InternetText

/-- Whether a text is one in the internet notation. -/
structure IsValid (t : InternetText) : Prop where
  shown : t.shown.IsValid
  year : t.shown.HasPlainYear
  divider : t.divider = 'T' ∨ t.divider = 't' ∨ t.divider = ' '
  fraction : ∀ c ∈ t.fraction, isDigit c = true
  zone : t.zone.IsValid

/-- The fraction of a second as it is written. -/
def fractionChars (t : InternetText) : List Char :=
  if t.fraction.isEmpty then [] else '.' :: t.fraction

/-- The characters of a text. -/
def chars (t : InternetText) : List Char :=
  t.shown.date.toText ++ t.divider :: t.shown.timeText ++ t.fractionChars ++ t.zone.chars

end InternetText

/-! ## Reading -/

section
variable {width n : Nat} {rest : List Char}

/-- A padded number of the width is taken exactly. -/
theorem takeExactly?_paddedDigits (hwidth : width ≠ 0) (h : n < 10 ^ width) :
    takeExactly? width (paddedDigits width n ++ rest) = some (n, rest) := by
  have hlength := length_paddedDigits hwidth h
  have htake : (paddedDigits width n ++ rest).take width = paddedDigits width n :=
    List.take_left' hlength
  have hdigits : (paddedDigits width n).all isDigit = true :=
    List.all_eq_true.2 fun _ => isDigit_of_mem_paddedDigits
  unfold takeExactly?
  dsimp only
  rw [htake, if_pos ⟨hlength, hdigits⟩, ofDigits_paddedDigits, List.drop_left' hlength]

theorem takeMark?_cons (c : Char) : takeMark? c (c :: rest) = some rest :=
  if_pos rfl

/-- Two digits are taken exactly. -/
theorem takeExactly?_two (h : n < 100) (rest : List Char) :
    takeExactly? 2 (paddedDigits 2 n ++ rest) = some (n, rest) :=
  takeExactly?_paddedDigits (by decide) h

end

/-- A zone is less than a day ahead of universal time or behind it. -/
theorem Zone.natAbs_offset_lt {zone : Zone} (h : zone.IsValid) : zone.offset.natAbs < 1440 := by
  cases zone with
  | universal letter => exact (by decide : (0 : Int).natAbs < 1440)
  | ahead hours minutes | behind hours minutes =>
    obtain ⟨hhours, hminutes⟩ := h
    rw [offset]
    omega

/-- A zone begins with neither a digit nor a point. -/
theorem Zone.exists_chars {zone : Zone} (h : zone.IsValid) :
    ∃ c cs, zone.chars = c :: cs ∧ isDigit c = false ∧ c ≠ '.' := by
  cases zone with
  | universal letter => exact ⟨letter, [], rfl, by rcases h with rfl | rfl <;> decide⟩
  | ahead hours minutes => exact ⟨'+', _, rfl, by decide⟩
  | behind hours minutes => exact ⟨'-', _, rfl, by decide⟩

/-- A zone is read to its offset. -/
theorem Zone.offset?_chars {zone : Zone} (h : zone.IsValid) :
    offset? zone.chars = some zone.offset := by
  have hread : ∀ (c : Char) (hours minutes : Nat), c = '+' ∨ c = '-' → hours ≤ 23 →
      minutes ≤ 59 → offset? (c :: (paddedDigits 2 hours ++ ':' :: paddedDigits 2 minutes)) =
        some (if c = '+' then (hours * 60 + minutes : Int) else -(hours * 60 + minutes)) := by
    intro c hours minutes hc hhours hminutes
    have hfirst := takeExactly?_two (Nat.lt_of_le_of_lt hhours (by decide))
      (':' :: paddedDigits 2 minutes)
    have hlast := takeExactly?_two (Nat.lt_of_le_of_lt hminutes (by decide)) []
    rw [List.append_nil] at hlast
    unfold offset?
    split
    · next heq =>
      obtain rfl := (List.cons.inj heq).1
      rcases hc with hc | hc <;> cases hc
    · next heq =>
      obtain rfl := (List.cons.inj heq).1
      rcases hc with hc | hc <;> cases hc
    · next heq =>
      cases heq
      rw [if_pos (hc.imp_right .inl), hfirst]
      change ((takeExactly? 2 (paddedDigits 2 minutes)).bind _) = _
      rw [hlast]
      exact if_pos (by rw [decide_eq_true hhours, decide_eq_true hminutes]; rfl)
    · next heq => cases heq
  cases zone with
  | universal letter => rcases h with rfl | rfl <;> rfl
  | ahead hours minutes => exact hread '+' hours minutes (.inl rfl) h.1 h.2
  | behind hours minutes => exact hread '-' hours minutes (.inr rfl) h.1 h.2

/-- A fraction of a second is passed over. -/
theorem skipFraction?_append {ds : List Char} (hds : ∀ c ∈ ds, isDigit c = true) {c : Char}
    {cs : List Char} (hc : isDigit c = false) (hpoint : c ≠ '.') :
    skipFraction? ((if ds.isEmpty then [] else '.' :: ds) ++ c :: cs) = some (c :: cs) := by
  cases ds with
  | nil => exact skipFraction?_of_not_point hpoint
  | cons d ds =>
    have hrun : (d :: ds ++ c :: cs).takeWhile isDigit = d :: ds := by
      rw [List.takeWhile_append_of_pos hds, List.takeWhile_cons_of_neg (by rw [hc]; decide),
        List.append_nil]
    change (takeNumber? (d :: ds ++ c :: cs).length (d :: ds ++ c :: cs)).map (·.2) = _
    unfold takeNumber?
    dsimp only
    rw [List.take_length, hrun, List.drop_left]
    rfl

/-- A date of the internet is read to its moment. -/
theorem InternetText.readInternet?_chars {t : InternetText} (h : t.IsValid) :
    readInternet? t.chars = some (t.shown.addMinutes (-t.zone.offset)) := by
  obtain ⟨hshown, hyear, hdivider, hfraction, hzone⟩ := h
  obtain ⟨c, cs, hchars, hc, hpoint⟩ := t.zone.exists_chars hzone
  obtain ⟨⟨-, hmonth, -, hday⟩, hhour, hminute, hsecond⟩ := id hshown
  have hdays := Date.daysInMonth_le t.shown.date.year t.shown.date.month
  have hyear' : t.shown.date.year.toNat < 10 ^ 4 := by
    have := hyear.2
    omega
  have hdivide : ∀ cs, takeDivider? (t.divider :: cs) = some cs := fun cs => if_pos hdivider
  have hmoment : Parsed.moment? ⟨(t.shown.date.year.toNat : Int), t.shown.date.month,
      t.shown.date.day, t.shown.hour, t.shown.minute, t.shown.second⟩ = some t.shown := by
    rw [Int.toNat_of_nonneg hyear.1]
    exact Moment.moment?_parsed hshown hyear
  rw [chars, Date.toText, Moment.timeText, yearText_plain hyear, hchars]
  simp only [List.append_assoc, List.cons_append]
  refine Option.bind_eq_some_iff.2 ⟨_, takeExactly?_paddedDigits (by decide) hyear', ?_⟩
  refine Option.bind_eq_some_iff.2 ⟨_, takeMark?_cons _, ?_⟩
  refine Option.bind_eq_some_iff.2 ⟨_, takeExactly?_two (by omega) _, ?_⟩
  refine Option.bind_eq_some_iff.2 ⟨_, takeMark?_cons _, ?_⟩
  refine Option.bind_eq_some_iff.2 ⟨_, takeExactly?_two (by omega) _, ?_⟩
  refine Option.bind_eq_some_iff.2 ⟨_, hdivide _, ?_⟩
  refine Option.bind_eq_some_iff.2 ⟨_, takeExactly?_two (by omega) _, ?_⟩
  refine Option.bind_eq_some_iff.2 ⟨_, takeMark?_cons _, ?_⟩
  refine Option.bind_eq_some_iff.2 ⟨_, takeExactly?_two (by omega) _, ?_⟩
  refine Option.bind_eq_some_iff.2 ⟨_, takeMark?_cons _, ?_⟩
  refine Option.bind_eq_some_iff.2 ⟨_, takeExactly?_two (by omega) _, ?_⟩
  refine Option.bind_eq_some_iff.2 ⟨_, skipFraction?_append hfraction hc hpoint, ?_⟩
  refine Option.bind_eq_some_iff.2 ⟨_, hchars ▸ t.zone.offset?_chars hzone, ?_⟩
  exact Option.bind_eq_some_iff.2 ⟨_, hmoment, rfl⟩

/-- A zone has no blanks. -/
theorem Zone.not_isBlank_of_mem_chars {zone : Zone} (h : zone.IsValid) {c : Char}
    (hc : c ∈ zone.chars) : isBlank c = false := by
  have hsigned : ∀ (sign : Char) (hours minutes : Nat), isBlank sign = false →
      ∀ c ∈ sign :: (paddedDigits 2 hours ++ ':' :: paddedDigits 2 minutes), isBlank c = false := by
    intro sign hours minutes hsign
    refine List.forall_mem_cons.2 ⟨hsign, List.forall_mem_append.2 ⟨fun c hc => ?_,
      List.forall_mem_cons.2 ⟨rfl, fun c hc => ?_⟩⟩⟩
    · exact not_isBlank_of_isDigit (isDigit_of_mem_paddedDigits hc)
    · exact not_isBlank_of_isDigit (isDigit_of_mem_paddedDigits hc)
  cases zone with
  | universal letter =>
    rw [List.mem_singleton.1 hc]
    rcases h with rfl | rfl <;> decide
  | ahead hours minutes => exact hsigned '+' hours minutes rfl c hc
  | behind hours minutes => exact hsigned '-' hours minutes rfl c hc

/-- A date of the internet has no blanks around it. -/
theorem InternetText.trimChars_chars {t : InternetText} (h : t.IsValid) :
    trimChars t.chars = t.chars := by
  refine trimChars_of_ends (fun c hc => ?_) fun c hc => ?_
  · obtain ⟨d, ds, hyear, hd⟩ :
        ∃ d ds, yearText t.shown.date.year = d :: ds ∧ isDigit d = true := by
      rw [yearText_plain h.year]
      exact paddedDigits_eq_cons (by decide) (by have := h.year.2; omega)
    rw [chars, Date.toText, hyear] at hc
    cases hc
    exact not_isBlank_of_isDigit hd
  · obtain ⟨d, ds, hzone, -⟩ := t.zone.exists_chars h.zone
    rw [chars, List.getLast?_append_of_ne_nil _ (hzone ▸ List.cons_ne_nil d ds)] at hc
    exact t.zone.not_isBlank_of_mem_chars h.zone (List.mem_of_getLast? hc)

/-- **A text in the internet notation is read to universal time**: the moment at which the clock of
its zone shows what the text shows. -/
theorem InternetText.ofText?_chars {t : InternetText} (h : t.IsValid) :
    Moment.ofText? (String.ofList t.chars) = some (t.shown.addMinutes (-t.zone.offset)) := by
  unfold Moment.ofText?
  dsimp only
  rw [String.toList_ofList, t.trimChars_chars h, t.readInternet?_chars h]
  rfl

/-! ## Clocks -/

/-- A clock is written in the internet notation, in the zone of universal time. -/
theorem clockText_eq (clock : Int) :
    clockText clock = InternetText.chars
      ⟨.ofClock clock, 'T', paddedDigits 3 (clock % 1000).toNat, .universal 'Z'⟩ := by
  have hne : (paddedDigits 3 (clock % 1000).toNat).isEmpty = false :=
    List.isEmpty_eq_false_iff.2 (List.append_ne_nil_of_right_ne_nil _ (digits_ne_nil _))
  simp [clockText, InternetText.chars, InternetText.fractionChars, Moment.timeText, Zone.chars, hne]

/-- A date is written in the first of the patterns without a time. -/
theorem Date.toText_eq (m : Moment) : m.date.toText = writePieces m (yearFirst '-') := by
  simp [Date.toText, writePieces, yearFirst, Piece.write]

end Spreadsheet
