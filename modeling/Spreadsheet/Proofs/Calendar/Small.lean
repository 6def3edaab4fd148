import Spreadsheet.Calendar.Reading

/-!
# The parts of dates are small

Years that can be read are bounded, and so are all parts of a moment that is read
(`Moment.small_of_ofText?`), also when it is moved to universal time.
-/

namespace Spreadsheet

/-- Whether all parts of a moment are below a million in size. -/
structure Moment.Small (m : Moment) : Prop where
  year : m.date.year.natAbs < 1000000
  month : m.date.month < 1000000
  day : m.date.day < 1000000
  hour : m.hour < 1000000
  minute : m.minute < 1000000
  second : m.second < 1000000

/-- Whether all parts of a moment are within the bounds that are checked when it is read. -/
structure Moment.Checked (m : Moment) : Prop where
  year : -262143 ≤ m.date.year ∧ m.date.year ≤ 262142
  month : m.date.month ≤ 12
  day : m.date.day ≤ 31
  hour : m.hour ≤ 23
  minute : m.minute ≤ 59
  second : m.second ≤ 59

/-- No month has more than 31 days. -/
theorem Date.daysInMonth_le (year : Int) (month : Nat) : daysInMonth year month ≤ 31 := by
  unfold daysInMonth
  repeat' split
  all_goals decide

/-- Parts that make up a moment are checked. -/
theorem Parsed.checked_of_moment? {p : Parsed} {m : Moment} (h : p.moment? = some m) :
    m.Checked := by
  unfold Parsed.moment? at h
  dsimp only at h
  split at h
  · next hvalid =>
    simp only [isReadableYear, Bool.and_eq_true, decide_eq_true_eq] at hvalid
    obtain ⟨⟨⟨⟨hyear, -, hmonth, -, hday⟩, hhour⟩, hminute⟩, hsecond⟩ := hvalid
    cases h
    exact ⟨hyear, hmonth, Nat.le_trans hday (Date.daysInMonth_le _ _), hhour, hminute,
      Nat.min_le_right _ _⟩
  · cases h

namespace Moment

variable {m : Moment}

/-- A moment with checked parts is small. -/
theorem Checked.small (h : m.Checked) : m.Small := by
  obtain ⟨hyear, hmonth, hday, hhour, hminute, hsecond⟩ := h
  constructor <;> omega

/-- The number of a date is not large, and neither are the parts of the date of such a number. -/
theorem Checked.number_le (h : m.Checked) : m.date.number.natAbs ≤ 100000000 := by
  obtain ⟨hyear, hmonth, hday, -⟩ := h
  unfold Date.number
  dsimp only
  split <;> omega

/-- A moment of a day not too far from the first is small. -/
theorem small_ofNumber {n : Int} (h : n.natAbs ≤ 200000000) {hour minute second : Nat}
    (hhour : hour < 1000000) (hminute : minute < 1000000) (hsecond : second < 1000000) :
    Small ⟨.ofNumber n, hour, minute, second⟩ := by
  have hyear : (Date.ofNumber n).year.natAbs < 1000000 ∧ (Date.ofNumber n).month < 1000000 ∧
      (Date.ofNumber n).day < 1000000 := by
    unfold Date.ofNumber
    dsimp only
    split <;> dsimp only <;> omega
  exact ⟨hyear.1, hyear.2.1, hyear.2.2, hhour, hminute, hsecond⟩

/-- A checked moment stays small in another zone. -/
theorem Checked.small_addMinutes (h : m.Checked) {minutes : Int} (hm : minutes.natAbs < 1440) :
    (m.addMinutes minutes).Small := by
  have hnumber := h.number_le
  obtain ⟨-, -, -, hhour, hminute, hsecond⟩ := h
  refine small_ofNumber ?_ ?_ ?_ ?_ <;> omega

end Moment

/-- An offset is less than a day. -/
theorem offset?_lt {cs : List Char} {n : Int} (h : offset? cs = some n) : n.natAbs < 1440 := by
  unfold offset? at h
  split at h
  · cases h
    decide
  · cases h
    decide
  · split at h
    · simp only [Option.bind_eq_bind, Option.bind_eq_some_iff] at h
      obtain ⟨⟨hours, cs₁⟩, -, cs₂, -, ⟨minutes, cs₃⟩, -, h⟩ := h
      split at h
      · next hrange =>
        simp only [Bool.and_eq_true, decide_eq_true_eq] at hrange
        split at h <;> cases h <;> omega
      · cases h
    · cases h
  · cases h

/-- A date of the internet is small. -/
theorem small_of_readInternet? {cs : List Char} {m : Moment} (h : readInternet? cs = some m) :
    m.Small := by
  simp only [readInternet?, Option.bind_eq_bind, Option.bind_eq_some_iff] at h
  obtain ⟨_, -, _, -, _, -, _, -, _, -, _, -, _, -, _, -, _, -, _, -, _, -, _, -, offset, hoffset,
    moment, hmoment, h⟩ := h
  cases h
  refine (Parsed.checked_of_moment? hmoment).small_addMinutes ?_
  rw [Int.natAbs_neg]
  exact offset?_lt hoffset

/-- A date in a pattern is small. -/
theorem small_of_readPattern? {cs : List Char} {m : Moment} (h : readPattern? cs = some m) :
    m.Small := by
  obtain ⟨pieces, -, h⟩ := List.exists_of_findSome?_eq_some h
  obtain ⟨p, -, h⟩ := Option.bind_eq_some_iff.1 h
  exact (Parsed.checked_of_moment? h).small

/-- A moment that is read has small parts. -/
theorem Moment.small_of_ofText? {s : String} {m : Moment} (h : ofText? s = some m) : m.Small := by
  unfold ofText? at h
  dsimp only at h
  cases hinternet : readInternet? (Text.trimChars s.toList) with
  | some m' =>
    rw [hinternet] at h
    cases h
    exact small_of_readInternet? hinternet
  | none =>
    rw [hinternet] at h
    exact small_of_readPattern? h

end Spreadsheet
