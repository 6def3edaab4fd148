import Spreadsheet.Calendar.Moment
import Spreadsheet.Proofs.Calendar.Days

/-!
# Moments and the clocks of zones

The clock of a zone shows the moment of universal time some minutes ahead or behind, where days,
months and years roll over as the calendar has it (`Moment.Shows`). Taking the minutes back gives
universal time (`Moment.shows_addMinutes`). A clock that counts milliseconds shows the moment of its
whole seconds (`Moment.seconds_ofClock`), and a moment is determined by its seconds
(`Moment.eq_of_seconds_eq`).
-/

namespace Spreadsheet.Moment

/-- Whether the calendar and the clock have this moment. -/
structure IsValid (m : Moment) : Prop where
  date : m.date.IsValid
  hour : m.hour ≤ 23
  minute : m.minute ≤ 59
  second : m.second ≤ 59

/-- The minutes since midnight. -/
def minuteOfDay (m : Moment) : Int :=
  m.hour * 60 + m.minute

/-- Whether a clock that is `offset` minutes ahead of universal time shows `m` at the moment `u`. It
may show the next or the previous day. -/
def Shows (u : Moment) (offset : Int) (m : Moment) : Prop :=
  m.second = u.second ∧
    (m.date = u.date ∧ m.minuteOfDay = u.minuteOfDay + offset ∨
      m.date = u.date.next ∧ m.minuteOfDay + 1440 = u.minuteOfDay + offset ∨
      m.date.next = u.date ∧ m.minuteOfDay - 1440 = u.minuteOfDay + offset)

variable {m : Moment}

theorem minuteOfDay_addMinutes (m : Moment) (minutes : Int) :
    (m.addMinutes minutes).date.number * 1440 + (m.addMinutes minutes).minuteOfDay =
      m.date.number * 1440 + m.minuteOfDay + minutes := by
  have hnumber := (Date.number_ofNumber
    ((m.date.number * 1440 + m.hour * 60 + m.minute + minutes) / 1440)).2
  unfold addMinutes minuteOfDay
  dsimp only
  omega

theorem isValid_addMinutes (h : m.IsValid) (minutes : Int) : (m.addMinutes minutes).IsValid := by
  have hsecond := h.second
  refine ⟨(Date.number_ofNumber _).1, ?_, ?_, hsecond⟩
  · unfold addMinutes
    dsimp only
    omega
  · unfold addMinutes
    dsimp only
    omega

/-- **Taking an offset back gives the moment of universal time** at which the clock shows what it
shows. -/
theorem shows_addMinutes (h : m.IsValid) {offset : Int} (hoffset : offset.natAbs < 1440) :
    (m.addMinutes (-offset)).Shows offset m := by
  have hvalid := isValid_addMinutes h (-offset)
  have hsum := minuteOfDay_addMinutes m (-offset)
  have hday : 0 ≤ m.minuteOfDay ∧ m.minuteOfDay < 1440 := by
    have := h.hour
    have := h.minute
    unfold minuteOfDay
    omega
  have hday' : 0 ≤ (m.addMinutes (-offset)).minuteOfDay ∧
      (m.addMinutes (-offset)).minuteOfDay < 1440 := by
    have := hvalid.hour
    have := hvalid.minute
    unfold minuteOfDay
    omega
  refine ⟨rfl, ?_⟩
  generalize m.addMinutes (-offset) = u at *
  have hnext := Date.number_next h.date
  have hnext' := Date.number_next hvalid.date
  obtain hsame | hahead | hbehind : m.date.number = u.date.number ∨
      m.date.number = u.date.next.number ∨ m.date.next.number = u.date.number := by omega
  · exact .inl ⟨Date.eq_of_number_eq h.date hvalid.date hsame, by omega⟩
  · exact .inr (.inl
      ⟨Date.eq_of_number_eq h.date (Date.isValid_next hvalid.date) hahead, by omega⟩)
  · exact .inr (.inr
      ⟨Date.eq_of_number_eq (Date.isValid_next h.date) hvalid.date hbehind, by omega⟩)

/-- Without an offset a moment stays as it is. -/
theorem addMinutes_zero (h : m.IsValid) : m.addMinutes 0 = m := by
  obtain ⟨date, hour, minute, second⟩ := m
  obtain ⟨hdate, hhour, hminute, -⟩ := h
  dsimp only at hdate hhour hminute
  have hnumber : (date.number * 1440 + (hour : Int) * 60 + minute + 0) / 1440 = date.number := by
    omega
  unfold addMinutes
  dsimp only
  rw [hnumber, Date.ofNumber_number hdate]
  congr 1 <;> omega

/-- The seconds since the beginning of 1970. -/
def seconds (m : Moment) : Int :=
  m.date.number * 86400 + m.hour * 3600 + m.minute * 60 + m.second

/-- **The moment that a clock shows** is one of the calendar, as many seconds after the beginning of
1970 as the clock counts. -/
theorem seconds_ofClock (clock : Int) :
    (ofClock clock).IsValid ∧ (ofClock clock).seconds = clock / 1000 := by
  obtain ⟨hvalid, hnumber⟩ := Date.number_ofNumber (clock / 1000 / 86400)
  unfold ofClock seconds
  dsimp only
  exact ⟨⟨hvalid, by dsimp only; omega, by dsimp only; omega, by dsimp only; omega⟩, by omega⟩

/-- A moment is determined by its seconds. -/
theorem eq_of_seconds_eq {m n : Moment} (hm : m.IsValid) (hn : n.IsValid)
    (h : m.seconds = n.seconds) : m = n := by
  obtain ⟨date, hour, minute, second⟩ := m
  obtain ⟨date', hour', minute', second'⟩ := n
  obtain ⟨hdate, hhour, hminute, hsecond⟩ := hm
  obtain ⟨hdate', hhour', hminute', hsecond'⟩ := hn
  unfold seconds at h
  dsimp only at *
  obtain rfl := Date.eq_of_number_eq hdate hdate' (by omega)
  congr 1 <;> omega

end Spreadsheet.Moment
