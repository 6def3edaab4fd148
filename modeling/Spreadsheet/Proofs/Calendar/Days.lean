import Mathlib
import Spreadsheet.Calendar.Date

/-!
# Days of the calendar

The number of a day is one more than that of the day before it (`Date.number_next`), where the next
day is told by the calendar: the next one of the month, the first of the next month or the first of
the next year. Days of the calendar and integers correspond (`Date.ofNumber_number`,
`Date.number_ofNumber`).

Both are seen on dates in years that begin in March (`Date.ofMarch`), where the leap day is the last
day of a year and the months before it have 31 and 30 days in turn, but for two months of 31 days
after the fifth and after the tenth month.
-/

namespace Spreadsheet.Date

/-- The leap years. -/
theorem isLeap_iff {year : Int} :
    isLeap year = true ↔ year % 4 = 0 ∧ (year % 100 ≠ 0 ∨ year % 400 = 0) := by
  simp only [isLeap, Bool.and_eq_true, Bool.or_eq_true, beq_iff_eq, bne_iff_ne]

theorem daysInMonth_pos (year : Int) (month : Nat) : 1 ≤ daysInMonth year month := by
  unfold daysInMonth
  repeat' split
  all_goals decide

/-! ## Years that begin in March -/

/-- The date in a year that begins in March, the months of which are counted from 0. -/
def ofMarch (year : Int) (month day : Nat) : Date :=
  if month < 10 then ⟨year, month + 3, day⟩ else ⟨year + 1, month - 9, day⟩

/-- The days of a year that begins in March that lie before a month of it. -/
def daysBefore (month : Nat) : Nat :=
  (153 * month + 2) / 5

/-- The days before a month of a year that begins in March. -/
theorem natCast_daysBefore (month : Nat) : (daysBefore month : Int) = (153 * month + 2) / 5 := rfl

/-- Whether a year that begins in March has this month and this day of it. -/
structure InMarchYear (year : Int) (month day : Nat) : Prop where
  month_lt : month < 12
  day_pos : 1 ≤ day
  day_le : daysBefore month + day ≤ daysBefore (month + 1)
  february : month = 11 → day ≤ if isLeap (year + 1) then 29 else 28

/-- The number of a day in a year that begins in March. -/
theorem number_ofMarch (year : Int) {month day : Nat} (h : month < 12) :
    (ofMarch year month day).number = year / 400 * 146097 +
      (year % 400 * 365 + year % 400 / 4 - year % 400 / 100 + (daysBefore month + day - 1 : Nat)) -
        719468 := by
  unfold ofMarch number daysBefore
  split
  · dsimp only
    rw [if_neg (by omega), if_neg (by omega), Nat.add_sub_cancel]
  · dsimp only
    rw [if_pos (by omega), if_pos (by omega), Int.add_sub_cancel, Nat.sub_add_cancel (by omega)]

/-- A day of a year that begins in March is valid if this year has such a day. -/
theorem isValid_ofMarch_iff (year : Int) {month day : Nat} (h : month < 12) :
    (ofMarch year month day).IsValid ↔ InMarchYear year month day := by
  have hmonths : (ofMarch year month day).IsValid ↔
      1 ≤ day ∧ day ≤ if month = 11 then (if isLeap (year + 1) then 29 else 28)
        else daysBefore (month + 1) - daysBefore month := by
    unfold ofMarch
    split
    · interval_cases month <;> simp [IsValid, daysInMonth, daysBefore]
    · interval_cases month <;> simp [IsValid, daysInMonth, daysBefore]
  have hlast : daysBefore 11 + 29 ≤ daysBefore 12 := by decide
  have hmono : daysBefore month ≤ daysBefore (month + 1) := by
    unfold daysBefore
    omega
  rw [hmonths]
  constructor
  · rintro ⟨hday, hday'⟩
    by_cases hmonth : month = 11
    · refine ⟨h, hday, ?_, fun _ => by rwa [if_pos hmonth] at hday'⟩
      rw [if_pos hmonth] at hday'
      have hle : (if isLeap (year + 1) then 29 else 28) ≤ 29 := by split <;> decide
      subst hmonth
      exact Nat.le_trans (Nat.add_le_add_left (hday'.trans hle) _) hlast
    · rw [if_neg hmonth] at hday'
      exact ⟨h, hday, by omega, fun heq => absurd heq hmonth⟩
  · rintro ⟨-, hday, hle, hfebruary⟩
    refine ⟨hday, ?_⟩
    split
    · next hmonth => exact hfebruary hmonth
    · omega

/-- Every date of the calendar lies in a year that begins in March. -/
theorem exists_ofMarch {d : Date} (h : d.IsValid) :
    ∃ year month day, InMarchYear year month day ∧ ofMarch year month day = d := by
  obtain ⟨year, month, day⟩ := d
  obtain ⟨hmonth, hmonth', -⟩ := id h
  dsimp only at hmonth hmonth'
  obtain ⟨year', month', hlt, hdate⟩ : ∃ (year' : Int) (month' : Nat), month' < 12 ∧
      ofMarch year' month' day = ⟨year, month, day⟩ := by
    by_cases hspring : month ≤ 2
    · refine ⟨year - 1, month + 9, by omega, ?_⟩
      rw [ofMarch, if_neg (by omega), Int.sub_add_cancel, Nat.add_sub_cancel]
    · refine ⟨year, month - 3, by omega, ?_⟩
      rw [ofMarch, if_pos (by omega), Nat.sub_add_cancel (by omega)]
  exact ⟨year', month', day, (isValid_ofMarch_iff year' hlt).1 (hdate ▸ h), hdate⟩

/-! ## Days of a cycle of years -/

/-- Quarters and centuries of a year in a cycle of 400 years. -/
theorem quarters_centuries {c q r : Int} (hq : 0 ≤ q ∧ q < 25) (hr : 0 ≤ r ∧ r < 4) :
    (100 * c + 4 * q + r) / 4 = 25 * c + q ∧ (100 * c + 4 * q + r) / 100 = c := by
  omega

/-- The year in a cycle of 400 years that begin in March, from a day in the cycle. -/
theorem yearOfCycle_eq {year day days : Int} (hyear : 0 ≤ year ∧ year < 400)
    (hday : 0 ≤ day ∧ day ≤ 364 ∨ day = 365 ∧ isLeap (year + 1) = true)
    (hdays : days = year * 365 + year / 4 - year / 100 + day) :
    (days - days / 1460 + days / 36524 - days / 146096) / 365 = year := by
  rw [isLeap_iff] at hday
  obtain ⟨c, q, r, hc, hq, hr, rfl⟩ : ∃ c q r : Int, (0 ≤ c ∧ c < 4) ∧ (0 ≤ q ∧ q < 25) ∧
      (0 ≤ r ∧ r < 4) ∧ year = 100 * c + 4 * q + r :=
    ⟨year / 100, year % 100 / 4, year % 4, by omega, by omega, by omega, by omega⟩
  obtain ⟨hquarters, hcenturies⟩ := quarters_centuries (c := c) hq hr
  rw [hquarters, hcenturies] at hdays
  -- a leap day comes last of four years, and last of a century only if it is last of the cycle
  have hlast : day = 365 → r = 3 ∧ (q = 24 → c = 3) := by omega
  have hcentury : days / 36524 - days / 146096 = c := by
    obtain ⟨rfl, rfl⟩ | ⟨hlow, hhigh⟩ :
        days = 146096 ∧ c = 3 ∨ 36524 * c ≤ days ∧ days < 36524 * (c + 1) := by omega
    · decide
    · omega
  have hquarter : days / 1460 = 25 * c + q + (24 * c + q + 365 * r + day) / 1460 := by omega
  have hcarry : (24 * c + q + 365 * r + day) / 1460 = 0 ∧ day ≤ 364 ∨
      (24 * c + q + 365 * r + day) / 1460 = 1 ∧ 1 ≤ day := by omega
  have hsum : days - days / 1460 + days / 36524 - days / 146096 =
      365 * (100 * c + 4 * q + r) + (day - (24 * c + q + 365 * r + day) / 1460) := by
    omega
  rw [hsum]
  rcases hcarry with ⟨hcarry, hday⟩ | ⟨hcarry, hday⟩ <;> rw [hcarry] <;> omega

/-- Every day of a cycle is a day of one of its years. -/
theorem exists_yearOfCycle {days : Int} (hlow : 0 ≤ days) (hhigh : days < 146097) :
    ∃ year day : Int, (0 ≤ year ∧ year < 400) ∧
      (0 ≤ day ∧ day ≤ 364 ∨ day = 365 ∧ isLeap (year + 1) = true) ∧
      days = year * 365 + year / 4 - year / 100 + day := by
  obtain ⟨c, e, hc, he, hlast, rfl⟩ : ∃ c e : Int, (0 ≤ c ∧ c < 4) ∧ (0 ≤ e ∧ e ≤ 36524) ∧
      (e = 36524 → c = 3) ∧ days = 36524 * c + e := by
    by_cases hlast : days = 146096
    · exact ⟨3, 36524, by decide, by decide, fun _ => rfl, hlast⟩
    · exact ⟨days / 36524, days % 36524, by omega, by omega, by omega, by omega⟩
  obtain ⟨q, f, hq, hf, rfl⟩ : ∃ q f : Int, (0 ≤ q ∧ q < 25) ∧ (0 ≤ f ∧ f ≤ 1460) ∧
      e = 1461 * q + f :=
    ⟨e / 1461, e % 1461, by omega, by omega, by omega⟩
  obtain ⟨r, day, hr, hday, hleap, rfl⟩ : ∃ r day : Int, (0 ≤ r ∧ r < 4) ∧ (0 ≤ day ∧ day ≤ 365) ∧
      (day = 365 → r = 3) ∧ f = 365 * r + day := by
    by_cases hleap : f = 1460
    · exact ⟨3, 365, by decide, by decide, fun _ => rfl, hleap⟩
    · exact ⟨f / 365, f % 365, by omega, by omega, by omega, by omega⟩
  obtain ⟨hquarters, hcenturies⟩ := quarters_centuries (c := c) hq hr
  refine ⟨100 * c + 4 * q + r, day, by omega, ?_, ?_⟩
  · rw [isLeap_iff]
    omega
  · rw [hquarters, hcenturies]
    omega

/-! ## Numbers of days -/

/-- The date of a day in a year of a cycle. -/
theorem ofNumber_eq {cycle year day : Int} (hyear : 0 ≤ year ∧ year < 400)
    (hday : 0 ≤ day ∧ day ≤ 364 ∨ day = 365 ∧ isLeap (year + 1) = true) :
    ofNumber (cycle * 146097 + (year * 365 + year / 4 - year / 100 + day) - 719468) =
      ofMarch (year + cycle * 400) ((5 * day + 2) / 153).toNat
        (day - (153 * ((5 * day + 2) / 153) + 2) / 5 + 1).toNat := by
  generalize hdays : year * 365 + year / 4 - year / 100 + day = days
  have hrange : 0 ≤ days ∧ days < 146097 := by
    rw [isLeap_iff] at hday
    omega
  have hcycle : (cycle * 146097 + days - 719468 + 719468) / 146097 = cycle := by omega
  have hrest : (cycle * 146097 + days - 719468 + 719468) % 146097 = days := by omega
  have hdayOfYear : days - (365 * year + year / 4 - year / 100) = day := by omega
  unfold ofNumber ofMarch
  dsimp only
  rw [hcycle, hrest, yearOfCycle_eq hyear hday hdays.symm, hdayOfYear]
  split
  · rw [if_pos (by omega)]
    congr 1
    omega
  · rw [if_neg (by omega)]
    congr 1
    omega

/-- Leap years repeat every four centuries. -/
theorem isLeap_mod (year : Int) : isLeap (year % 400 + 1) = isLeap (year + 1) := by
  rw [Bool.eq_iff_iff, isLeap_iff, isLeap_iff]
  omega

/-- The days of a year that begins in March are counted up to its leap day. -/
theorem InMarchYear.dayOfYear {year : Int} {month day : Nat} (h : InMarchYear year month day) :
    daysBefore month + day - 1 ≤ 364 ∨
      daysBefore month + day - 1 = 365 ∧ isLeap (year + 1) = true := by
  obtain ⟨hmonth, hday, hle, hfebruary⟩ := h
  unfold daysBefore at *
  by_cases hlast : month = 11
  · have hday' := hfebruary hlast
    subst hlast
    split at hday'
    · next hleap =>
      rw [hleap, eq_self, and_true]
      omega
    · exact .inl (by omega)
  · exact .inl (by omega)

/-- **A date is the date of its number.** -/
theorem ofNumber_number {d : Date} (h : d.IsValid) : ofNumber d.number = d := by
  obtain ⟨year, month, day, hday, rfl⟩ := exists_ofMarch h
  have hdayOfYear := hday.dayOfYear
  obtain ⟨hmonth, hpos, hle, -⟩ := hday
  unfold daysBefore at hle
  rw [number_ofMarch year hmonth]
  generalize hn : daysBefore month + day - 1 = n at *
  unfold daysBefore at hn
  have hmonthOfYear : (5 * (n : Int) + 2) / 153 = month := by omega
  have hdayOfYear' : 0 ≤ (n : Int) ∧ (n : Int) ≤ 364 ∨
      (n : Int) = 365 ∧ isLeap (year % 400 + 1) = true := by
    rw [isLeap_mod]
    exact hdayOfYear.imp (by omega) (.imp_left (by omega))
  rw [ofNumber_eq (by omega) hdayOfYear', hmonthOfYear]
  congr 1 <;> omega

/-- Different days have different numbers. -/
theorem eq_of_number_eq {d e : Date} (hd : d.IsValid) (he : e.IsValid)
    (h : d.number = e.number) : d = e := by
  rw [← ofNumber_number hd, h, ofNumber_number he]

/-- **A number is the number of its date**, which the calendar has. -/
theorem number_ofNumber (n : Int) : (ofNumber n).IsValid ∧ (ofNumber n).number = n := by
  obtain ⟨year, day, hyear, hday, hdays⟩ :=
    exists_yearOfCycle (by omega : 0 ≤ (n + 719468) % 146097) (by omega)
  obtain ⟨cycle, rfl⟩ : ∃ cycle,
      n = cycle * 146097 + (year * 365 + year / 4 - year / 100 + day) - 719468 :=
    ⟨(n + 719468) / 146097, by omega⟩
  clear hdays
  have hmod : (year + cycle * 400) % 400 = year := by omega
  have hdiv : (year + cycle * 400) / 400 = cycle := by omega
  have hleap : isLeap (year + cycle * 400 + 1) = isLeap (year + 1) := by rw [← isLeap_mod, hmod]
  obtain ⟨month, hmonth⟩ : ∃ month : Nat, (5 * day + 2) / 153 = month :=
    ⟨((5 * day + 2) / 153).toNat, by omega⟩
  obtain ⟨dayOfMonth, hpos, hdayOfMonth⟩ : ∃ dayOfMonth : Nat, 1 ≤ dayOfMonth ∧
      day - (153 * (month : Int) + 2) / 5 + 1 = dayOfMonth :=
    ⟨(day - (153 * (month : Int) + 2) / 5 + 1).toNat, by omega, by omega⟩
  rw [ofNumber_eq hyear hday, hmonth, hdayOfMonth, Int.toNat_natCast, Int.toNat_natCast]
  have hbefore := natCast_daysBefore month
  have hbefore' := natCast_daysBefore (month + 1)
  push_cast at hbefore'
  have hin : InMarchYear (year + cycle * 400) month dayOfMonth := by
    refine ⟨by omega, hpos, by omega, fun hlast => ?_⟩
    rw [hleap]
    split
    · omega
    · next hcommon =>
      have hday' : day ≤ 364 := hday.elim And.right fun h => absurd h.2 hcommon
      omega
  refine ⟨(isValid_ofMarch_iff _ hin.month_lt).2 hin, ?_⟩
  rw [number_ofMarch _ hin.month_lt, hmod, hdiv]
  omega

/-! ## The next day -/

/-- The day after a day. -/
def next (d : Date) : Date :=
  if d.day < daysInMonth d.year d.month then { d with day := d.day + 1 }
  else if d.month < 12 then ⟨d.year, d.month + 1, 1⟩
  else ⟨d.year + 1, 1, 1⟩

/-- The day after a valid one is valid. -/
theorem isValid_next {d : Date} (h : d.IsValid) : d.next.IsValid := by
  obtain ⟨hmonth, hmonth', hday, hday'⟩ := h
  unfold next
  split
  · next hlt => exact ⟨hmonth, hmonth', Nat.le_add_left 1 d.day, hlt⟩
  · split
    · next hlt => exact ⟨Nat.le_add_left 1 d.month, hlt, le_refl 1, daysInMonth_pos _ _⟩
    · exact ⟨le_refl 1, Nat.le_add_left 1 11, le_refl 1, daysInMonth_pos _ _⟩

/-- **The number of the next day is the next number.** -/
theorem number_next {d : Date} (h : d.IsValid) : d.next.number = d.number + 1 := by
  obtain ⟨year, month, day⟩ := d
  obtain ⟨hmonth, hmonth', hday, hday'⟩ := h
  have hleap := @isLeap_iff year
  dsimp only at hmonth hmonth' hday hday'
  unfold next
  dsimp only
  by_cases hinside : day < daysInMonth year month
  · rw [if_pos hinside]
    unfold number
    dsimp only
    omega
  · have hlast : day = daysInMonth year month := by omega
    rw [if_neg hinside]
    by_cases hfebruary : month = 2
    · -- a year that begins in March ends with the last day of February
      subst hfebruary
      have hlast' : day = if isLeap year then 29 else 28 := hlast
      simp only [number, Nat.reduceLT, Nat.reduceAdd, le_refl, Nat.reduceLeDiff, if_true, if_false]
      split at hlast'
      · next hyear =>
        have hyear' := hleap.1 hyear
        omega
      · next hyear =>
        have hyear' := mt hleap.2 hyear
        omega
    · rw [daysInMonth, if_neg hfebruary] at hlast
      interval_cases month <;> simp [number] at hlast ⊢ <;> omega

end Spreadsheet.Date
