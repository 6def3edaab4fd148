import Spreadsheet.Function.Catalogue
import Spreadsheet.Proofs.Calendar.Internet

/-!
# Dates tell their own parts

The functions `YEAR`, `MONTH`, `DAY`, `HOUR`, `MINUTE` and `SECOND` tell from a date what was
written in it, in whichever notation that was (`dates_tell`), and from what `NOW` and `TODAY` write
the parts of the clock.
-/

namespace Spreadsheet.Function

/-- Whether the functions of dates tell the parts of a moment from a value. -/
structure Tells (v : Value) (m : Moment) : Prop where
  year : ∀ s, (find? "YEAR").map (·.result s [v]) = some (.number (Number.ofInt m.date.year))
  month : ∀ s, (find? "MONTH").map (·.result s [v]) = some (.number (Number.ofInt m.date.month))
  day : ∀ s, (find? "DAY").map (·.result s [v]) = some (.number (Number.ofInt m.date.day))
  hour : ∀ s, (find? "HOUR").map (·.result s [v]) = some (.number (Number.ofInt m.hour))
  minute : ∀ s, (find? "MINUTE").map (·.result s [v]) = some (.number (Number.ofInt m.minute))
  second : ∀ s, (find? "SECOND").map (·.result s [v]) = some (.number (Number.ofInt m.second))

theorem datePart_text {text : String} {m : Moment} (h : Moment.ofText? text = some m)
    (part : Moment → Int) : datePart part [.text text] = .number (Number.ofInt (part m)) := by
  change Value.number (((Moment.ofText? text).map _).getD 0) = _
  rw [h]
  rfl

/-- A text that is read as a moment tells its parts. -/
theorem tells_text {text : String} {m : Moment} (h : Moment.ofText? text = some m) :
    Tells (.text text) m := by
  have hpart := datePart_text h
  constructor
  · exact fun _ => congrArg some (hpart (·.date.year))
  · exact fun _ => congrArg some (hpart (·.date.month))
  · exact fun _ => congrArg some (hpart (·.date.day))
  · exact fun _ => congrArg some (hpart (·.hour))
  · exact fun _ => congrArg some (hpart (·.minute))
  · exact fun _ => congrArg some (hpart (·.second))

/-- What `NOW` writes tells the moment that the clock shows. -/
theorem tells_clockText {clock : Int} (h : (Moment.ofClock clock).HasPlainYear) :
    Tells (.text (String.ofList (clockText clock))) (.ofClock clock) := by
  have hvalid := (Moment.seconds_ofClock clock).1
  have hread := InternetText.ofText?_chars (t := ⟨.ofClock clock, 'T',
    Text.paddedDigits 3 (clock % 1000).toNat, .universal 'Z'⟩)
    ⟨hvalid, h, .inl rfl, fun _ => Text.isDigit_of_mem_paddedDigits, .inl rfl⟩
  rw [← clockText_eq, Zone.offset, neg_zero, Moment.addMinutes_zero hvalid] at hread
  exact tells_text hread

/-- What `TODAY` writes tells its date. -/
theorem tells_date {m : Moment} (hm : m.IsValid) (hyear : m.HasPlainYear) :
    Tells (.text (String.ofList m.date.toText)) ⟨m.date, 0, 0, 0⟩ := by
  rw [Date.toText_eq]
  exact tells_text (Moment.ofText?_writePieces hm hyear (by decide : yearFirst '-' ∈ patterns))

/-- **Dates tell their own parts.** What is written in a pattern of dates tells the parts that are
written, the others being zero. A text in the internet notation tells the moment of universal time
at which the clock of its zone shows what the text shows. What `NOW` and `TODAY` write tells the
moment that the clock shows, and its date. -/
theorem dates_tell :
    (∀ pieces ∈ patterns, ∀ m : Moment, m.IsValid → m.HasPlainYear →
      Tells (.text (String.ofList (writePieces m pieces))) (m.told pieces)) ∧
    (∀ t : InternetText, t.IsValid → ∃ u : Moment, u.IsValid ∧ u.Shows t.zone.offset t.shown ∧
      Tells (.text (String.ofList t.chars)) u) ∧
    ∀ (s : Surroundings) (args : List Value), ∃ m : Moment, m.IsValid ∧
      m.seconds = s.clock / 1000 ∧ (m.HasPlainYear → ∃ now today,
        (find? "NOW").map (·.result s args) = some now ∧ Tells now m ∧
        (find? "TODAY").map (·.result s args) = some today ∧ Tells today ⟨m.date, 0, 0, 0⟩) := by
  refine ⟨fun pieces hpieces m hm hyear => ?_, fun t ht => ?_, fun s args => ?_⟩
  · exact tells_text (Moment.ofText?_writePieces hm hyear hpieces)
  · exact ⟨_, Moment.isValid_addMinutes ht.shown _,
      Moment.shows_addMinutes ht.shown (Zone.natAbs_offset_lt ht.zone),
      tells_text (t.ofText?_chars ht)⟩
  · obtain ⟨hvalid, hseconds⟩ := Moment.seconds_ofClock s.clock
    exact ⟨_, hvalid, hseconds, fun hyear =>
      ⟨_, _, rfl, tells_clockText hyear, rfl, tells_date hvalid hyear⟩⟩

/-- On a leap day with the month written first, in a zone where the year has not begun yet, and a
thousandth of a second before the beginning of 1970. -/
theorem dates_tell_edges :
    Tells (.text "02/29/2024 23:59:58") ⟨⟨2024, 2, 29⟩, 23, 59, 58⟩ ∧
      (∃ u : Moment, u.IsValid ∧ u.Shows (-150) ⟨⟨1999, 12, 31⟩, 22, 30, 0⟩ ∧
        Tells (.text "1999-12-31t22:30:00.125-02:30") u) ∧
      ∃ now today, (find? "NOW").map (·.result ⟨-1, 0⟩ []) = some now ∧
        Tells now ⟨⟨1969, 12, 31⟩, 23, 59, 59⟩ ∧
        (find? "TODAY").map (·.result ⟨-1, 0⟩ []) = some today ∧
        Tells today ⟨⟨1969, 12, 31⟩, 0, 0, 0⟩ := by
  have hleap : Moment.IsValid ⟨⟨2024, 2, 29⟩, 23, 59, 58⟩ :=
    ⟨by decide, by decide, by decide, by decide⟩
  have hlast : Moment.IsValid ⟨⟨1969, 12, 31⟩, 23, 59, 59⟩ :=
    ⟨by decide, by decide, by decide, by decide⟩
  refine ⟨?_, ?_, ?_⟩
  · have htext : String.ofList (writePieces ⟨⟨2024, 2, 29⟩, 23, 59, 58⟩
        (monthFirst ++ .gap :: toSecond)) = "02/29/2024 23:59:58" := by decide +kernel
    have htold : Moment.told ⟨⟨2024, 2, 29⟩, 23, 59, 58⟩ (monthFirst ++ .gap :: toSecond) =
        ⟨⟨2024, 2, 29⟩, 23, 59, 58⟩ := by decide
    have htell := dates_tell.1 (monthFirst ++ .gap :: toSecond) (by decide) _ hleap
      ⟨by decide, by decide⟩
    rw [htext, htold] at htell
    exact htell
  · have htext : String.ofList (InternetText.chars ⟨⟨⟨1999, 12, 31⟩, 22, 30, 0⟩, 't',
        ['1', '2', '5'], .behind 2 30⟩) = "1999-12-31t22:30:00.125-02:30" := by decide +kernel
    obtain ⟨u, hu, hshows, htell⟩ := dates_tell.2.1
      ⟨⟨⟨1999, 12, 31⟩, 22, 30, 0⟩, 't', ['1', '2', '5'], .behind 2 30⟩
      ⟨⟨by decide, by decide, by decide, by decide⟩, ⟨by decide, by decide⟩, .inr (.inl rfl),
        List.all_eq_true.1 (by decide : ['1', '2', '5'].all Text.isDigit = true),
        ⟨by decide, by decide⟩⟩
    rw [htext] at htell
    exact ⟨u, hu, hshows, htell⟩
  · obtain ⟨m, hm, hseconds, htell⟩ := dates_tell.2.2 ⟨-1, 0⟩ []
    obtain rfl := Moment.eq_of_seconds_eq hm hlast hseconds
    exact htell ⟨by decide, by decide⟩

end Spreadsheet.Function
