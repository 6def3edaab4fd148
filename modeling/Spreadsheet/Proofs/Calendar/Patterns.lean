import Spreadsheet.Calendar.Reading
import Spreadsheet.Proofs.Calendar.Moments
import Spreadsheet.Proofs.Calendar.Small
import Spreadsheet.Proofs.Grid.Address
import Spreadsheet.Proofs.Text.Digits

/-!
# Dates written in a pattern

A moment is written in a pattern with two digits for each part and four for a year
(`writePieces`). The pattern reads it back (`readPieces?_writePieces`), and no pattern before it
reads it at all: whether a pattern reads a text does not depend on which digits stand in it
(`isSome_readPieces?_blurred`), so it is enough to look at the text that has zeros for digits. What
is written in a pattern is therefore read to the parts it tells (`Moment.ofText?_writePieces`).
-/

namespace Spreadsheet

open Text

/-! ## Writing -/

/-- A part of a notation as it is written: numbers with leading zeros, a gap as one blank, and a
fraction of a second as nothing, for there is none. -/
def Piece.write (m : Moment) : Piece → List Char
  | .year => yearText m.date.year
  | .month => paddedDigits 2 m.date.month
  | .day => paddedDigits 2 m.date.day
  | .hour => paddedDigits 2 m.hour
  | .minute => paddedDigits 2 m.minute
  | .second => paddedDigits 2 m.second
  | .fraction => []
  | .gap => [' ']
  | .mark c => [c]

/-- A moment written in a pattern. -/
def writePieces (m : Moment) (pieces : List Piece) : List Char :=
  pieces.flatMap (·.write m)

/-- What a pattern tells of a moment: the parts that are not written are zero. -/
def Moment.told (m : Moment) (pieces : List Piece) : Moment :=
  { date := m.date
    hour := if .hour ∈ pieces then m.hour else 0
    minute := if .minute ∈ pieces then m.minute else 0
    second := if .second ∈ pieces then m.second else 0 }

/-- Whether the years of a moment are written with four digits. -/
def Moment.HasPlainYear (m : Moment) : Prop :=
  0 ≤ m.date.year ∧ m.date.year ≤ 9999

/-- A year of up to four digits is written with four digits and no sign. -/
theorem yearText_plain {year : Int} (h : 0 ≤ year ∧ year ≤ 9999) :
    yearText year = paddedDigits 4 year.toNat := by
  rw [yearText, if_neg (by omega), if_pos h.2]
  congr 1
  omega

/-! ## Taking numbers -/

section
variable {ds rest : List Char} {width n : Nat}

/-- Digits of the right number are taken as a number. -/
theorem takeNumber?_append (hlength : ds.length = width) (hwidth : width ≠ 0)
    (hdigits : ∀ c ∈ ds, isDigit c = true) :
    takeNumber? width (ds ++ rest) = some (ofDigits ds, rest) := by
  have htake : (ds ++ rest).take width = ds := by rw [← hlength, List.take_left]
  have hne : ds.isEmpty = false := by
    rw [List.isEmpty_eq_false_iff, ← List.length_pos_iff]
    omega
  rw [takeNumber?, htake, List.takeWhile_eq_self_iff.2 hdigits, hne, List.drop_left]
  rfl

/-- A padded number is taken back. -/
theorem takeNumber?_paddedDigits (hwidth : width ≠ 0) (h : n < 10 ^ width) (rest : List Char) :
    takeNumber? width (paddedDigits width n ++ rest) = some (n, rest) := by
  rw [takeNumber?_append (length_paddedDigits hwidth h) hwidth
    fun _ => isDigit_of_mem_paddedDigits, ofDigits_paddedDigits]

/-- A padded number begins with a digit. -/
theorem paddedDigits_eq_cons (hwidth : width ≠ 0) (h : n < 10 ^ width) :
    ∃ c cs, paddedDigits width n = c :: cs ∧ isDigit c = true := by
  have hlength := length_paddedDigits hwidth h
  have hpos : 0 < (paddedDigits width n).length := by omega
  obtain ⟨c, cs, hcons⟩ := List.exists_cons_of_length_pos hpos
  exact ⟨c, cs, hcons, isDigit_of_mem_paddedDigits (hcons ▸ List.mem_cons_self)⟩

/-- A digit is no blank to be skipped. -/
theorem dropWhile_isBlank_digit {c : Char} {cs : List Char} (h : isDigit c = true) :
    (c :: cs).dropWhile isBlank = c :: cs :=
  List.dropWhile_cons_of_neg (by rw [not_isBlank_of_isDigit h]; exact Bool.false_ne_true)

/-- No blanks are skipped in front of a padded number. -/
theorem dropWhile_isBlank_paddedDigits (hwidth : width ≠ 0) (h : n < 10 ^ width) :
    (paddedDigits width n ++ rest).dropWhile isBlank = paddedDigits width n ++ rest := by
  obtain ⟨c, cs, hcons, hc⟩ := paddedDigits_eq_cons hwidth h
  rw [hcons, List.cons_append, dropWhile_isBlank_digit hc]

/-- A year in four digits is taken back. -/
theorem takeYear?_paddedDigits (h : n < 10 ^ 4) :
    takeYear? (paddedDigits 4 n ++ rest) = some ((n : Int), rest) := by
  obtain ⟨c, cs, hcons, hc⟩ := paddedDigits_eq_cons (by decide) h
  have hnumber := takeNumber?_paddedDigits (by decide) h rest
  rw [hcons, List.cons_append] at hnumber ⊢
  unfold takeYear?
  split
  · next heq => cases heq; cases hc
  · next heq => cases heq; cases hc
  · rw [hnumber]
    rfl

end

/-! ## Reading what was written -/

/-- What has been read of a moment after some parts of a pattern. -/
def Parsed.filled (m : Moment) (pieces : List Piece) (p : Parsed) : Parsed :=
  { year := if .year ∈ pieces then m.date.year else p.year
    month := if .month ∈ pieces then m.date.month else p.month
    day := if .day ∈ pieces then m.date.day else p.day
    hour := if .hour ∈ pieces then m.hour else p.hour
    minute := if .minute ∈ pieces then m.minute else p.minute
    second := if .second ∈ pieces then m.second else p.second }

/-- Parts that are filled in one after the other are filled in together. -/
theorem Parsed.filled_filled (m : Moment) (piece : Piece) (pieces : List Piece) (p : Parsed) :
    (p.filled m [piece]).filled m pieces = p.filled m (piece :: pieces) := by
  simp only [filled, List.mem_cons, List.not_mem_nil, or_false]
  congr 1
  all_goals split <;> simp_all

/-- Whether a pattern is sure to read what is written in it: a gap stands in front of an hour, and a
fraction at the end. -/
def isLegible : List Piece → Bool
  | [] => true
  | piece :: pieces =>
    (piece != .gap || pieces.head? == some .hour) && (piece != .fraction || pieces.isEmpty) &&
      isLegible pieces

section
variable {m : Moment} {p : Parsed} {rest : List Char}

/-- Two digits are read to their number, wherever blanks may be skipped. -/
theorem read?_number {n : Nat} (h : n < 100) :
    takeNumber? 2 ((paddedDigits 2 n ++ rest).dropWhile isBlank) = some (n, rest) := by
  rw [dropWhile_isBlank_paddedDigits (by decide) h, takeNumber?_paddedDigits (by decide) h]

/-- A part reads what is written of it. -/
theorem Piece.read?_write (hm : m.IsValid) (hyear : m.HasPlainYear) {piece : Piece}
    (hgap : piece = .gap → rest.dropWhile isBlank = rest)
    (hfraction : piece = .fraction → rest = []) :
    piece.read? p (piece.write m ++ rest) = some (p.filled m [piece], rest) := by
  obtain ⟨⟨-, hmonth, -, hday⟩, hhour, hminute, hsecond⟩ := hm
  have hdays := Date.daysInMonth_le m.date.year m.date.month
  cases piece with
  | year =>
    have hlt : m.date.year.toNat < 10 ^ 4 := by
      have := hyear.2
      omega
    rw [write, read?, yearText_plain hyear, dropWhile_isBlank_paddedDigits (by decide) hlt,
      takeYear?_paddedDigits hlt, Int.toNat_of_nonneg hyear.1]
    rfl
  | month => rw [write, read?, read?_number (by omega)]; rfl
  | day => rw [write, read?, read?_number (by omega)]; rfl
  | hour => rw [write, read?, read?_number (by omega)]; rfl
  | minute => rw [write, read?, read?_number (by omega)]; rfl
  | second => rw [write, read?, read?_number (by omega)]; rfl
  | fraction =>
    rw [hfraction rfl]
    rfl
  | gap =>
    have hblank : isBlank ' ' = true := rfl
    rw [write, read?, List.singleton_append, List.dropWhile_cons_of_pos hblank, hgap rfl]
    rfl
  | mark c =>
    rw [write, read?, List.singleton_append, takeMark?, if_pos rfl]
    rfl

/-- **A pattern reads what is written in it.** -/
theorem readPieces?_writePieces (hm : m.IsValid) (hyear : m.HasPlainYear) {pieces : List Piece}
    (h : isLegible pieces = true) (p : Parsed) :
    readPieces? pieces p (writePieces m pieces) = some (p.filled m pieces) := by
  induction pieces generalizing p with
  | nil => rfl
  | cons piece pieces ih =>
    simp only [isLegible, Bool.and_eq_true, Bool.or_eq_true, bne_iff_ne, beq_iff_eq,
      List.isEmpty_iff] at h
    obtain ⟨⟨hgap, hfraction⟩, hlegible⟩ := h
    have hread : piece.read? p (piece.write m ++ writePieces m pieces) =
        some (p.filled m [piece], writePieces m pieces) := by
      refine Piece.read?_write hm hyear ?_ ?_
      · intro heq
        obtain ⟨rest, rfl⟩ := List.head?_eq_some_iff.1 (hgap.resolve_left (not_not_intro heq))
        exact dropWhile_isBlank_paddedDigits (by decide) (Nat.lt_of_le_of_lt hm.hour (by decide))
      · intro heq
        rw [hfraction.resolve_left (not_not_intro heq)]
        rfl
    rw [writePieces, List.flatMap_cons, ← writePieces, readPieces?, hread]
    exact (ih hlegible _).trans (congrArg some (Parsed.filled_filled m piece pieces p))

end

/-! ## Texts that differ in their digits only -/

/-- A character with zero for every digit. -/
def blurredChar (c : Char) : Char :=
  if isDigit c then '0' else c

/-- A text with zeros for all its digits. -/
def blurred (cs : List Char) : List Char :=
  cs.map blurredChar

/-- Blurring keeps digits apart from other characters. -/
@[simp] theorem isDigit_blurredChar (c : Char) : isDigit (blurredChar c) = isDigit c := by
  unfold blurredChar
  split
  · next h => rw [h]; rfl
  · rfl

/-- Blurring keeps blanks apart from other characters. -/
@[simp] theorem isBlank_blurredChar (c : Char) : isBlank (blurredChar c) = isBlank c := by
  unfold blurredChar
  split
  · next h => rw [not_isBlank_of_isDigit h]; rfl
  · rfl

/-- Blurring makes no character one that is not a digit. -/
theorem blurredChar_eq_iff {c d : Char} (hd : isDigit d = false) : blurredChar c = d ↔ c = d := by
  unfold blurredChar
  split
  · next h =>
    constructor
    · rintro rfl
      cases hd
    · rintro rfl
      rw [h] at hd
      cases hd
  · rfl

/-- Blurring does not change what is dropped by a test that does not look at digits. -/
theorem dropWhile_blurred {p : Char → Bool} (hp : ∀ c, p (blurredChar c) = p c) (cs : List Char) :
    (blurred cs).dropWhile p = blurred (cs.dropWhile p) := by
  have hcomp : p ∘ blurredChar = p := funext hp
  rw [blurred, List.dropWhile_map, hcomp, blurred]

/-- What is left behind a number does not depend on its digits. -/
theorem takeNumber?_blurred (width : Nat) (cs : List Char) :
    (takeNumber? width (blurred cs)).map (·.2) =
      (takeNumber? width cs).map (fun r => blurred r.2) := by
  have hcomp : isDigit ∘ blurredChar = isDigit := funext isDigit_blurredChar
  have hds : ((blurred cs).take width).takeWhile isDigit =
      blurred ((cs.take width).takeWhile isDigit) := by
    rw [blurred, ← List.map_take, List.takeWhile_map, hcomp, blurred]
  unfold takeNumber?
  dsimp only
  rw [hds]
  cases (cs.take width).takeWhile isDigit with
  | nil => rfl
  | cons d ds => simp [blurred, List.map_drop]

/-- A year without a sign is a number of four digits. -/
theorem takeYear?_of_not_sign {c : Char} {cs : List Char} (hminus : c ≠ '-') (hplus : c ≠ '+') :
    takeYear? (c :: cs) = (takeNumber? 4 (c :: cs)).map fun (n, rest) => ((n : Int), rest) := by
  unfold takeYear?
  split
  · next heq => cases heq; exact absurd rfl hminus
  · next heq => cases heq; exact absurd rfl hplus
  · rfl

/-- What is left behind a year does not depend on its digits. -/
theorem takeYear?_blurred (cs : List Char) :
    (takeYear? (blurred cs)).map (·.2) = (takeYear? cs).map (fun r => blurred r.2) := by
  have hsigned : ∀ cs, (takeLongNumber? (blurred cs)).map (·.2) =
      (takeLongNumber? cs).map (fun r => blurred r.2) := by
    intro cs
    rw [takeLongNumber?, blurred, List.length_map, ← blurred, takeNumber?_blurred, takeLongNumber?]
  cases cs with
  | nil => rfl
  | cons c cs =>
    by_cases hminus : c = '-'
    · subst hminus
      change ((takeLongNumber? (blurred cs)).map _).map _ = ((takeLongNumber? cs).map _).map _
      rw [Option.map_map, Option.map_map]
      exact hsigned cs
    · by_cases hplus : c = '+'
      · subst hplus
        change ((takeLongNumber? (blurred cs)).map _).map _ = ((takeLongNumber? cs).map _).map _
        rw [Option.map_map, Option.map_map]
        exact hsigned cs
      · rw [takeYear?_of_not_sign hminus hplus, blurred, List.map_cons,
          takeYear?_of_not_sign (mt (blurredChar_eq_iff rfl).1 hminus)
            (mt (blurredChar_eq_iff rfl).1 hplus), ← List.map_cons, ← blurred, Option.map_map,
          Option.map_map]
        exact takeNumber?_blurred 4 (c :: cs)

/-- Where there is no point there is no fraction to be skipped. -/
theorem skipFraction?_of_not_point {c : Char} {cs : List Char} (h : c ≠ '.') :
    skipFraction? (c :: cs) = some (c :: cs) := by
  unfold skipFraction?
  split
  · next heq => cases heq; exact absurd rfl h
  · rfl

/-- What is left behind a fraction does not depend on its digits. -/
theorem skipFraction?_blurred (cs : List Char) :
    skipFraction? (blurred cs) = (skipFraction? cs).map blurred := by
  cases cs with
  | nil => rfl
  | cons c cs =>
    by_cases hpoint : c = '.'
    · subst hpoint
      have h := takeNumber?_blurred cs.length cs
      change (takeNumber? (blurred cs).length (blurred cs)).map _ =
        ((takeNumber? cs.length cs).map _).map _
      rw [blurred, List.length_map, ← blurred, Option.map_map]
      exact h
    · rw [skipFraction?_of_not_point hpoint, blurred, List.map_cons,
        skipFraction?_of_not_point (mt (blurredChar_eq_iff rfl).1 hpoint)]
      rfl

/-- Whether a part is anything but a digit for a mark. -/
def Piece.isPlain : Piece → Bool
  | .mark c => !isDigit c
  | _ => true

/-- What is left behind a piece does not depend on the digits in it. -/
theorem Piece.read?_blurred {piece : Piece} (h : piece.isPlain = true) (p q : Parsed)
    (cs : List Char) :
    (piece.read? p (blurred cs)).map (·.2) = (piece.read? q cs).map fun r => blurred r.2 := by
  have hdrop := dropWhile_blurred isBlank_blurredChar cs
  have hnumber := takeNumber?_blurred 2 (cs.dropWhile isBlank)
  cases piece with
  | year =>
    simp only [read?, hdrop, Option.map_map]
    exact takeYear?_blurred _
  | month | day | hour | minute | second =>
    simp only [read?, hdrop, Option.map_map]
    exact hnumber
  | fraction =>
    simp only [read?, skipFraction?_blurred, Option.map_map]
    rfl
  | gap => simp only [read?, hdrop, Option.map_some]
  | mark c =>
    have hc : isDigit c = false := (Bool.not_eq_true' _).mp h
    cases cs with
    | nil => rfl
    | cons d cs =>
      simp only [read?, takeMark?, blurred, List.map_cons, blurredChar_eq_iff hc]
      split <;> rfl

/-- **Whether a pattern reads a text does not depend on which digits stand in it.** -/
theorem isSome_readPieces?_blurred {pieces : List Piece}
    (h : ∀ piece ∈ pieces, piece.isPlain = true) (p q : Parsed) (cs : List Char) :
    (readPieces? pieces p (blurred cs)).isSome = (readPieces? pieces q cs).isSome := by
  induction pieces generalizing p q cs with
  | nil => cases cs <;> rfl
  | cons piece pieces ih =>
    have hread := Piece.read?_blurred (h piece List.mem_cons_self) p q cs
    rw [readPieces?, readPieces?]
    cases hcs : piece.read? q cs with
    | none =>
      rw [hcs, Option.map_none, Option.map_eq_none_iff] at hread
      rw [hread]
    | some r =>
      rw [hcs, Option.map_some, Option.map_eq_some_iff] at hread
      obtain ⟨r', hr', hrest⟩ := hread
      rw [hr']
      change (readPieces? pieces r'.1 r'.2).isSome = (readPieces? pieces r.1 r.2).isSome
      rw [hrest]
      exact ih (fun piece hpiece => h piece (List.mem_cons_of_mem _ hpiece)) _ _ _

/-! ## The patterns -/

/-- What is written in a pattern, with zeros for all digits. -/
def outline (pieces : List Piece) : List Char :=
  pieces.flatMap fun
    | .year => ['0', '0', '0', '0']
    | .month | .day | .hour | .minute | .second => ['0', '0']
    | .fraction => []
    | .gap => [' ']
    | .mark c => [c]

/-- A padded number is blurred to as many zeros. -/
theorem blurred_paddedDigits {width n : Nat} (hwidth : width ≠ 0) (h : n < 10 ^ width) :
    blurred (paddedDigits width n) = List.replicate width '0' := by
  rw [List.eq_replicate_iff, blurred, List.length_map]
  refine ⟨length_paddedDigits hwidth h, fun c hc => ?_⟩
  obtain ⟨d, hd, rfl⟩ := List.mem_map.1 hc
  exact if_pos (isDigit_of_mem_paddedDigits hd)

/-- What is written in a pattern is blurred to the outline of the pattern. -/
theorem blurred_writePieces {m : Moment} (hm : m.IsValid) (hyear : m.HasPlainYear)
    {pieces : List Piece} (h : ∀ piece ∈ pieces, piece.isPlain = true) :
    blurred (writePieces m pieces) = outline pieces := by
  obtain ⟨⟨-, hmonth, -, hday⟩, hhour, hminute, hsecond⟩ := hm
  have hdays := Date.daysInMonth_le m.date.year m.date.month
  rw [blurred, writePieces, List.map_flatMap, outline]
  refine List.flatMap_congr fun piece hpiece => ?_
  cases piece with
  | year =>
    rw [Piece.write, yearText_plain hyear]
    exact blurred_paddedDigits (by decide) (by have := hyear.2; omega)
  | month => exact blurred_paddedDigits (by decide) (by omega)
  | day => exact blurred_paddedDigits (by decide) (by omega)
  | hour => exact blurred_paddedDigits (by decide) (by omega)
  | minute => exact blurred_paddedDigits (by decide) (by omega)
  | second => exact blurred_paddedDigits (by decide) (by omega)
  | fraction => rfl
  | gap => rfl
  | mark c =>
    have hc : isDigit c = false := (Bool.not_eq_true' _).mp (h _ hpiece)
    exact congrArg ([·]) (if_neg (by rw [hc]; exact Bool.false_ne_true))

/-- Every pattern can be read as it is written, has all parts of a date and has no digit for a
mark. -/
theorem patterns_legible : ∀ pieces ∈ patterns, isLegible pieces = true ∧
    (.year ∈ pieces ∧ .month ∈ pieces ∧ .day ∈ pieces) ∧
    ∀ piece ∈ pieces, piece.isPlain = true := by
  decide

/-- What is written in a pattern is too short for the internet notation and has no blanks around
it. -/
theorem patterns_outline : ∀ pieces ∈ patterns, (outline pieces).length < 20 ∧
    (outline pieces).head?.any isBlank = false ∧
    (outline pieces).getLast?.any isBlank = false := by
  decide +kernel

/-- What is written in a pattern is read by no pattern before it. -/
theorem patterns_distinct :
    patterns.Pairwise fun earlier later => readPieces? earlier {} (outline later) = none := by
  decide +kernel

/-! ## Texts that are too short for the internet notation -/

section
variable {width n : Nat} {c : Char} {cs rest : List Char}

/-- Taking digits shortens a text by their number. -/
theorem length_of_takeExactly? (h : takeExactly? width cs = some (n, rest)) :
    cs.length = width + rest.length := by
  unfold takeExactly? at h
  dsimp only at h
  split at h
  · next htake =>
    cases h
    have hlength := htake.1
    rw [List.length_take] at hlength
    rw [List.length_drop]
    omega
  · cases h

/-- Taking a mark shortens a text by one character. -/
theorem length_of_takeMark? (h : takeMark? c cs = some rest) : cs.length = rest.length + 1 := by
  cases cs with
  | nil => cases h
  | cons d cs =>
    rw [takeMark?] at h
    split at h
    · cases h
      rfl
    · cases h

/-- Taking a divider shortens a text by one character. -/
theorem length_of_takeDivider? (h : takeDivider? cs = some rest) :
    cs.length = rest.length + 1 := by
  cases cs with
  | nil => cases h
  | cons d cs =>
    rw [takeDivider?] at h
    split at h
    · cases h
      rfl
    · cases h

/-- Skipping a fraction makes no text longer. -/
theorem length_of_skipFraction? (h : skipFraction? cs = some rest) : rest.length ≤ cs.length := by
  cases cs with
  | nil =>
    cases h
    rfl
  | cons d cs =>
    by_cases hpoint : d = '.'
    · subst hpoint
      obtain ⟨⟨n, rest⟩, hnumber, rfl⟩ := Option.map_eq_some_iff.1 h
      unfold takeLongNumber? takeNumber? at hnumber
      dsimp only at hnumber
      split at hnumber
      · cases hnumber
      · cases hnumber
        rw [List.length_drop, List.length_cons]
        omega
    · rw [skipFraction?_of_not_point hpoint] at h
      cases h
      rfl

/-- A text in the internet notation has at least twenty characters. -/
theorem length_of_readInternet? {m : Moment} (h : readInternet? cs = some m) : 20 ≤ cs.length := by
  unfold readInternet? at h
  obtain ⟨⟨_, cs₁⟩, hyear, h⟩ := Option.bind_eq_some_iff.1 h
  obtain ⟨cs₂, hmark, h⟩ := Option.bind_eq_some_iff.1 h
  obtain ⟨⟨_, cs₃⟩, hmonth, h⟩ := Option.bind_eq_some_iff.1 h
  obtain ⟨cs₄, hmark', h⟩ := Option.bind_eq_some_iff.1 h
  obtain ⟨⟨_, cs₅⟩, hday, h⟩ := Option.bind_eq_some_iff.1 h
  obtain ⟨cs₆, hdivider, h⟩ := Option.bind_eq_some_iff.1 h
  obtain ⟨⟨_, cs₇⟩, hhour, h⟩ := Option.bind_eq_some_iff.1 h
  obtain ⟨cs₈, hcolon, h⟩ := Option.bind_eq_some_iff.1 h
  obtain ⟨⟨_, cs₉⟩, hminute, h⟩ := Option.bind_eq_some_iff.1 h
  obtain ⟨cs₁₀, hcolon', h⟩ := Option.bind_eq_some_iff.1 h
  obtain ⟨⟨_, cs₁₁⟩, hsecond, h⟩ := Option.bind_eq_some_iff.1 h
  obtain ⟨cs₁₂, hfraction, h⟩ := Option.bind_eq_some_iff.1 h
  obtain ⟨offset, hoffset, -⟩ := Option.bind_eq_some_iff.1 h
  have hyear := length_of_takeExactly? hyear
  have hmark := length_of_takeMark? hmark
  have hmonth := length_of_takeExactly? hmonth
  have hmark' := length_of_takeMark? hmark'
  have hday := length_of_takeExactly? hday
  have hdivider := length_of_takeDivider? hdivider
  have hhour := length_of_takeExactly? hhour
  have hcolon := length_of_takeMark? hcolon
  have hminute := length_of_takeExactly? hminute
  have hcolon' := length_of_takeMark? hcolon'
  have hsecond := length_of_takeExactly? hsecond
  have hfraction : cs₁₂.length ≤ cs₁₁.length := length_of_skipFraction? hfraction
  have hzone : cs₁₂ ≠ [] := by
    rintro rfl
    cases hoffset
  have hzone := List.length_pos_iff.2 hzone
  omega

end

/-! ## Patterns read back -/

/-- All parts of a moment. -/
def Moment.parsed (m : Moment) : Parsed :=
  ⟨m.date.year, m.date.month, m.date.day, m.hour, m.minute, m.second⟩

/-- All parts of a valid moment in a plain year make up the moment. -/
theorem Moment.moment?_parsed {m : Moment} (hm : m.IsValid) (hyear : m.HasPlainYear) :
    m.parsed.moment? = some m := by
  obtain ⟨hdate, hhour, hminute, hsecond⟩ := hm
  obtain ⟨hlow, hhigh⟩ := hyear
  have hreadable : isReadableYear m.date.year = true := by
    rw [isReadableYear, Bool.and_eq_true, decide_eq_true_eq, decide_eq_true_eq]
    omega
  have hcheck : (isReadableYear m.date.year && decide m.date.IsValid && decide (m.hour ≤ 23) &&
      decide (m.minute ≤ 59) && decide (m.second ≤ 60)) = true := by
    rw [hreadable, decide_eq_true hdate, decide_eq_true hhour, decide_eq_true hminute,
      decide_eq_true (Nat.le_succ_of_le hsecond)]
    rfl
  unfold parsed Parsed.moment?
  dsimp only
  rw [if_pos hcheck, Nat.min_eq_left hsecond]

/-- What a pattern tells of a valid moment is valid. -/
theorem Moment.isValid_told {m : Moment} (hm : m.IsValid) (pieces : List Piece) :
    (m.told pieces).IsValid := by
  have hrange : ∀ (piece : Piece) (n bound : Nat), n ≤ bound →
      (if piece ∈ pieces then n else 0) ≤ bound := by
    intro piece n bound hn
    split
    · exact hn
    · exact Nat.zero_le bound
  exact ⟨hm.date, hrange _ _ _ hm.hour, hrange _ _ _ hm.minute, hrange _ _ _ hm.second⟩

section
variable {m : Moment} {pieces : List Piece}

/-- What is written in a pattern has no blanks around it. -/
theorem trimChars_writePieces (hm : m.IsValid) (hyear : m.HasPlainYear) (h : pieces ∈ patterns) :
    trimChars (writePieces m pieces) = writePieces m pieces := by
  obtain ⟨-, hfirst, hlast⟩ := patterns_outline pieces h
  have houtline := blurred_writePieces hm hyear (patterns_legible pieces h).2.2
  rw [← houtline, blurred, List.head?_map, Option.any_map] at hfirst
  rw [← houtline, blurred, List.getLast?_map, Option.any_map] at hlast
  refine trimChars_of_ends (fun c hc => ?_) fun c hc => ?_
  · rwa [hc, Option.any_some, isBlank_blurredChar] at hfirst
  · rwa [hc, Option.any_some, isBlank_blurredChar] at hlast

/-- It is too short for the internet notation. -/
theorem readInternet?_writePieces (hm : m.IsValid) (hyear : m.HasPlainYear)
    (h : pieces ∈ patterns) : readInternet? (writePieces m pieces) = none := by
  refine Option.eq_none_iff_forall_ne_some.2 fun u hu => ?_
  have hle := length_of_readInternet? hu
  have hlength := (patterns_outline pieces h).1
  rw [← blurred_writePieces hm hyear (patterns_legible pieces h).2.2, blurred,
    List.length_map] at hlength
  omega

/-- No pattern before it reads it. -/
theorem readPieces?_of_earlier (hm : m.IsValid) (hyear : m.HasPlainYear)
    {before after : List (List Piece)} (hsplit : patterns = before ++ pieces :: after) :
    ∀ earlier ∈ before, readPieces? earlier {} (writePieces m pieces) = none := by
  intro earlier hearlier
  have h : pieces ∈ patterns := hsplit ▸ List.mem_append_right _ List.mem_cons_self
  have hdistinct := patterns_distinct
  rw [hsplit, List.pairwise_append] at hdistinct
  have hnone := hdistinct.2.2 earlier hearlier pieces List.mem_cons_self
  rw [← blurred_writePieces hm hyear (patterns_legible pieces h).2.2] at hnone
  have hsome := isSome_readPieces?_blurred
    (patterns_legible earlier (hsplit ▸ List.mem_append_left _ hearlier)).2.2 {} {}
    (writePieces m pieces)
  rw [hnone] at hsome
  exact Option.isNone_iff_eq_none.1 (Option.isSome_eq_false_iff.1 hsome.symm)

/-- It reads it itself. -/
theorem moment?_writePieces (hm : m.IsValid) (hyear : m.HasPlainYear) (h : pieces ∈ patterns) :
    (readPieces? pieces {} (writePieces m pieces)).bind Parsed.moment? =
      some (m.told pieces) := by
  obtain ⟨hlegible, hdate, -⟩ := patterns_legible pieces h
  have hparsed : Parsed.filled m pieces {} = (m.told pieces).parsed := by
    unfold Parsed.filled
    rw [if_pos hdate.1, if_pos hdate.2.1, if_pos hdate.2.2]
    rfl
  rw [readPieces?_writePieces hm hyear hlegible, hparsed]
  exact Moment.moment?_parsed (Moment.isValid_told hm pieces) hyear

/-- **What is written in a pattern is read to the parts it tells**, and by no pattern before it. -/
theorem Moment.ofText?_writePieces (hm : m.IsValid) (hyear : m.HasPlainYear)
    (h : pieces ∈ patterns) :
    Moment.ofText? (String.ofList (writePieces m pieces)) = some (m.told pieces) := by
  obtain ⟨before, after, hsplit⟩ := List.append_of_mem h
  have hread : readPattern? (writePieces m pieces) = some (m.told pieces) := by
    have hnone : before.findSome? (fun earlier =>
        (readPieces? earlier {} (writePieces m pieces)).bind Parsed.moment?) = none := by
      refine List.findSome?_eq_none_iff.2 fun earlier hmem => ?_
      rw [readPieces?_of_earlier hm hyear hsplit earlier hmem]
      rfl
    rw [readPattern?, hsplit, List.findSome?_append, List.findSome?_cons,
      moment?_writePieces hm hyear h, hnone]
    rfl
  unfold ofText?
  dsimp only
  rw [String.toList_ofList, trimChars_writePieces hm hyear h, readInternet?_writePieces hm hyear h,
    hread]
  rfl

end

end Spreadsheet
