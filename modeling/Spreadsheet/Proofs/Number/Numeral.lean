import Spreadsheet.Proofs.Number.Finite

/-!
# Signs of numerals

A numeral is digits with an optional point and an optional exponent, perhaps after a sign
(`Numeral.Spelled`). What follows the sign is a numeral by itself, and the sign is the sign of the
number (`exists_magnitude`).
-/

namespace Spreadsheet.Number

open Float.Model Text

/-! ## Signs of numbers -/

/-- Only finite numbers have finite negations. -/
theorem isFinite_of_neg {x : Float} (h : isFinite (-x) = true) : isFinite x = true := by
  have hbits : (-x).toBits = UInt64.ofBitVec (UnpackedFloat.pack Format.binary64
      (UnpackedFloat.unpack Format.binary64 x.toBits.toBitVec).neg) := rfl
  rw [neg_unpack, UnpackedFloat.pack_unpack] at hbits
  rw [isFinite_iff, hbits] at h
  rw [isFinite_iff]
  split at h
  · exact absurd (by decide) h
  · have hsign := toNat_signChanged x.toBits.toBitVec
    change (signChanged x.toBits.toBitVec).toNat / 0x10000000000000 % 0x800 ≠ 2047 at h
    rw [hsign] at h
    have hx : x.toBits.toBitVec.toNat = x.toBits.toNat := rfl
    omega

theorem isFinite_of_signed {x : Float} {negative : Bool} (h : isFinite (signed negative x) = true) :
    isFinite x = true := by
  cases negative with
  | true => exact isFinite_of_neg h
  | false => exact h

/-! ## Parts of a numeral -/

/-- Whether characters are a numeral without a sign: digits, perhaps a point and more digits, but
some digits at all, and perhaps an exponent. -/
structure Numeral.Spelled (cs whole fraction rest : List Char) : Prop where
  chars : cs = whole ++ rest ∧ fraction = [] ∨ cs = whole ++ '.' :: (fraction ++ rest)
  digits : ∀ c ∈ whole ++ fraction, isDigit c = true
  ne_nil : whole ++ fraction ≠ []
  exponent : (exponent? rest).isSome = true

/-- What follows the sign of a numeral is a numeral. -/
theorem Numeral.spelled_of_ofChars? {cs body : List Char} {negative : Bool} {m : Numeral}
    (hsign : takeSign cs = (negative, body)) (h : Numeral.ofChars? cs = some m) :
    ∃ whole fraction rest, Spelled body whole fraction rest := by
  have hbody : body = body.takeWhile isDigit ++ body.dropWhile isDigit :=
    List.takeWhile_append_dropWhile.symm
  have hparts : ∀ fraction rest : List Char,
      (if (body.takeWhile isDigit ++ fraction).isEmpty then none
        else do
          let exponent ← exponent? rest
          some (⟨negative, ofDigits (body.takeWhile isDigit ++ fraction),
            exponent - fraction.length⟩ : Numeral)) = some m →
      body.takeWhile isDigit ++ fraction ≠ [] ∧ (exponent? rest).isSome = true := by
    intro fraction rest h
    split at h
    · cases h
    · next hne =>
      obtain ⟨exponent, hexponent, -⟩ := Option.bind_eq_some_iff.1 h
      exact ⟨mt List.isEmpty_iff.2 hne, by rw [hexponent]; rfl⟩
  unfold Numeral.ofChars? at h
  rw [hsign] at h
  dsimp only at h
  split at h
  · next cs' hpoint =>
    obtain ⟨hne, hexponent⟩ := hparts _ _ h
    refine ⟨_, _, _, .inr ?_, ?_, hne, hexponent⟩
    · rw [List.takeWhile_append_dropWhile, ← hpoint]
      exact hbody
    · exact List.forall_mem_append.2
        ⟨fun _ => List.mem_takeWhile_imp, fun _ => List.mem_takeWhile_imp⟩
  · obtain ⟨hne, hexponent⟩ := hparts _ _ h
    refine ⟨_, [], _, .inl ⟨hbody, rfl⟩, ?_, hne, hexponent⟩
    rw [List.append_nil]
    exact fun _ => List.mem_takeWhile_imp

/-- The sign of a numeral is read off, and the rest decides on its digits. -/
theorem Numeral.ofChars?_of_takeSign {cs body : List Char} {negative : Bool}
    (hcs : takeSign cs = (negative, body)) (hbody : takeSign body = (false, body)) :
    ofChars? cs = (ofChars? body).map fun m => { m with negative } := by
  unfold ofChars?
  rw [hcs, hbody]
  dsimp only
  split
  all_goals
    dsimp only
    split
    · rfl
    · cases exponent? _ <;> rfl

namespace Numeral.Spelled

variable {cs whole fraction rest : List Char}

/-- A numeral without a sign begins with a digit or a point. -/
theorem exists_cons (h : Spelled cs whole fraction rest) :
    ∃ c cs', cs = c :: cs' ∧ (isDigit c = true ∨ c = '.') := by
  cases whole with
  | cons c whole =>
    have hdigit : isDigit c = true := h.digits c (by simp)
    rcases h.chars with ⟨hchars, -⟩ | hchars
    · exact ⟨c, _, hchars, .inl hdigit⟩
    · exact ⟨c, _, hchars, .inl hdigit⟩
  | nil =>
    rcases h.chars with ⟨-, hfraction⟩ | hchars
    · exact absurd hfraction h.ne_nil
    · exact ⟨'.', _, hchars, .inr rfl⟩

theorem takeSign_eq (h : Spelled cs whole fraction rest) : takeSign cs = (false, cs) := by
  obtain ⟨c, cs', rfl, hc⟩ := h.exists_cons
  unfold takeSign
  split
  · next heq =>
    cases heq
    rcases hc with hc | hc <;> cases hc
  · next heq =>
    cases heq
    rcases hc with hc | hc <;> cases hc
  · rfl

end Numeral.Spelled

/-! ## Exponents -/

/-- An exponent is a letter and digits, or a letter, a sign and digits. -/
theorem exponent_cases {cs : List Char} (h : (exponent? cs).isSome = true) :
    (∀ c ∈ cs, isDigit c = true ∨ c = 'e' ∨ c = 'E') ∨
      ∃ letter sign ds, cs = letter :: sign :: ds ∧ (letter = 'e' ∨ letter = 'E') ∧
        (sign = '+' ∨ sign = '-') ∧ ds ≠ [] ∧ ∀ c ∈ ds, isDigit c = true := by
  cases cs with
  | nil => exact .inl nofun
  | cons letter cs =>
    rw [exponent?] at h
    split at h
    · next hletter =>
      rcases hsign : takeSign cs with ⟨negative, ds⟩
      rw [hsign] at h
      dsimp only at h
      split at h
      · cases h
      · next hdigits =>
        rw [Bool.or_eq_true, not_or, Bool.not_eq_true', Bool.not_eq_false] at hdigits
        have hne : ds ≠ [] := mt List.isEmpty_iff.2 hdigits.1
        have hall : ∀ c ∈ ds, isDigit c = true := List.all_eq_true.1 hdigits.2
        unfold takeSign at hsign
        split at hsign <;> cases hsign
        · exact .inr ⟨letter, '-', ds, rfl, hletter, .inr rfl, hne, hall⟩
        · exact .inr ⟨letter, '+', ds, rfl, hletter, .inl rfl, hne, hall⟩
        · exact .inl (List.forall_mem_cons.2 ⟨.inr hletter, fun c hc => .inl (hall c hc)⟩)
    · cases h

/-- The characters of a numeral without signs. -/
def IsNumeralChar (c : Char) : Prop :=
  isDigit c = true ∨ c = '.' ∨ c = 'e' ∨ c = 'E'

/-- Whether a numeral has a sign other than the one in front, which is the sign of its exponent. -/
def SignedExponent (cs : List Char) : Prop :=
  ∃ c ∈ (takeSign (trimChars cs)).2, c = '+' ∨ c = '-'

instance : DecidablePred SignedExponent :=
  fun cs => List.decidableBEx (fun c => c = '+' ∨ c = '-') (takeSign (trimChars cs)).2

theorem IsNumeralChar.not_sign {c : Char} (h : IsNumeralChar c) : ¬(c = '+' ∨ c = '-') := by
  rintro (rfl | rfl)
  · exact absurd h (by unfold IsNumeralChar; decide)
  · exact absurd h (by unfold IsNumeralChar; decide)

/-- A numeral without a sign in front has no sign at all, or the one of its exponent. -/
theorem Numeral.Spelled.exponent_cases {cs whole fraction rest : List Char}
    (h : Spelled cs whole fraction rest) :
    (∀ c ∈ cs, IsNumeralChar c) ∨
      ∃ mantissa letter sign ds, cs = mantissa ++ letter :: sign :: ds ∧
        (∀ c ∈ mantissa, IsNumeralChar c) ∧ (letter = 'e' ∨ letter = 'E') ∧
        (sign = '+' ∨ sign = '-') ∧ ds ≠ [] ∧ ∀ c ∈ ds, isDigit c = true := by
  obtain ⟨mantissa, hcs, hmantissa⟩ : ∃ mantissa, cs = mantissa ++ rest ∧
      ∀ c ∈ mantissa, IsNumeralChar c := by
    have hdigits : ∀ c ∈ whole ++ fraction, IsNumeralChar c := fun c hc => .inl (h.digits c hc)
    obtain ⟨hwhole, hfraction⟩ := List.forall_mem_append.1 hdigits
    rcases h.chars with ⟨hcs, -⟩ | hcs
    · exact ⟨whole, hcs, hwhole⟩
    · refine ⟨whole ++ '.' :: fraction, by rw [hcs, List.append_assoc]; rfl, ?_⟩
      exact List.forall_mem_append.2
        ⟨hwhole, List.forall_mem_cons.2 ⟨.inr (.inl rfl), hfraction⟩⟩
  rcases Number.exponent_cases h.exponent with hplain | ⟨letter, sign, ds, rfl, hsigned⟩
  · refine .inl fun c hc => ?_
    rw [hcs, List.mem_append] at hc
    rcases hc with hc | hc
    · exact hmantissa c hc
    · exact (hplain c hc).imp id .inr
  · exact .inr ⟨mantissa, letter, sign, ds, hcs, hmantissa, hsigned⟩

/-! ## Numbers -/

/-- What is read as a number is spelled as one after its sign. -/
theorem exists_spelled {cs body : List Char} {negative : Bool} {n : Float}
    (hsign : takeSign cs = (negative, body)) (h : ofNumeral? cs = some n) :
    ∃ whole fraction rest, Numeral.Spelled body whole fraction rest := by
  obtain ⟨m, hm, -⟩ := Option.map_eq_some_iff.1 (Option.filter_eq_some_iff.1 h).1
  exact Numeral.spelled_of_ofChars? hsign hm

/-- A number that is read has the sign of its numeral, and the rest of the numeral stands for its
magnitude. -/
theorem exists_magnitude {cs body : List Char} {negative : Bool} {n : Float}
    (hsign : takeSign cs = (negative, body)) (h : ofNumeral? cs = some n) :
    ∃ a, ofNumeral? body = some a ∧ n = signed negative a := by
  obtain ⟨hvalue, hfinite⟩ := Option.filter_eq_some_iff.1 h
  obtain ⟨m, hm, rfl⟩ := Option.map_eq_some_iff.1 hvalue
  obtain ⟨whole, fraction, rest, hspelled⟩ := Numeral.spelled_of_ofChars? hsign hm
  have hunsigned := hspelled.takeSign_eq
  rw [Numeral.ofChars?_of_takeSign hsign hunsigned] at hm
  obtain ⟨m', hm', rfl⟩ := Option.map_eq_some_iff.1 hm
  have hnegative : m'.negative = false := by
    have hsame := Numeral.ofChars?_of_takeSign hunsigned hunsigned
    rw [hm', Option.map_some, Option.some.injEq] at hsame
    rw [hsame]
  have hmagnitude : m'.value = ofDecimal m'.coefficient m'.exponent := by
    rw [Numeral.value, hnegative]
    rfl
  refine ⟨m'.value, ?_, by rw [hmagnitude]; rfl⟩
  rw [ofNumeral?, hm', Option.map_some, Option.filter_some, if_pos]
  rw [hmagnitude]
  exact isFinite_of_signed hfinite

end Spreadsheet.Number
