import Spreadsheet.Text.Utf8

/-!
# Texts read back from their octets

Octets that were written for a text spell that text (`decode_encode`). A character is read back
octet by octet: the first one says how many are owed and each later one brings six bits, so there is
one lemma for the first octet of each length and one for a later octet.
-/

namespace Spreadsheet.Text.Utf8

/-- A character is no surrogate and not past `U+10FFFF`. -/
theorem toNat_char (c : Char) :
    c.toNat < 0xD800 ∨ 0xDFFF < c.toNat ∧ c.toNat < 0x110000 :=
  c.valid

theorem toNat_octet {n : Nat} (h : n < 256) : n.toUInt8.toNat = n :=
  Nat.mod_eq_of_lt h

/-! ## One octet -/

/-- An octet below 128 is a character. -/
theorem first_one {n : Nat} (h : n < 0x80) : first n.toUInt8 = .done (Char.ofNat n) := by
  rw [first, toNat_octet (by omega), if_pos h]

/-- The first of two octets has their five highest bits. -/
theorem first_two {n : Nat} (hl : 2 ≤ n) (hg : n < 0x20) :
    first (0xC0 + n).toUInt8 = .more { code := n, owed := 1 } := by
  rw [first, toNat_octet (by omega), if_neg (by omega), if_neg (by omega), if_pos (by omega),
    Nat.add_sub_cancel_left]

/-- The first of three octets has their four highest bits, and sets bounds to the second. -/
theorem first_three {n : Nat} (h : n < 0x10) :
    first (0xE0 + n).toUInt8 =
      .more { code := n, owed := 2, least := if n = 0 then 0xA0 else 0x80,
              greatest := if n = 0xD then 0x9F else 0xBF } := by
  have hleast : 0xE0 + n = 0xE0 ↔ n = 0 := by omega
  have hgreatest : 0xE0 + n = 0xED ↔ n = 0xD := by omega
  rw [first, toNat_octet (by omega), if_neg (by omega), if_neg (by omega), if_neg (by omega),
    if_pos (by omega), Nat.add_sub_cancel_left]
  simp only [hleast, hgreatest]

/-- The first of four octets has their three highest bits, and sets bounds to the second. -/
theorem first_four {n : Nat} (h : n < 5) :
    first (0xF0 + n).toUInt8 =
      .more { code := n, owed := 3, least := if n = 0 then 0x90 else 0x80,
              greatest := if n = 4 then 0x8F else 0xBF } := by
  have hleast : 0xF0 + n = 0xF0 ↔ n = 0 := by omega
  have hgreatest : 0xF0 + n = 0xF4 ↔ n = 4 := by omega
  rw [first, toNat_octet (by omega), if_neg (by omega), if_neg (by omega), if_neg (by omega),
    if_neg (by omega), if_pos (by omega), Nat.add_sub_cancel_left]
  simp only [hleast, hgreatest]

/-- A later octet brings six bits, if what it brings is within the bounds. -/
theorem Unfinished.next_tail {u : Unfinished} {n : Nat} (hl : u.least ≤ 0x80 + n % 64)
    (hg : 0x80 + n % 64 ≤ u.greatest) :
    u.next (0x80 + n % 64).toUInt8 =
      if u.owed ≤ 1 then .done (Char.ofNat (u.code * 64 + n % 64))
      else .more { code := u.code * 64 + n % 64, owed := u.owed - 1 } := by
  have hin : (decide (0x80 + n % 64 < u.least) || decide (u.greatest < 0x80 + n % 64)) = false := by
    simp only [Bool.or_eq_false_iff, decide_eq_false_iff_not]
    omega
  rw [next, toNat_octet (by omega), hin, Nat.add_sub_cancel_left]
  rfl

section

variable {start seen : Nat} {read : List Char} {rest : List UInt8}

/-- The last octet that is owed ends the character. -/
theorem decodeFrom_last {u : Unfinished} {n : Nat} (howed : u.owed = 1)
    (hl : u.least ≤ 0x80 + n % 64) (hg : 0x80 + n % 64 ≤ u.greatest) :
    decodeFrom start seen (some u) read ((0x80 + n % 64).toUInt8 :: rest) =
      decodeFrom (seen + 1) (seen + 1) none (Char.ofNat (u.code * 64 + n % 64) :: read) rest := by
  rw [decodeFrom, Unfinished.next_tail hl hg, if_pos (by omega)]

/-- One octet of several that are owed. -/
theorem decodeFrom_later {u : Unfinished} {n : Nat} (howed : 1 < u.owed)
    (hl : u.least ≤ 0x80 + n % 64) (hg : 0x80 + n % 64 ≤ u.greatest) :
    decodeFrom start seen (some u) read ((0x80 + n % 64).toUInt8 :: rest) =
      decodeFrom start (seen + 1) (some { code := u.code * 64 + n % 64, owed := u.owed - 1 })
        read rest := by
  rw [decodeFrom, Unfinished.next_tail hl hg, if_neg (by omega)]

/-! ## Characters of two, three and four octets -/

/-- Two octets are read to the character they spell. -/
theorem decodeFrom_two {n : Nat} (hl : 0x80 ≤ n) (hg : n < 0x800) :
    decodeFrom seen seen none read
        ((0xC0 + n / 64).toUInt8 :: (0x80 + n % 64).toUInt8 :: rest) =
      decodeFrom (seen + 2) (seen + 2) none (Char.ofNat n :: read) rest := by
  have hcode : n / 64 * 64 + n % 64 = n := by omega
  rw [decodeFrom, first_two (by omega) (by omega)]
  dsimp only
  rw [decodeFrom_last rfl (by simp only; omega) (by simp only; omega)]
  dsimp only
  rw [hcode]

/-- Three octets are read to the character they spell. -/
theorem decodeFrom_three {n : Nat} (hl : 0x800 ≤ n) (hg : n < 0x10000)
    (hn : n < 0xD800 ∨ 0xDFFF < n) :
    decodeFrom seen seen none read ((0xE0 + n / 4096).toUInt8 ::
        (0x80 + n / 64 % 64).toUInt8 :: (0x80 + n % 64).toUInt8 :: rest) =
      decodeFrom (seen + 3) (seen + 3) none (Char.ofNat n :: read) rest := by
  have hcode : (n / 4096 * 64 + n / 64 % 64) * 64 + n % 64 = n := by omega
  rw [decodeFrom, first_three (by omega)]
  dsimp only
  -- The bounds on the second octet keep out what two octets spell, and surrogates.
  rw [decodeFrom_later (by simp only; omega) (by simp only; split <;> omega)
    (by simp only; split <;> omega), decodeFrom_last rfl (by simp only; omega)
    (by simp only; omega)]
  dsimp only
  rw [hcode]

/-- Four octets are read to the character they spell. -/
theorem decodeFrom_four {n : Nat} (hl : 0x10000 ≤ n) (hg : n < 0x110000) :
    decodeFrom seen seen none read ((0xF0 + n / 262144).toUInt8 ::
        (0x80 + n / 4096 % 64).toUInt8 :: (0x80 + n / 64 % 64).toUInt8 ::
        (0x80 + n % 64).toUInt8 :: rest) =
      decodeFrom (seen + 4) (seen + 4) none (Char.ofNat n :: read) rest := by
  have hcode : ((n / 262144 * 64 + n / 4096 % 64) * 64 + n / 64 % 64) * 64 + n % 64 = n := by omega
  rw [decodeFrom, first_four (by omega)]
  dsimp only
  rw [decodeFrom_later (by simp only; omega) (by simp only; split <;> omega)
    (by simp only; split <;> omega), decodeFrom_later (by simp only; omega)
    (by simp only; omega) (by simp only; omega), decodeFrom_last rfl (by simp only; omega)
    (by simp only; omega)]
  dsimp only
  rw [hcode]

end

/-! ## Characters and texts -/

/-- Reading on after the octets of a character is reading on after the character. -/
theorem decodeFrom_encodeChar (seen : Nat) (read : List Char) (c : Char) (rest : List UInt8) :
    decodeFrom seen seen none read (encodeChar c ++ rest) =
      decodeFrom (seen + (encodeChar c).length) (seen + (encodeChar c).length) none (c :: read)
        rest := by
  have hc := toNat_char c
  have hback : Char.ofNat c.toNat = c := Char.ofNat_toNat c
  unfold encodeChar
  generalize c.toNat = n at hc hback
  simp only [Nat.pow_eq, Nat.reducePow, Nat.div_one]
  rw [← hback]
  split
  · next h =>
    rw [List.singleton_append, decodeFrom, first_one h]
    rfl
  split
  · exact decodeFrom_two (by omega) (by omega)
  split
  · exact decodeFrom_three (by omega) (by omega) (by omega)
  · exact decodeFrom_four (by omega) (by omega)

/-- Only the octets of one character begin with those of a byte order mark: it is the mark. -/
theorem eq_of_encodeChar_append {c : Char} {after rest : List UInt8}
    (h : encodeChar c ++ after = 0xEF :: 0xBB :: 0xBF :: rest) : c = '\uFEFF' := by
  have hc := toNat_char c
  rw [← Char.ofNat_toNat c]
  refine congrArg Char.ofNat ?_
  change c.toNat = 0xFEFF
  unfold encodeChar at h
  generalize c.toNat = n at h hc
  simp only [Nat.pow_eq, Nat.reducePow, Nat.div_one] at h
  have hoctet : ∀ {m : Nat} {b : UInt8}, m < 256 → m.toUInt8 = b → m = b.toNat := by
    rintro m b hm rfl
    exact (toNat_octet hm).symm
  split at h
  · have hfirst : n = 0xEF := hoctet (by omega) (List.cons.inj h).1
    omega
  split at h
  · have hfirst : 0xC0 + n / 64 = 0xEF := hoctet (by omega) (List.cons.inj h).1
    omega
  split at h
  · obtain ⟨h₁, h⟩ := List.cons.inj h
    obtain ⟨h₂, h⟩ := List.cons.inj h
    obtain ⟨h₃, h⟩ := List.cons.inj h
    have hfirst : 0xE0 + n / 4096 = 0xEF := hoctet (by omega) h₁
    have hsecond : 0x80 + n / 64 % 64 = 0xBB := hoctet (by omega) h₂
    have hthird : 0x80 + n % 64 = 0xBF := hoctet (by omega) h₃
    omega
  · have hfirst : 0xF0 + n / 262144 = 0xEF := hoctet (by omega) (List.cons.inj h).1
    omega

/-- Reading on after the octets of some characters is reading on after the characters. -/
theorem decodeFrom_flatMap (cs : List Char) (seen : Nat) (read : List Char) :
    decodeFrom seen seen none read (cs.flatMap encodeChar) = .ok (read.reverse ++ cs) := by
  induction cs generalizing seen read with
  | nil => rw [List.flatMap_nil, decodeFrom, List.append_nil]; rfl
  | cons c cs ih =>
    rw [List.flatMap_cons, decodeFrom_encodeChar, ih, List.reverse_cons, List.append_assoc]
    rfl

/-- The octets of a text spell it. -/
theorem decode_encode (s : String) : decode (encode s) = .ok s := by
  rw [decode, encode, decodeFrom_flatMap]
  exact congrArg Except.ok String.ofList_toList

end Spreadsheet.Text.Utf8
