/-!
# UTF-8

Text as octets and back. `encode` writes each character in one to four octets; `decode` reads octets
one at a time and, where they spell no text, tells how many octets come before the fault. There are
no overlong forms, no surrogates and nothing past `U+10FFFF`.
-/

namespace Spreadsheet.Text.Utf8

/-- The octets of one character. -/
def encodeChar (c : Char) : List UInt8 :=
  let n := c.toNat
  let tail (shift : Nat) : UInt8 := (0x80 + n / Nat.pow 2 shift % 64).toUInt8
  if n < 0x80 then [n.toUInt8]
  else if n < 0x800 then [(0xC0 + n / Nat.pow 2 6).toUInt8, tail 0]
  else if n < 0x10000 then [(0xE0 + n / Nat.pow 2 12).toUInt8, tail 6, tail 0]
  else [(0xF0 + n / Nat.pow 2 18).toUInt8, tail 12, tail 6, tail 0]

/-- The octets of a text. -/
def encode (s : String) : List UInt8 :=
  s.toList.flatMap encodeChar

/-- A character under way: the number its octets spell so far, how many are still owed, and the
least and the greatest the next one may be. -/
structure Unfinished where
  code : Nat
  owed : Nat
  least : Nat := 0x80
  greatest : Nat := 0xBF
  deriving Repr, DecidableEq

/-- Where the reader stands after an octet. -/
inductive Step where
  /-- The octet ends a character. -/
  | done (c : Char)
  /-- More octets are owed. -/
  | more (u : Unfinished)
  /-- No text goes on with this octet. -/
  | refused

/-- Reads the first octet of a character. -/
def first (b : UInt8) : Step :=
  let n := b.toNat
  if n < 0x80 then .done (Char.ofNat n)
  else if n < 0xC2 then .refused
  else if n < 0xE0 then .more { code := n - 0xC0, owed := 1 }
  else if n < 0xF0 then
    .more { code := n - 0xE0, owed := 2, least := if n = 0xE0 then 0xA0 else 0x80,
            greatest := if n = 0xED then 0x9F else 0xBF }
  else if n < 0xF5 then
    .more { code := n - 0xF0, owed := 3, least := if n = 0xF0 then 0x90 else 0x80,
            greatest := if n = 0xF4 then 0x8F else 0xBF }
  else .refused

/-- Reads a later octet of a character. -/
def Unfinished.next (u : Unfinished) (b : UInt8) : Step :=
  let n := b.toNat
  if n < u.least || u.greatest < n then .refused
  else
    let code := u.code * 64 + (n - 0x80)
    if u.owed ≤ 1 then .done (Char.ofNat code) else .more { code, owed := u.owed - 1 }

/-- Reads on: `start` octets lie before the character under way and `seen` are read, with the
characters so far in `read`, the last first. -/
def decodeFrom (start seen : Nat) (under : Option Unfinished) (read : List Char) :
    List UInt8 → Except Nat (List Char)
  | [] => if under.isNone then .ok read.reverse else .error start
  | b :: rest =>
    let step := match under with
      | none => first b
      | some u => u.next b
    match step with
    | .done c => decodeFrom (seen + 1) (seen + 1) none (c :: read) rest
    | .more u => decodeFrom start (seen + 1) (some u) read rest
    | .refused => .error start

/-- The text that octets spell, or the number of octets before the first that spell none. -/
def decode (octets : List UInt8) : Except Nat String :=
  (decodeFrom 0 0 none [] octets).map String.ofList

end Spreadsheet.Text.Utf8
