/-!
# Searching text

Where one text occurs in another, and what the text is when every occurrence is replaced.
-/

namespace Spreadsheet.Text

/-- Whether a text occurs in another. -/
def occursIn (needle : List Char) : List Char → Bool
  | [] => needle.isEmpty
  | c :: cs => needle.isPrefixOf (c :: cs) || occursIn needle cs

/-- Replaces occurrences from left to right, after passing over the next `skip` characters. An
occurrence begins after the end of the one before. -/
def replaceFrom (old new : List Char) : (skip : Nat) → List Char → List Char
  | _, [] => []
  | skip + 1, _ :: cs => replaceFrom old new skip cs
  | 0, c :: cs =>
    if old.isPrefixOf (c :: cs) then new ++ replaceFrom old new (old.length - 1) cs
    else c :: replaceFrom old new 0 cs

/-- The text with every occurrence of `old` replaced. If `old` is empty, `new` is put between the
characters. -/
def replaceAll (old new cs : List Char) : List Char :=
  if old.isEmpty then new.intercalate (cs.map ([·])) else replaceFrom old new 0 cs

/-- The text without the characters at its end that satisfy a test. -/
def dropEndWhile (p : Char → Bool) (cs : List Char) : List Char :=
  (cs.reverse.dropWhile p).reverse

end Spreadsheet.Text
