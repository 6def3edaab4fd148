import Spreadsheet.Text.Blank

/-!
# Tokens

The words a formula is made of. Quoted text runs to the next quote of its kind, without escapes, or
to the end; operator characters stand alone or in one of seven pairs; blanks separate; all else runs
together to words. No character but the blanks outside quotes is lost.
-/

namespace Spreadsheet

/-- What a token is. -/
inductive TokenKind where
  /-- An operator or a mark of punctuation. -/
  | operator
  /-- Quoted text, with its quotes. -/
  | text
  /-- A name, a number, an address or any other word. -/
  | word
  deriving Repr, DecidableEq

/-- A token: its kind and its characters as written. -/
structure Token where
  kind : TokenKind
  text : String
  deriving Repr, DecidableEq

namespace Token

/-- The characters that are operators or begin one. -/
def operatorChars : List Char :=
  "+-*/^%(),:<>=!&|".toList

/-- The operators of two characters. -/
def operatorPairs : List (Char × Char) :=
  [('>', '='), ('<', '='), ('<', '>'), ('=', '='), ('!', '='), ('&', '&'), ('|', '|')]

/-- Whether a character opens quoted text. -/
def isQuote (c : Char) : Bool :=
  c == '"' || c == '\''

/-- Whether a character is an operator or begins one. -/
def isOperatorChar (c : Char) : Bool :=
  operatorChars.contains c

/-- Whether a token is the operator of this name. -/
def isOperator (t : Token) (name : String) : Bool :=
  t.kind == .operator && t.text == name

/-- The characters without the first, and without the last if it equals the first. -/
def unquoteChars : List Char → List Char
  | [] => []
  | q :: inner => if inner.getLast? = some q then inner.dropLast else inner

/-- What is quoted: the token without its first character and without the last if that is the
same. -/
def unquoted (t : Token) : String :=
  String.ofList (unquoteChars t.text.toList)

/-- What has been read of the token under way, the last character first. -/
inductive Under where
  /-- A word, or nothing. -/
  | word (read : List Char)
  /-- Quoted text, its opening quote included. -/
  | quoted (quote : Char) (read : List Char)
  deriving Repr, DecidableEq

/-- The token of some characters, the last given first. -/
def ofRead (kind : TokenKind) (read : List Char) : Token :=
  ⟨kind, String.ofList read.reverse⟩

/-- The token under way as it is at the end of the text. -/
def Under.finish : Under → List Token
  | .word [] => []
  | .word read => [ofRead .word read]
  | .quoted _ read => [ofRead .text read]

/-- The tokens of the rest of a text. -/
def scan : Under → List Char → List Token
  | under, [] => under.finish
  | .quoted q read, c :: rest =>
    if c = q then ofRead .text (c :: read) :: scan (.word []) rest
    else scan (.quoted q (c :: read)) rest
  | .word read, c :: rest =>
    if isQuote c then (Under.word read).finish ++ scan (.quoted c [c]) rest
    else if isOperatorChar c then
      (Under.word read).finish ++
        match rest with
        | d :: rest' =>
          if operatorPairs.contains (c, d) then ofRead .operator [d, c] :: scan (.word []) rest'
          else ofRead .operator [c] :: scan (.word []) (d :: rest')
        | [] => [ofRead .operator [c]]
    else if Text.isBlank c then (Under.word read).finish ++ scan (.word []) rest
    else scan (.word (c :: read)) rest

/-- The tokens of a text. -/
def tokenize (s : String) : List Token :=
  scan (.word []) s.toList

end Token

end Spreadsheet
