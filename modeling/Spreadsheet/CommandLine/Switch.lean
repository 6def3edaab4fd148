import Spreadsheet.Text.Digits

/-!
# Switches

How the arguments of a command line are spelled, and the switches among them. A switch has a long
name (`--max-depth`) and perhaps a short one (`-d`). One that takes a value has it behind `=`,
behind the short name or in the next argument; short names may share one dash.
-/

namespace Spreadsheet.CommandLine

/-- What a switch takes. -/
inductive Takes where
  | nothing
  /-- Nothing, but it may be repeated. -/
  | repeats
  | number
  | character
  /-- The path of a file. -/
  | path
  | text
  deriving Repr, DecidableEq

namespace Takes

/-- Numbers are below this. -/
def numberLimit : Nat := Nat.pow 2 64

/-- Whether a value is wanted. -/
def wantsValue : Takes → Bool
  | .nothing | .repeats => false
  | _ => true

/-- Whether a value will do. -/
def accepts (value : String) : Takes → Bool
  | .number => (Text.naturalBelow? numberLimit value.toList).isSome
  | .character => value.toList.length == 1
  | .path => value != ""
  | _ => true

end Takes

/-- A switch. -/
structure Switch where
  long : String
  short : Option Char := none
  takes : Takes := .nothing
  deriving Repr, DecidableEq

namespace Switch

/-! ## Switches of every command -/

def precedence : Switch := { long := "precedence" }
def maxDepth : Switch := { long := "max-depth", takes := .number }
def maxRecursion : Switch := { long := "max-recursion", takes := .number }
def delimiter : Switch := { long := "delimiter", short := 'd', takes := .character }
def verbose : Switch := { long := "verbose", short := 'v', takes := .repeats }
def help : Switch := { long := "help", short := 'h' }

/-- The switches that may stand before the command and after it. -/
def everywhere : List Switch :=
  [precedence, maxDepth, maxRecursion, delimiter, verbose, help]

/-! ## Switches of one place -/

def version : Switch := { long := "version", short := 'V' }
def csv : Switch := { long := "csv", takes := .path }
def address : Switch := { long := "at", takes := .text }
def byCategory : Switch := { long := "by-category" }
def output : Switch := { long := "output", short := 'o', takes := .path }
def formulas : Switch := { long := "formulas" }

end Switch

/-- An argument by its spelling. -/
inductive Argument where
  /-- Two dashes: all that follows is plain. -/
  | separator
  /-- A long name, perhaps with a value. -/
  | long (name : String) (value : Option String)
  /-- One or more short names, of which the last may have a value. -/
  | short (names : List Char)
  | plain (text : String)
  deriving Repr, DecidableEq

/-- The value behind an equals sign. -/
def afterEquals? : List Char → Option String
  | '=' :: value => some (String.ofList value)
  | _ => none

/-- What an argument is by its spelling. A single dash is plain. -/
def Argument.ofText (arg : String) : Argument :=
  match arg.toList with
  | ['-', '-'] => .separator
  | '-' :: '-' :: cs =>
    let (name, value) := cs.span (· != '=')
    .long (String.ofList name) (afterEquals? value)
  | '-' :: c :: cs => .short (c :: cs)
  | _ => .plain arg

end Spreadsheet.CommandLine
