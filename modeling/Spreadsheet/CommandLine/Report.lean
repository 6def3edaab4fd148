/-!
# Reports of failure

A command that fails says what it could not do and what caused this, and what caused that in turn.
Several causes are numbered. Lines of a cause after the first are indented to stand below it.
-/

namespace Spreadsheet.CommandLine

/-- Why a command failed. -/
structure Failure where
  /-- What could not be done. -/
  problem : String
  /-- What caused it, each cause followed by its own. -/
  causes : List String := []
  deriving Repr, DecidableEq

/-- The lines of a text, each with some text in front. -/
def indented (first later : String) (text : String) : String :=
  match (text.splitOn "\n") with
  | [] => first
  | line :: lines => first ++ line ++ String.join (lines.map fun line => "\n" ++ later ++ line)

/-- A cause with its number. -/
def numbered (cause : String) (n : Nat) : String :=
  indented ("    " ++ toString n ++ ": ") "       " cause

/-- The causes, one or more lines each. -/
def causeLines : List String → List String
  | [] => []
  | [cause] => [indented "    " "    " cause]
  | causes => (causes.zipIdx).map fun (cause, n) => numbered cause n

/-- The report of a failure. -/
def Failure.report (f : Failure) : String :=
  let causes := causeLines f.causes
  "Error: " ++ f.problem ++ "\n" ++
    if causes.isEmpty then "" else "\nCaused by:\n" ++ String.join (causes.map (· ++ "\n"))

end Spreadsheet.CommandLine
