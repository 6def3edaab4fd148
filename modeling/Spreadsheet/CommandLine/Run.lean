import Spreadsheet.CommandLine.Directory
import Spreadsheet.CommandLine.Invocation
import Spreadsheet.CommandLine.Report
import Spreadsheet.Csv.Sheet
import Spreadsheet.Sheet.Calculation

/-!
# Running commands

What each command prints, and what it does to files. Tables are read and written with the delimiter
of the invocation. What goes wrong is reported behind what was told of the progress.
-/

namespace Spreadsheet.CommandLine

/-- What a command leaves behind: its exit code and what it prints. -/
structure Response where
  exit : Nat := 0
  output : List UInt8 := []
  messages : String := ""
  deriving Repr

namespace Response

/-- Prints a text. -/
def ofText (text : String) : Response :=
  { output := Text.Utf8.encode text }

/-- Reports a failure. -/
def ofFailure (f : Failure) : Response :=
  { exit := 1, messages := f.report }

/-- Prints what a computation comes to, or reports why it failed. -/
def ofResult : Except Failure Response → Response
  | .ok r => r
  | .error f => ofFailure f

/-- A response with a message before its own. -/
def after (message : String) (r : Response) : Response :=
  { r with messages := message ++ r.messages }

end Response

/-- Lines of a text, each with its end. -/
def unlines (lines : List String) : String :=
  String.join (lines.map (· ++ "\n"))

/-! ## Options -/

/-- The options of an evaluation. -/
def Invocation.options (i : Invocation) : Options :=
  let default : Options := { grouping := if i.precedence then .byBinding else .leftToRight }
  { default with
    maxDepth := i.maxDepth.getD default.maxDepth
    maxRecursion := i.maxRecursion.getD default.maxRecursion }

/-- The dialect of tables. -/
def Invocation.dialect (i : Invocation) : Except Failure Csv.Dialect :=
  if i.delimiter.toNat < 0x80 then .ok { delimiter := i.delimiter.toNat.toUInt8 }
  else .error
    { problem := "Delimiter must be a single ASCII character, got '" ++
        String.singleton i.delimiter ++ "'" }

/-! ## Commands -/

/-- The name of a kind of token. -/
def kindName : TokenKind → String
  | .operator => "Operator"
  | .text => "Text"
  | .word => "Word"

/-- The list of the tokens of a formula. -/
def tokenList (formula : String) : String :=
  unlines ((Token.tokenize formula).map fun t => kindName t.kind ++ "\t" ++ t.text)

/-- The lines for the functions of a category. -/
def categoryLines (c : Category) : List String :=
  let names := Function.namesIn c
  if names.isEmpty then []
  else (c.label ++ " (" ++ toString names.length ++ ")") :: names.map ("  " ++ ·)

/-- The list of all functions. -/
def functionList (byCategory : Bool) : String :=
  unlines (if byCategory then Category.all.flatMap categoryLines else Function.names)

/-- The sheet of a table that was read from a path. -/
def sheetOf (d : Csv.Dialect) (path : String) (table : Except CsvError (List UInt8)) :
    Except Failure Sheet :=
  (table.bind (Sheet.ofCsv { dialect := d })).mapError fun e =>
    ⟨"Failed to read '" ++ path ++ "'", e.messages⟩

/-- The address that is given for a formula. -/
def addressed (address : Option String) : Except Failure (Option Coord) :=
  match address with
  | none => .ok none
  | some text =>
    match Coord.parse text with
    | .ok c => .ok (some c)
    | .error e => .error ⟨"Invalid --at cell address", [e.message]⟩

/-- What was computed, in words. -/
def Statistics.summary (st : Statistics) : String :=
  "Calculated " ++ toString st.formulas ++ " formulas (" ++ toString st.errors ++ " errors, " ++
    toString st.unknown ++ " unknown functions, " ++ toString st.cycles ++ " cycles)\n"

variable {m : Type → Type} [Monad m]

/-- Evaluates a formula, over the cells of a table if there is one. -/
def runEval (files : Files m) (e : Evaluator) (d : Csv.Dialect) (formula : String)
    (csv address : Option String) : m Response := do
  let sheet ← match csv with
    | some path => do pure (sheetOf d path (← files.read path))
    | none => pure (.ok (.empty "Sheet1"))
  return .ofResult do
    let v := (← sheet).evaluate e (← addressed address) formula
    return .ofText (v.toText ++ "\n")

/-- Calculates a table, and prints it or writes it to a file. -/
def runSheet (files : Files m) (e : Evaluator) (d : Csv.Dialect) (input : String)
    (output : Option String) (formulas : Bool) : m Response := do
  match sheetOf d input (← files.read input) with
  | .error f => return .ofFailure f
  | .ok s =>
    let (st, s) := s.calculate e
    let table := s.toCsv { dialect := d, formulas }
    Response.after (Statistics.summary st) <$> match output with
      | none => return { output := table }
      | some path => do
        match ← files.write path table with
        | .ok () => return { messages := "Wrote '" ++ path ++ "'\n" }
        | .error e => return .ofFailure ⟨"Failed to write '" ++ path ++ "'", e.messages⟩

/-- Carries out an invocation. -/
def Invocation.run (files : Files m) (surroundings : Surroundings) (i : Invocation) : m Response :=
  let e : Evaluator := { options := i.options, surroundings }
  match i.dialect with
  | .error f => return .ofFailure f
  | .ok d =>
    match i.command with
    | .eval formula csv address => runEval files e d formula csv address
    | .tokens formula => return .ofText (tokenList formula)
    | .functions byCategory => return .ofText (functionList byCategory)
    | .sheet input output formulas => runSheet files e d input output formulas

/-- What is printed instead of carrying out a command line. -/
def Refusal.response : Refusal → Response
  | .usage problem => { exit := 2, messages := "error: " ++ problem ++ "\n" }
  | .version => .ofText "gridcalc 0.1.0\n"
  | .help => .ofText "Usage: gridcalc [OPTIONS] <eval|tokens|functions|sheet> [ARGUMENTS]\n"

/-- Runs a command line. -/
def run (files : Files m) (surroundings : Surroundings) (args : List String) : m Response :=
  match Invocation.ofArguments args with
  | .ok i => i.run files surroundings
  | .error refusal => return refusal.response

end Spreadsheet.CommandLine
