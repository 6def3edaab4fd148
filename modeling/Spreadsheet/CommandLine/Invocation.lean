import Spreadsheet.CommandLine.Switch

/-!
# Invocations

What a command line asks for. Arguments are read one by one (`Reader.step`). Switches of every
command may stand before the command or after it, where the later place counts; no switch may be
repeated in one place, but the one that is counted. The first argument at fault decides, unless the
version or help was asked for before it.
-/

namespace Spreadsheet.CommandLine

/-- What is to be done. -/
inductive Command where
  /-- Evaluate a formula, over the cells of a table and as the formula of a cell. -/
  | eval (formula : String) (csv : Option String) (address : Option String)
  /-- List the tokens of a formula. -/
  | tokens (formula : String)
  /-- List the functions. -/
  | functions (byCategory : Bool)
  /-- Calculate a table. -/
  | sheet (input : String) (output : Option String) (formulas : Bool)
  deriving Repr, DecidableEq

/-- What a command line asks for. -/
structure Invocation where
  precedence : Bool := false
  maxDepth : Option Nat := none
  maxRecursion : Option Nat := none
  delimiter : Char := ','
  /-- How much is to be told about the work. -/
  verbosity : Nat := 0
  command : Command
  deriving Repr, DecidableEq

/-- Why a command line is not carried out. -/
inductive Refusal where
  /-- It is no invocation. -/
  | usage (problem : String)
  /-- The version is asked for. -/
  | version
  /-- Help is asked for. -/
  | help
  deriving Repr, DecidableEq

/-- The commands by kind. -/
inductive Kind where
  | eval
  | tokens
  | functions
  | sheet
  deriving Repr, DecidableEq

namespace Kind

/-- The kind of command that a word names. -/
def ofText? : String → Option Kind
  | "eval" => some .eval
  | "tokens" => some .tokens
  | "functions" => some .functions
  | "sheet" | "calc" => some .sheet
  | _ => none

/-- The switches that the command has of its own. -/
def switches : Kind → List Switch
  | .eval => [.csv, .address]
  | .tokens => []
  | .functions => [.byCategory]
  | .sheet => [.output, .formulas]

/-- What the plain argument of the command is, if it has one. -/
def operand? : Kind → Option Takes
  | .eval | .tokens => some .text
  | .functions => none
  | .sheet => some .path

end Kind

/-- Where in a command line the reader is. -/
inductive Stage where
  /-- Before the command. -/
  | start
  /-- After the command. -/
  | command (kind : Kind)
  /-- After the word that asks for help, and perhaps a command to be explained. -/
  | help (explained : Bool)
  deriving Repr, DecidableEq

/-- A reader between two arguments. -/
structure Reader where
  stage : Stage := .start
  /-- The switches before the command with their values. -/
  before : List (Switch × String) := []
  /-- The switches after the command with their values. -/
  after : List (Switch × String) := []
  /-- The plain argument of the command. -/
  operand : Option String := none
  /-- A switch that wants the next argument as its value. -/
  pending : Option Switch := none
  /-- Whether all arguments are plain from here on. -/
  plainOnly : Bool := false
  deriving Repr

namespace Reader

/-- The switches that may stand here. -/
def known (r : Reader) : List Switch :=
  match r.stage with
  | .command kind => Switch.everywhere ++ kind.switches
  | _ => .version :: Switch.everywhere

/-- The switches that have been read at this place. -/
def here (r : Reader) : List (Switch × String) :=
  if r.stage = .start then r.before else r.after

/-- Takes a switch with its value. -/
def give (r : Reader) (s : Switch) (value : String) : Except Refusal Reader :=
  if s = .version then .error .version
  else if s = .help then .error .help
  else if s.takes ≠ .repeats ∧ r.here.any (·.1 = s) then
    .error (.usage ("--" ++ s.long ++ " is given twice"))
  else if s.takes.accepts value then
    let r := { r with pending := none }
    .ok (if r.stage = .start then { r with before := (s, value) :: r.before }
      else { r with after := (s, value) :: r.after })
  else .error (.usage ("'" ++ value ++ "' is no value for --" ++ s.long))

/-- Reads a long name. -/
def longStep (r : Reader) (name : String) (value : Option String) : Except Refusal Reader :=
  match r.known.find? (·.long = name), value with
  | none, _ => .error (.usage ("unknown switch --" ++ name))
  | some s, some value =>
    if s.takes.wantsValue then r.give s value
    else .error (.usage ("--" ++ name ++ " takes no value"))
  | some s, none =>
    if s.takes.wantsValue then .ok { r with pending := some s } else r.give s ""

/-- Reads short names. -/
def shortStep (r : Reader) : List Char → Except Refusal Reader
  | [] => .ok r
  | c :: cs =>
    match r.known.find? (·.short = some c) with
    | none => .error (.usage ("unknown switch -" ++ String.singleton c))
    | some s =>
      if s.takes.wantsValue then
        if cs.isEmpty then .ok { r with pending := some s }
        else r.give s ((afterEquals? cs).getD (String.ofList cs))
      else do (← r.give s "").shortStep cs

/-- Reads a plain argument. -/
def plainStep (r : Reader) (text : String) : Except Refusal Reader :=
  match r.stage with
  | .start =>
    if text = "help" then .ok { r with stage := .help false }
    else match Kind.ofText? text with
      | some kind => .ok { r with stage := .command kind }
      | none => .error (.usage ("unknown command '" ++ text ++ "'"))
  | .command kind =>
    match kind.operand?, r.operand with
    | some takes, none =>
      if takes.accepts text then .ok { r with operand := some text }
      else .error (.usage "the path of a file is not empty")
    | _, _ => .error (.usage ("unexpected argument '" ++ text ++ "'"))
  | .help explained =>
    if !explained && (text = "help" || (Kind.ofText? text).isSome) then
      .ok { r with stage := .help true }
    else .error (.usage ("unknown command '" ++ text ++ "'"))

/-- Reads an argument that is no value of a switch. -/
def freshStep (r : Reader) (arg : String) : Except Refusal Reader :=
  match r.stage, Argument.ofText arg with
  | .help _, _ => r.plainStep arg
  | _, .plain text => r.plainStep text
  | .start, .separator => .error (.usage "a command is wanted before --")
  | _, .separator => .ok { r with plainOnly := true }
  | _, .long name value => r.longStep name value
  | _, .short names => r.shortStep names

/-- Reads an argument. -/
def step (r : Reader) (arg : String) : Except Refusal Reader :=
  match r.pending with
  | some s =>
    match Argument.ofText arg with
    | .plain value => r.give s value
    | _ => .error (.usage ("--" ++ s.long ++ " wants a value"))
  | none => if r.plainOnly then r.plainStep arg else r.freshStep arg

/-- The value of a switch; after the command counts more than before it. -/
def value? (r : Reader) (s : Switch) : Option String :=
  (r.after ++ r.before).lookup s

/-- Whether a switch is given. -/
def has (r : Reader) (s : Switch) : Bool :=
  (r.value? s).isSome

/-- The number that a switch is given. -/
def number? (r : Reader) (s : Switch) : Option Nat :=
  (r.value? s).bind fun value => Text.naturalBelow? Takes.numberLimit value.toList

/-- How often a switch is given. -/
def count (r : Reader) (s : Switch) : Nat :=
  let after := r.after.countP (·.1 = s)
  if after = 0 then r.before.countP (·.1 = s) else after

/-- The command, with its plain argument. -/
def command (r : Reader) : Except Refusal Command :=
  match r.stage, r.operand with
  | .help _, _ => .error .help
  | .start, _ => .error (.usage "a command is wanted")
  | .command .functions, _ => .ok (.functions (r.has .byCategory))
  | .command .eval, some formula => .ok (.eval formula (r.value? .csv) (r.value? .address))
  | .command .tokens, some formula => .ok (.tokens formula)
  | .command .sheet, some input => .ok (.sheet input (r.value? .output) (r.has .formulas))
  | .command _, none => .error (.usage "an argument is missing")

/-- What has been asked for when the arguments end. -/
def finish (r : Reader) : Except Refusal Invocation :=
  match r.pending with
  | some s => .error (.usage ("--" ++ s.long ++ " wants a value"))
  | none => do
    return {
      precedence := r.has .precedence
      maxDepth := r.number? .maxDepth
      maxRecursion := r.number? .maxRecursion
      delimiter := ((r.value? .delimiter).bind (·.toList.head?)).getD ','
      verbosity := r.count .verbose
      command := ← r.command }

end Reader

/-- What a command line asks for. -/
def Invocation.ofArguments (args : List String) : Except Refusal Invocation := do
  (← args.foldlM Reader.step {}).finish

end Spreadsheet.CommandLine
