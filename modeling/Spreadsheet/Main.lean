import Spreadsheet.CommandLine.Run
import Std.Time.DateTime.Timestamp

/-!
# The command line

The program: a command line is carried out on the files of the system, by the clock of the system.
-/

namespace Spreadsheet.CommandLine

/-- What the system says of a failure. -/
def systemCause : IO.Error → String
  | .noFileOrDirectory _ code details => details ++ " (os error " ++ toString code ++ ")"
  | .permissionDenied _ code details => details ++ " (os error " ++ toString code ++ ")"
  | .inappropriateType _ code details => details ++ " (os error " ++ toString code ++ ")"
  | error => toString error

/-- The files of the system. -/
def systemFiles : Files IO where
  read path := do
    try return .ok (← IO.FS.readBinFile path).toList
    catch error => return .error (.notOpened (systemCause error))
  write path octets := do
    try
      IO.FS.writeBinFile path ⟨octets.toArray⟩
      return .ok ()
    catch error => return .error (.notOpened (systemCause error))

/-- A supply of random numbers that a seed begins. -/
def supplyOf (seed : Nat) : Supply where
  draw current n :=
    let place := current.map fun c => (c.row, c.col)
    let generator := mkStdGen (hash (seed, place, n)).toNat
    let parts := Nat.pow 2 53
    Float.ofNat (randNat generator 0 (parts - 1)).1 / Float.ofNat parts

/-- The surroundings of this moment. -/
def currentSurroundings : IO Surroundings := do
  let now ← Std.Time.Timestamp.now
  let seed ← IO.rand 0 (Nat.pow 2 31)
  return ⟨now.toMillisecondsSinceUnixEpoch.val, supplyOf seed⟩

/-- Carries out a command line, and returns its exit code. -/
def runHere (args : List String) : IO UInt32 := do
  let response ← run systemFiles (← currentSurroundings) args
  (← IO.getStderr).putStr response.messages
  (← IO.getStdout).write ⟨response.output.toArray⟩
  return response.exit.toUInt32

end Spreadsheet.CommandLine

/-- The program. -/
def main (args : List String) : IO UInt32 :=
  Spreadsheet.CommandLine.runHere args
