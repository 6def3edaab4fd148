import Spreadsheet.Csv.Error

/-!
# Files

What commands need of files (`Files`), and a directory that is held in memory (`Directory`), whose
files are found by paths relative to it.
-/

namespace Spreadsheet.CommandLine

/-- Files that can be read and written. -/
structure Files (m : Type → Type) where
  read : (path : String) → m (Except CsvError (List UInt8))
  write : (path : String) → List UInt8 → m (Except CsvError Unit)

/-- Files by the names on their paths, the outermost first. -/
structure Directory where
  files : List (List String × List UInt8) := []

namespace Directory

def noSuchFile : String := "No such file or directory (os error 2)"
def notADirectory : String := "Not a directory (os error 20)"
def isADirectory : String := "Is a directory (os error 21)"

/-- The names on a path. -/
def names (path : String) : List String :=
  (path.splitOn "/").filter fun name => name != "" && name != "."

/-- The octets of a file. -/
def get? (d : Directory) (file : List String) : Option (List UInt8) :=
  d.files.lookup file

/-- Whether names lead to a directory. -/
def hasDirectory (d : Directory) (names : List String) : Bool :=
  names.isEmpty || d.files.any fun (file, _) => names.isPrefixOf file && names != file

/-- Why names lead nowhere: something on the way to them is a file, or is missing. -/
def missing (d : Directory) (names : List String) : String :=
  if d.files.any fun (file, _) => file.isPrefixOf names && file != names then notADirectory
  else noSuchFile

/-- The octets of the file at a path. -/
def read (d : Directory) (path : String) : Except CsvError (List UInt8) :=
  let file := names path
  match d.get? file with
  | some octets => .ok octets
  | none =>
    if d.hasDirectory file then .error (.notRead isADirectory)
    else .error (.notOpened (d.missing file))

/-- The directory with other octets in the file at a path. -/
def write (d : Directory) (path : String) (octets : List UInt8) : Except CsvError Directory :=
  let file := names path
  if d.hasDirectory file then .error (.notOpened isADirectory)
  else if d.hasDirectory file.dropLast then
    .ok ⟨(file, octets) :: d.files.filter (·.1 != file)⟩
  else .error (.notOpened (d.missing file))

/-- The files of a directory in memory. -/
def access : Files (StateM Directory) where
  read path := return (← get).read path
  write path octets := do
    match (← get).write path octets with
    | .ok d => set d; return .ok ()
    | .error e => return .error e

end Directory

end Spreadsheet.CommandLine
