import TableExport.CommandLine.Program

/-!
# The command

Runs the program on the files of the system.
-/

namespace TableExport

/-- The reason that the system gave for a failure. -/
def FileError.ofSystem : IO.Error → FileError
  | .noFileOrDirectory .. => .notFound
  | .alreadyExists .. => .exists
  | .inappropriateType .. => .notDirectory
  | e => .other (toString e)

/-- The result of an action on the files of the system. -/
def attempt {α : Type} (action : IO α) : IO (Except FileError α) := do
  match ← action.toBaseIO with
  | .ok a => return .ok a
  | .error e => return .error (.ofSystem e)

/-- The files of the system. -/
instance : FileSystem IO where
  readText p := attempt (IO.FS.readFile p.text)
  makeDirectories p := if p.text.isEmpty then return .ok () else attempt (IO.FS.createDirAll p.text)
  writeText p s := attempt (IO.FS.writeFile p.text s)

end TableExport

/-- Runs the program and passes on what it leaves behind. -/
def main (args : List String) : IO UInt32 := do
  let outcome : TableExport.CommandLine.Outcome ← TableExport.CommandLine.runProgram args
  IO.print outcome.output
  IO.eprint outcome.errors
  return outcome.exitCode
