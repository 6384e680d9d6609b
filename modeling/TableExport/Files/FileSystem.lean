import TableExport.Files.FileTree

/-!
# Working with files

Programs that read and write files do so through `FileSystem`, so that they run on the files of a system as well as on
a `FileTree`.

- `writeFile` brings a file up to date and leaves one alone that is.
-/

namespace TableExport

/-- The operations on files that a program needs. -/
class FileSystem (m : Type → Type) where
  /-- The text of the file at a path. -/
  readText : Path → m (Except FileError String)
  /-- Makes a directory unless there is one, and all directories above it. -/
  makeDirectories : Path → m (Except FileError Unit)
  /-- Writes a text to a file, whatever it held before. -/
  writeText : Path → String → m (Except FileError Unit)

/-- A file tree as the state of a program. Here a file is written as a whole or not at all: what can go wrong in the
middle, such as a disk that gets full when the old text is gone, is not modelled. -/
instance : FileSystem (StateM FileTree) where
  readText p := fun t => (t.readText p, t)
  makeDirectories p := fun t => ((t.makeDirectories p).2, (t.makeDirectories p).1)
  writeText p s := fun t =>
    match t.writeBytes p s.toUTF8 with
    | .ok t => (.ok (), t)
    | .error e => (.error e, t)

/-- What became of a file. -/
inductive WriteOutcome where
  | written
  /-- It held the text already and was not touched. -/
  | unchanged
deriving Repr, DecidableEq

variable {m : Type → Type} [Monad m] [FileSystem m]

/-- Makes the directories in which the file at a path lies. -/
def makeParents (p : Path) : m (Except FileError Unit) :=
  match p.parent? with
  | some parent => FileSystem.makeDirectories parent
  | none => pure (.ok ())

/-- Brings the file at a path up to date. -/
def writeFile (p : Path) (text : String) : m (Except FileError WriteOutcome) := do
  let before ← FileSystem.readText p
  if before.toOption = some text then return .ok .unchanged
  match ← makeParents p with
  | .error e => return .error e
  | .ok () =>
    match ← FileSystem.writeText p text with
    | .error e => return .error e
    | .ok () => return .ok .written

end TableExport
