import TableExport.Printer.Registry
import TableExport.Project.Open

/-!
# Rendering a project

All outputs of a project that are asked for are printed first; only if none of them fails are the files written, one
after the other.

- `Project.selected` lists the outputs that are asked for.
- `Project.printed` prints them.
- `Project.render` prints and writes them.
-/

namespace TableExport

/-- What is to be done. -/
structure RenderOptions where
  /-- The targets that are asked for; none stand for all. -/
  only : List String := []
  /-- Nothing is written. -/
  dryRun : Bool := false
deriving Repr, DecidableEq

/-- What became of an output. -/
inductive FileStatus where
  /-- It was only printed. -/
  | preview
  | written
  /-- Its file held it already. -/
  | unchanged
deriving Repr, DecidableEq

/-- The name of a status. -/
def FileStatus.name : FileStatus → String
  | preview => "preview"
  | written => "written"
  | unchanged => "unchanged"

/-- What became of a file, as the status of an output. -/
def WriteOutcome.status : WriteOutcome → FileStatus
  | .written => .written
  | .unchanged => .unchanged

/-- An output that was printed, and its file. -/
structure PrintedFile where
  target : String
  path : Path
  content : String
deriving Repr, DecidableEq

/-- An output that was printed, and what became of it. -/
structure RenderedFile extends PrintedFile where
  status : FileStatus
deriving Repr, DecidableEq

/-- Why a project cannot be rendered. -/
inductive RenderFailure where
  /-- An output has a target without a printer. -/
  | unknownTarget (reason : RegistryError)
  /-- An output cannot be printed. -/
  | aborted (reason : PrintError)
  /-- A file cannot be written. -/
  | unwritable (path : Path) (reason : FileError)
deriving Repr, DecidableEq

/-- The texts of a failure, from the outermost to its cause. -/
def RenderFailure.chain : RenderFailure → List String
  | unknownTarget e => [e.message]
  | aborted e => ["rendering aborted, no output was written", e.message, e.reason.message]
  | unwritable path e => ["failed to write " ++ path.text, e.message]

namespace Project

/-- The outputs with a target that is asked for. -/
def selected (p : Project) (only : List String) : List (String × Path) :=
  p.outputs.filter fun o => only.isEmpty || only.contains o.1

/-- Prints an output. -/
def printJob (x : Export) (job : Printer × Path) : Except RenderFailure PrintedFile :=
  match job.1.print x with
  | .ok o => .ok ⟨o.target, job.2, o.content⟩
  | .error e => .error (.aborted e)

/-- The printer of an output. -/
def findJob (r : Registry) (o : String × Path) : Except RenderFailure (Printer × Path) :=
  match r.get o.1 with
  | .ok printer => .ok (printer, o.2)
  | .error e => .error (.unknownTarget e)

/-- Prints the outputs that are asked for. -/
def printed (p : Project) (r : Registry) (x : Export) (only : List String) :
    Except RenderFailure (List PrintedFile) := do
  let jobs ← (p.selected only).mapM (findJob r)
  jobs.mapM (printJob x)

variable {m : Type → Type} [Monad m] [FileSystem m]

/-- Writes files one after the other, up to the first that cannot be written. -/
def writeAll : List PrintedFile → m (Except RenderFailure (List RenderedFile))
  | [] => return .ok []
  | f :: fs => do
    match ← writeFile f.path f.content with
    | .error e => return .error (.unwritable f.path e)
    | .ok outcome =>
      match ← writeAll fs with
      | .error e => return .error e
      | .ok rest => return .ok ({ toPrintedFile := f, status := outcome.status } :: rest)

/-- Prints the outputs that are asked for and writes their files. -/
def render (p : Project) (r : Registry) (x : Export) (options : RenderOptions) :
    m (Except RenderFailure (List RenderedFile)) :=
  match p.printed r x options.only with
  | .error e => pure (.error e)
  | .ok files =>
    if options.dryRun then pure (.ok (files.map fun f => { toPrintedFile := f, status := .preview }))
    else writeAll files

end Project

end TableExport
