import TableExport.CommandLine.Arguments
import TableExport.Document.Load
import TableExport.Project.Render

/-!
# The program

The program carries out a command on the files around it. What it has to say goes to its output, and why it could not
do so to its error output; its exit code is 0, 1 for a command that failed and 2 for arguments that are not valid.

- `renderCommand` and `targetsCommand` carry out the commands.
- `runProgram` runs the program on its arguments.
-/

namespace TableExport.CommandLine

/-- What a run of the program leaves behind besides files. -/
structure Outcome where
  exitCode : UInt32 := 0
  output : String := ""
  errors : String := ""
deriving Repr, DecidableEq

/-- The run of a command that failed, with the texts of the failure from the outermost to its cause. -/
def Outcome.failed (chain : List String) : Outcome where
  exitCode := 1
  errors := "Error: " ++ ": ".intercalate chain ++ "\n"

/-- The run with arguments that are not valid. -/
def Outcome.invalid : Outcome where
  exitCode := 2
  errors := "error: invalid arguments\n"

/-- The version of the program. -/
def version : String := "0.1.0"

/-- How the program is used. -/
def usage : String :=
  "Usage: tabula render [--config FILE] [--target TARGET]... [--dry-run]\n" ++
  "       tabula targets\n" ++
  "       tabula --version\n"

/-- A text with blanks behind it up to a width. -/
def padEnd (width : Nat) (s : String) : String :=
  s ++ String.ofList (List.replicate (width - s.length) ' ')

/-- The line of a printer in the list of targets. -/
def targetLine (p : Printer) : String :=
  "  " ++ padEnd 8 p.target ++ " tag " ++ padEnd 8 p.tag ++ " ." ++ p.extension ++ "\n"

/-- Lists the targets. -/
def targetsCommand (r : Registry) : Outcome where
  output := "Targets:\n" ++ String.join (r.printers.map targetLine)

/-- What is said about an output. -/
def fileReport (f : RenderedFile) : String :=
  match f.status with
  | .preview => "── " ++ f.path.text ++ " (" ++ f.target ++ ") ──\n" ++ f.content ++ "\n"
  | .written => "  wrote     " ++ f.path.text ++ "\n"
  | .unchanged => "  unchanged " ++ f.path.text ++ "\n"

/-- What is said about all outputs. -/
def filesReport (dryRun : Bool) (files : List RenderedFile) : String :=
  if files.isEmpty then "No outputs selected\n"
  else
    String.join (files.map fileReport) ++
      if dryRun then "── Summary ──\n" ++ toString files.length ++ " files would be written\n" else ""

/-- The first target that has no printer. -/
def unknownTarget? (r : Registry) : List String → Option RegistryError
  | [] => none
  | t :: ts =>
    match r.get t with
    | .ok _ => unknownTarget? r ts
    | .error e => some e

variable {m : Type → Type} [Monad m] [FileSystem m]

/-- Renders a project. -/
def renderCommand (r : Registry) (request : RenderRequest) : m Outcome := do
  if let some e := unknownTarget? r request.targets then
    return .failed [e.message]
  match ← openProject ⟨request.config⟩ r.targets with
  | .error e => return .failed (e.message :: e.reason?.toList)
  | .ok project =>
    match ← loadModel project.modelPath with
    | .error e => return .failed [e.message, e.reason]
    | .ok model =>
      match ← project.render r ⟨version, model⟩ ⟨request.targets, request.dryRun⟩ with
      | .error e => return .failed (("failed to render " ++ request.config) :: e.chain)
      | .ok files => return { output := filesReport request.dryRun files }

/-- Runs the program on its arguments. -/
def runProgram (args : List String) : m Outcome :=
  match parseArguments args with
  | none => pure .invalid
  | some .usage => pure { output := usage }
  | some .version => pure { output := "tabula " ++ version ++ "\n" }
  | some .targets => pure (targetsCommand .builtin)
  | some (.render request) => renderCommand .builtin request

end TableExport.CommandLine
