import TableExport.Files.FileSystem
import TableExport.Project.ConfigReader

/-!
# Projects

A project is a configuration together with the directory that its paths are relative to.

- `openProject` opens the project of a configuration file.
- `Project.modelPath` and `Project.outputs` are the paths of a project, seen from the working directory.
-/

namespace TableExport

/-- A configuration and where it lies. -/
structure Project where
  root : Path
  config : Config
deriving Repr, DecidableEq

namespace Project

/-- The path of the model. -/
def modelPath (p : Project) : Path :=
  p.root.join p.config.model

/-- The outputs in order, each with its target and the path of its file. -/
def outputs (p : Project) : List (String × Path) :=
  p.config.outputs.map fun o => (o.target.value, p.root.join o.path.value)

end Project

/-- The project of a configuration that was read from a path. -/
def Project.ofContent (path : Path) (content : String) (targets : List String) : Except ConfigError Project := do
  return ⟨path.parent?.getD ⟨""⟩, ← Config.parse content targets⟩

/-- Opens the project of the configuration file at a path. -/
def openProject {m : Type → Type} [Monad m] [FileSystem m] (path : Path) (targets : List String) :
    m (Except ConfigError Project) := do
  match ← FileSystem.readText path with
  | .error e => return .error (.unreadable path e)
  | .ok content => return Project.ofContent path content targets

end TableExport
