import TableExport.Files.Error
import TableExport.Files.Path
import TableExport.Text.Label
import TableExport.Toml.Record

/-!
# Project configurations

A configuration names the model of a project and its outputs, each with a target and the path of its file. Every target
must have a printer, and no two outputs may have the same path.

- `Config` is a configuration.
- `ConfigError` lists what can be wrong with one.
- `Config.firstFault?` finds the first output that is not admissible.
-/

namespace TableExport

/-- A value, and the part of the document that spells it. -/
structure Located (α : Type) where
  value : α
  /-- The offset of its spelling in bytes. -/
  offset : Nat
  /-- The length of its spelling in bytes. -/
  length : Nat
deriving Repr, DecidableEq

/-- A label at a value. -/
def Located.label {α : Type} (v : Located α) (text : String) : Label :=
  ⟨v.offset, v.length, text⟩

/-- An output of a project. -/
structure OutputSpec where
  /-- The target whose printer writes it. -/
  target : Located String
  path : Located Path
deriving Repr, DecidableEq

/-- The configuration of a project. -/
structure Config where
  model : Path
  outputs : List OutputSpec := []
deriving Repr, DecidableEq

/-- Why a configuration is refused. -/
inductive ConfigError where
  | unreadable (path : Path) (reason : FileError)
  /-- The document is no TOML. -/
  | notWellFormed
  /-- A part of the document has the wrong shape. -/
  | wrongShape (offset length : Nat) (misfit : Toml.Misfit)
  /-- A target has no printer; the targets that have one are listed. -/
  | unknownTarget (target : Located String) (available : List String)
  /-- Two outputs have the same path. -/
  | duplicateOutput (first second : Located Path)
deriving Repr, DecidableEq

namespace ConfigError

/-- The text of the error. -/
def message : ConfigError → String
  | unreadable path _ => "failed to read '" ++ path.text ++ "'"
  | notWellFormed | wrongShape .. => "failed to parse tabula.toml"
  | unknownTarget target _ => "unknown target '" ++ target.value ++ "'"
  | duplicateOutput _ second => "output path '" ++ second.value.text ++ "' is used more than once"

/-- The code of the error. -/
def code? : ConfigError → Option String
  | unreadable .. => none
  | notWellFormed | wrongShape .. => some "tabula::config::parse_error"
  | unknownTarget .. => some "tabula::config::unknown_target"
  | duplicateOutput .. => some "tabula::config::duplicate_output"

/-- The advice that goes with the error. -/
def help? : ConfigError → Option String
  | unreadable .. => some "create a tabula.toml or point --config at one"
  | unknownTarget _ available => some ("available targets: " ++ ", ".intercalate available)
  | notWellFormed | wrongShape .. | duplicateOutput .. => none

/-- The places that the error points at. -/
def labels : ConfigError → List Label
  | unreadable .. | notWellFormed => []
  | wrongShape offset length _ => [⟨offset, length, "parse error here"⟩]
  | unknownTarget target _ => [target.label "no printer is registered for this target"]
  | duplicateOutput first second => [first.label "first used here", second.label "used again here"]

/-- The text of what caused the error. -/
def reason? : ConfigError → Option String
  | unreadable _ e => some e.message
  | wrongShape _ _ misfit => some misfit.message
  | notWellFormed | unknownTarget .. | duplicateOutput .. => none

end ConfigError

namespace Config

/-- What is wrong with the first output that is not admissible behind others that are. -/
def firstFaultAfter? (targets : List String) : List OutputSpec → List OutputSpec → Option ConfigError
  | _, [] => none
  | before, o :: os =>
    if !targets.contains o.target.value then some (.unknownTarget o.target targets)
    else
      match before.find? (·.path.value.sameAs o.path.value) with
      | some first => some (.duplicateOutput first.path o.path)
      | none => firstFaultAfter? targets (before ++ [o]) os

/-- What is wrong with the first output that is not admissible. -/
def firstFault? (targets : List String) (outputs : List OutputSpec) : Option ConfigError :=
  firstFaultAfter? targets [] outputs

end Config

end TableExport
