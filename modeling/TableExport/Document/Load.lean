import TableExport.Document.Lowering
import TableExport.Document.Reader
import TableExport.Files.FileSystem
import TableExport.Text.Label

/-!
# Loading a model

A model document is read as JSON and its nodes are converted to typed values. Both steps can fail; the failure is
described by a text, a code, a piece of advice and, for a document that cannot be read, the place in it.

- `Model.load` loads a model from the text of a document, `loadModel` from a file.
- `LoadError` lists the failures.
-/

namespace TableExport

/-- Why a model cannot be loaded. -/
inductive LoadError where
  /-- The file cannot be read, for the reason given by the system. -/
  | unreadable (path : Path) (reason : FileError)
  /-- The document cannot be read: the place in it, and the reason. -/
  | unparsable (offset : Option Nat) (reason : String)
  /-- A node of a table violates the shape of values. -/
  | malformed (table : String) (reason : LoweringError)
deriving Repr, DecidableEq

namespace LoadError

/-- The failure of a reading at a position of a document. -/
def atPosition (document : List Char) (position : Text.Position) (reason : String) : LoadError :=
  .unparsable (Text.offsetOf? document position)
    (if position.line = 0 then reason
     else reason ++ " at line " ++ toString position.line ++ " column " ++ toString position.column)

/-- The text of the failure. -/
def message : LoadError → String
  | unreadable path _ => "failed to read '" ++ path.text ++ "'"
  | unparsable .. => "failed to parse model document"
  | malformed table _ => "malformed value tree in table '" ++ table ++ "'"

/-- The code of the failure. -/
def code? : LoadError → Option String
  | unreadable .. => none
  | unparsable .. => some "tabula::parse_error"
  | malformed .. => some "tabula::malformed_tree"

/-- The advice that goes with the failure. -/
def help? : LoadError → Option String
  | unreadable .. => some "check the `model` path in tabula.toml"
  | unparsable .. => none
  | malformed .. => some "the exporter expects one value node per non-repeated field"

/-- The places that the failure points at. -/
def labels : LoadError → List Label
  | unparsable (some offset) _ => [⟨offset, 0, "parse error here"⟩]
  | _ => []

/-- The text of what caused the failure. -/
def reason : LoadError → String
  | unreadable _ r => r.message
  | unparsable _ r => r
  | malformed _ r => r.message

end LoadError

namespace Document

/-- Converts the tables of a document; the first violation ends it. -/
def lowerTables : List TableDocument → Except LoadError (List Table)
  | [] => .ok []
  | t :: ts =>
    match DocumentNode.lowerRecords t.name 0 t.records with
    | .error e => .error (.malformed t.name e)
    | .ok records => do
      let rest ← lowerTables ts
      return ⟨t.name, t.tags, records⟩ :: rest

/-- Converts a document. -/
def ModelDocument.lower (d : ModelDocument) : Except LoadError Model := do
  return ⟨d.descriptors, ← lowerTables d.tables⟩

end Document

/-- Loads a model from the text of its document. -/
def Model.load (document : String) : Except LoadError Model :=
  let text := document.toList
  match Json.readDocument (Document.readModelDocument Json.maxDepth) text with
  | .error f => .error (.atPosition text (f.position text) f.cause.message)
  | .ok d => d.lower

/-- Loads a model from the file at a path. -/
def loadModel {m : Type → Type} [Monad m] [FileSystem m] (p : Path) : m (Except LoadError Model) := do
  match ← FileSystem.readText p with
  | .error e => return .error (.unreadable p e)
  | .ok document => return Model.load document

end TableExport
