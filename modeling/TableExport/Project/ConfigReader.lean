import TableExport.Project.Config
import TableExport.Toml.Reader

/-!
# Reading configurations

A configuration is a TOML document with a section for the project and one for each output.

- `Config.ofEntries` takes a configuration out of the table of a document.
- `Config.parse` reads a configuration and checks its outputs.
-/

namespace TableExport

open TableExport.Toml

namespace Config

/-- A value of a document of so many bytes with its place. -/
def locate {α : Type} (size : Nat) (span : Span) (value : α) : Located α :=
  let (offset, length) := span.range size
  ⟨value, offset, length⟩

/-- What a message calls a text that is a path. -/
def pathText : String := "path string"

/-- The fields of the project section; the state is the path of the model. -/
def projectFields : List (RecordField (Option Path)) := [
  { name := "model", isDone := (·.isSome), take := fun _ v => do return some ⟨← asText pathText v⟩ }]

/-- Reads the project section. -/
def readProject (v : Span × Value) : Except Fault (Option Path) :=
  asRecord "ProjectSection" projectFields none v

/-- An output that is being read. -/
structure OutputPart where
  target : Option (Located String) := none
  path : Option (Located Path) := none

/-- The fields of an output section. -/
def outputFields (size : Nat) : List (RecordField OutputPart) := [
  { name := "target", isDone := (·.target.isSome),
    take := fun p v => do return { p with target := some (locate size v.1 (← asText "a string" v)) } },
  { name := "path", isDone := (·.path.isSome),
    take := fun p v => do return { p with path := some (locate size v.1 ⟨← asText pathText v⟩) } }]

/-- The output of a complete part. -/
def OutputPart.finish (p : OutputPart) : OutputSpec where
  target := p.target.getD ⟨"", 0, 0⟩
  path := p.path.getD ⟨⟨""⟩, 0, 0⟩

/-- Reads an output section. -/
def readOutput (size : Nat) (v : Span × Value) : Except Fault OutputSpec := do
  return (← asRecord "OutputSection" (outputFields size) {} v).finish

/-- A configuration that is being read. -/
structure ConfigPart where
  model : Option Path := none
  outputs : List OutputSpec := []

/-- The sections of a configuration; the outputs may be left out. -/
def configFields (size : Nat) : List (RecordField ConfigPart) := [
  { name := "project", isDone := (·.model.isSome),
    take := fun p v => do return { p with model := ← readProject v } },
  { name := "output", isDone := fun _ => true,
    take := fun p v => do return { p with outputs := ← asList (readOutput size) v } }]

/-- The configuration in the table of a document. -/
def ofEntries (document : List Char) (es : Entries) : Except Fault Config := do
  let fields := configFields (Text.utf8Length document)
  let p ← asRecord "Config" fields {} (.front document, .table .explicit es)
  return ⟨p.model.getD ⟨""⟩, p.outputs⟩

/-- Reads a configuration, without looking at its outputs. A number that cannot be represented only matters if something
is wrong: the document is then not well formed. -/
def read (content : String) : Except ConfigError Config :=
  let document := content.toList
  match Toml.parse document with
  | none => .error .notWellFormed
  | some es =>
    match ofEntries document es with
    | .ok c => .ok c
    | .error fault =>
      let (offset, length) := fault.span.range (Text.utf8Length document)
      .error (if allEntries es then .wrongShape offset length fault.misfit else .notWellFormed)

/-- Reads a configuration whose outputs have one of the given targets. -/
def parse (content : String) (targets : List String) : Except ConfigError Config := do
  let c ← read content
  match firstFault? targets c.outputs with
  | some e => throw e
  | none => return c

end Config

end TableExport
