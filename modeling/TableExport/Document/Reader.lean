import TableExport.Document.Node
import TableExport.Json.Record
import TableExport.Model.Descriptor

/-!
# Reading the parts of a model document

A model document is a record with descriptors and tables. Every part is a record whose fields are read in any order;
the parts here say which fields there are, which of them may be left out, and what stands for one that is.

- `readDescriptor`, `readDocumentNode` and `readModelDocument` read a descriptor, a node and a whole document.
-/

namespace TableExport.Document

open TableExport.Json

/-- A field of a record whose state is a part with optional entries. -/
def slot {σ α : Type} (name : String) (optional : Bool) (get : σ → Option α) (set : σ → α → σ) (read : Reader α) :
    RecordField σ where
  name := name
  optional := optional
  isSet state := (get state).isSome
  read state s := do
    let (a, r) ← read s
    return (set state a, r)

/-- How a record is read when so many further containers may be opened. -/
def shapeAt {σ : Type} (shape : Nat → RecordShape σ) : Nat → Option (RecordShape σ)
  | 0 => none
  | depth + 1 => some (shape depth)

/-- Reads a list of strings. -/
def readStrings (depth : Nat) : Reader (List String) :=
  readSequence (if depth = 0 then none else some readString)

/-- Reads a list whose elements contain other containers. -/
def readListOf {α : Type} (element : Nat → Reader α) : Nat → Reader (List α)
  | 0 => readSequence none
  | depth + 1 => readSequence (some (element depth))

/-- Reads the type of a field. -/
def readFieldType (depth : Nat) : Reader FieldType :=
  readAlternative "FieldType" FieldType.ofName? depth

/-! ## Descriptors -/

/-- A field descriptor that is being read. -/
structure FieldDescriptorPart where
  name : Option String := none
  type : Option FieldType := none
  repeated : Option Bool := none
  ordinal : Option Int32 := none
  link : Option (Option String) := none

/-- The fields of a field descriptor. -/
def fieldDescriptorShape (depth : Nat) : RecordShape FieldDescriptorPart where
  start := {}
  fields := [
    slot "name" false (·.name) (fun p v => { p with name := some v }) readString,
    slot "type" false (·.type) (fun p v => { p with type := some v }) (readFieldType depth),
    slot "repeated" true (·.repeated) (fun p v => { p with repeated := some v }) readBoolean,
    slot "enum_value" true (·.ordinal) (fun p v => { p with ordinal := some v }) readInt32,
    slot "complex" true (·.link) (fun p v => { p with link := some v }) (readNullable readString)]

/-- The field descriptor of a complete part. -/
def FieldDescriptorPart.finish (p : FieldDescriptorPart) : FieldDescriptor where
  name := p.name.getD ""
  type := p.type.getD .struct
  repeated := p.repeated.getD false
  ordinal := p.ordinal.getD 0
  link := p.link.getD none

/-- Reads a field descriptor. -/
def readFieldDescriptor (depth : Nat) : Reader FieldDescriptor := fun s => do
  let (p, r) ← readRecord "FieldDescriptor" (shapeAt fieldDescriptorShape depth) s
  return (p.finish, r)

/-- A descriptor that is being read. -/
structure DescriptorPart where
  name : Option String := none
  kind : Option DescriptorKind := none
  usage : Option DescriptorUsage := none
  fields : Option (List FieldDescriptor) := none
  indexes : Option (List String) := none
  tags : Option OutputTags := none

/-- The fields of a descriptor. -/
def descriptorShape (depth : Nat) : RecordShape DescriptorPart where
  start := {}
  fields := [
    slot "name" false (·.name) (fun p v => { p with name := some v }) readString,
    slot "kind" false (·.kind) (fun p v => { p with kind := some v })
      (readVariant DescriptorKind.all DescriptorKind.name depth),
    slot "usage" true (·.usage) (fun p v => { p with usage := some v })
      (readVariant DescriptorUsage.all DescriptorUsage.name depth),
    slot "fields" true (·.fields) (fun p v => { p with fields := some v }) (readListOf readFieldDescriptor depth),
    slot "indexes" true (·.indexes) (fun p v => { p with indexes := some v }) (readStrings depth),
    slot "tags" true (·.tags) (fun p v => { p with tags := some v }) (readStrings depth)]

/-- The descriptor of a complete part. -/
def DescriptorPart.finish (p : DescriptorPart) : Descriptor where
  name := p.name.getD ""
  kind := p.kind.getD .struct
  usage := p.usage.getD .ordinary
  fields := p.fields.getD []
  indexes := p.indexes.getD []
  tags := p.tags.getD []

/-- Reads a descriptor. -/
def readDescriptor (depth : Nat) : Reader Descriptor := fun s => do
  let (p, r) ← readRecord "Descriptor" (shapeAt descriptorShape depth) s
  return (p.finish, r)

/-! ## Nodes -/

/-- A node that is being read. -/
structure NodePart where
  name : Option String := none
  type : Option (Option FieldType) := none
  repeated : Option Bool := none
  value : Option String := none
  child : Option (List DocumentNode) := none

/-- The fields of a node, with the reader of its children. -/
def nodeShape (depth : Nat) (child : Option (Reader DocumentNode)) : RecordShape NodePart where
  start := {}
  fields := [
    slot "name" true (·.name) (fun p v => { p with name := some v }) readString,
    slot "type" true (·.type) (fun p v => { p with type := some v }) (readNullable (readFieldType depth)),
    slot "repeated" true (·.repeated) (fun p v => { p with repeated := some v }) readBoolean,
    slot "value" true (·.value) (fun p v => { p with value := some v }) readString,
    slot "child" true (·.child) (fun p v => { p with child := some v }) (readSequence child)]

/-- The node of a complete part. -/
def NodePart.finish (p : NodePart) : DocumentNode where
  name := p.name.getD ""
  type := p.type.getD none
  repeated := p.repeated.getD false
  value := p.value.getD ""
  child := p.child.getD []

/-- Reads a node of that shape. -/
def readNodeOf (shape : Option (RecordShape NodePart)) : Reader DocumentNode := fun s => do
  let (p, r) ← readRecord "RawNode" shape s
  return (p.finish, r)

/-- Reads a node when so many containers may be opened. -/
def readDocumentNode : Nat → Reader DocumentNode
  | 0 => readNodeOf none
  | 1 => readNodeOf (some (nodeShape 0 none))
  | depth + 2 => readNodeOf (some (nodeShape (depth + 1) (some (readDocumentNode depth))))

/-! ## Documents -/

/-- A table as it is written in a document. -/
structure TableDocument where
  name : String
  tags : OutputTags := []
  records : List (List DocumentNode) := []

/-- A table that is being read. -/
structure TablePart where
  name : Option String := none
  tags : Option OutputTags := none
  records : Option (List (List DocumentNode)) := none

/-- The fields of a table. -/
def tableShape (depth : Nat) : RecordShape TablePart where
  start := {}
  fields := [
    slot "name" false (·.name) (fun p v => { p with name := some v }) readString,
    slot "tags" true (·.tags) (fun p v => { p with tags := some v }) (readStrings depth),
    slot "records" true (·.records) (fun p v => { p with records := some v })
      (readListOf (readListOf readDocumentNode) depth)]

/-- The table of a complete part. -/
def TablePart.finish (p : TablePart) : TableDocument where
  name := p.name.getD ""
  tags := p.tags.getD []
  records := p.records.getD []

/-- Reads a table. -/
def readTable (depth : Nat) : Reader TableDocument := fun s => do
  let (p, r) ← readRecord "TableDocument" (shapeAt tableShape depth) s
  return (p.finish, r)

/-- A model as it is written in a document. -/
structure ModelDocument where
  descriptors : List Descriptor := []
  tables : List TableDocument := []

/-- A model that is being read. -/
structure ModelPart where
  descriptors : Option (List Descriptor) := none
  tables : Option (List TableDocument) := none

/-- The fields of a model. -/
def modelShape (depth : Nat) : RecordShape ModelPart where
  start := {}
  fields := [
    slot "descriptors" true (·.descriptors) (fun p v => { p with descriptors := some v })
      (readListOf readDescriptor depth),
    slot "tables" true (·.tables) (fun p v => { p with tables := some v }) (readListOf readTable depth)]

/-- The model of a complete part. -/
def ModelPart.finish (p : ModelPart) : ModelDocument where
  descriptors := p.descriptors.getD []
  tables := p.tables.getD []

/-- Reads a model. -/
def readModelDocument (depth : Nat) : Reader ModelDocument := fun s => do
  let (p, r) ← readRecord "ModelDocument" (shapeAt modelShape depth) s
  return (p.finish, r)

end TableExport.Document
