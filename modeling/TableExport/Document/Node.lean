import TableExport.Model.FieldType

/-!
# Nodes of a model document

A document writes every value in one uniform shape: a named node with an optional type, a repeated mark, a text and
children. A scalar field holds value nodes as its children, a struct field instances, and an instance fields again.

- `DocumentNode` is that shape; `value`, `field` and `scalar` are the usual ways to build one.
-/

namespace TableExport

/-- A node of a model document. -/
structure DocumentNode where
  name : String := ""
  type : Option FieldType := none
  repeated : Bool := false
  value : String := ""
  child : List DocumentNode := []
deriving Inhabited

namespace DocumentNode

/-- A value node, as it stands below a scalar field. -/
def ofValue (value : String) : DocumentNode :=
  { value }

/-- A field that holds nothing yet. -/
def field (name : String) (type : FieldType) : DocumentNode :=
  { name, type := some type }

/-- The node with one more child at the end. -/
def addChild (n c : DocumentNode) : DocumentNode :=
  { n with child := n.child ++ [c] }

/-- A scalar field that holds one value. -/
def scalar (name : String) (type : ScalarType) (value : String) : DocumentNode :=
  (field name (.scalar type)).addChild (ofValue value)

/-- The node marked as repeated. -/
def asRepeated (n : DocumentNode) : DocumentNode :=
  { n with repeated := true }

end DocumentNode

end TableExport
