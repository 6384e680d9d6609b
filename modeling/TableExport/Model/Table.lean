import TableExport.Model.Descriptor

/-!
# Tables, records and values

A table is a list of records, a record a list of named nodes in column order. A node holds one scalar, an array of
scalars, one struct instance or an array of struct instances; the leaves of an instance are scalars. The text of a
value is kept as it was loaded.

- `Node.isRepeated` and `Node.isStruct` read off the two independent bits of a node's shape.
- `Model` joins the tables with the descriptors of an export.
-/

namespace TableExport

/-- A scalar field of a struct instance. -/
structure Leaf where
  name : String
  type : ScalarType
  /-- The text of the value as loaded. -/
  value : String
deriving Repr, DecidableEq

/-- An instance of a struct: its leaves in column order. -/
abbrev Instance := List Leaf

/-- The value of a node. -/
inductive NodeValue where
  | scalar (type : ScalarType) (value : String)
  /-- Any number of scalars of one type. -/
  | array (type : ScalarType) (values : List String)
  | struct (fields : Instance)
  /-- Any number of struct instances. -/
  | structArray (instances : List Instance)
deriving Repr, DecidableEq

/-- A named value of a record. -/
structure Node where
  name : String
  value : NodeValue
deriving Repr, DecidableEq

namespace Node

/-- The node holds an array. -/
def isRepeated (n : Node) : Bool :=
  match n.value with
  | .array .. | .structArray _ => true
  | .scalar .. | .struct _ => false

/-- The node holds struct instances. -/
def isStruct (n : Node) : Bool :=
  match n.value with
  | .struct _ | .structArray _ => true
  | .scalar .. | .array .. => false

end Node

/-- A row of a table: its nodes in column order. -/
abbrev Record := List Node

/-- A named list of records. -/
structure Table where
  name : String
  tags : OutputTags := []
  records : List Record := []
deriving Repr, DecidableEq

/-- What is exported: the declarations and the data. -/
structure Model where
  descriptors : List Descriptor := []
  tables : List Table := []
deriving DecidableEq

end TableExport
