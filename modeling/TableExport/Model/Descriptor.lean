import TableExport.Model.FieldType
import TableExport.Model.OutputTags

/-!
# Descriptors

A descriptor declares an enum with its members or a struct with its fields. A *combine struct* is a struct whose
fields stand for the tables of an export; each such field links the descriptor of the table's records, and the index
keys of that descriptor ask for lookup maps.

- `Descriptor.field?` and `descriptor?` find the first declaration of a name.
- `Descriptor.indexFields` resolves the index keys of a descriptor to its fields.
-/

namespace TableExport

/-- One field of a struct, or one member of an enum. -/
structure FieldDescriptor where
  name : String
  type : FieldType
  /-- The field holds any number of values. -/
  repeated : Bool := false
  /-- The number of an enum member. -/
  ordinal : Int32 := 0
  /-- The name of the descriptor that the field links. -/
  link : Option String := none
deriving DecidableEq

namespace FieldDescriptor

/-- A plain field that is not repeated. -/
def plain (name : String) (type : FieldType) : FieldDescriptor :=
  { name, type }

/-- An enum member with its number. -/
def member (name : String) (ordinal : Int32) : FieldDescriptor :=
  { name, type := .scalar .int32, ordinal }

/-- A repeated struct field that links a descriptor. -/
def linked (name descriptor : String) : FieldDescriptor :=
  { name, type := .struct, repeated := true, link := some descriptor }

end FieldDescriptor

/-- What a descriptor declares. -/
inductive DescriptorKind where
  | enumeration
  | struct
deriving Repr, DecidableEq

namespace DescriptorKind

/-- The name of the kind in documents. -/
def name : DescriptorKind → String
  | enumeration => "enum"
  | struct => "struct"

/-- All kinds, in the order in which messages list them. -/
def all : List DescriptorKind := [enumeration, struct]

end DescriptorKind

/-- The part that a descriptor plays. -/
inductive DescriptorUsage where
  | ordinary
  /-- Its fields stand for the tables of the export. -/
  | combineStruct
deriving Repr, DecidableEq

namespace DescriptorUsage

/-- The name of the usage in documents. -/
def name : DescriptorUsage → String
  | ordinary => "none"
  | combineStruct => "combine_struct"

/-- All usages, in the order in which messages list them. -/
def all : List DescriptorUsage := [ordinary, combineStruct]

end DescriptorUsage

/-- The declaration of an enum or a struct. -/
structure Descriptor where
  name : String
  kind : DescriptorKind
  usage : DescriptorUsage := .ordinary
  /-- The members of an enum or the fields of a struct. -/
  fields : List FieldDescriptor := []
  /-- The names of the fields that are lookup keys. -/
  indexes : List String := []
  tags : OutputTags := []
deriving DecidableEq

namespace Descriptor

/-- The descriptor declares an enum. -/
def isEnum (d : Descriptor) : Bool :=
  d.kind = .enumeration

/-- The fields of the descriptor stand for tables. -/
def isCombineStruct (d : Descriptor) : Bool :=
  d.usage = .combineStruct

/-- The first field of that name. -/
def field? (d : Descriptor) (name : String) : Option FieldDescriptor :=
  d.fields.find? (·.name = name)

/-- The index keys of the descriptor, each with the field that it names if there is one. -/
def indexFields (d : Descriptor) : List (String × Option FieldDescriptor) :=
  d.indexes.map fun key => (key, d.field? key)

end Descriptor

/-- The first descriptor of that name. -/
def descriptor? (ds : List Descriptor) (name : String) : Option Descriptor :=
  ds.find? (·.name = name)

/-- The enums, in declaration order. -/
def enums (ds : List Descriptor) : List Descriptor :=
  ds.filter (·.isEnum)

/-- The combine structs, in declaration order. -/
def combineStructs (ds : List Descriptor) : List Descriptor :=
  ds.filter (·.isCombineStruct)

end TableExport
