/-!
# Types of fields

A field holds scalars or structs. The type of a scalar decides how a value is written: texts are quoted with escapes,
enum values are quoted by their name, and all others are written as they are.

- `ScalarType.name` and `FieldType.name` are the names used in documents; `ofName?` reads them back
  (`ofName?_name`).
-/

namespace TableExport

/-- The type of a scalar value. -/
inductive ScalarType where
  | string
  | int32
  | int64
  | uint32
  | uint64
  | float
  | double
  | bool
  | enumeration
deriving Repr, DecidableEq

namespace ScalarType

/-- All scalar types. -/
def all : List ScalarType :=
  [string, int32, int64, uint32, uint64, float, double, bool, enumeration]

/-- The name of the type in documents. -/
def name : ScalarType → String
  | string => "string"
  | int32 => "int32"
  | int64 => "int64"
  | uint32 => "uint32"
  | uint64 => "uint64"
  | float => "float"
  | double => "double"
  | bool => "bool"
  | enumeration => "enum"

/-- The type of that name. -/
def ofName? (s : String) : Option ScalarType :=
  all.find? (·.name = s)

/-- A name is read back as the type that it names. -/
theorem ofName?_name (t : ScalarType) : ofName? t.name = some t := by
  cases t <;> decide

/-- The values of the type are written between quotes. -/
def isQuoted : ScalarType → Bool
  | string | enumeration => true
  | _ => false

end ScalarType

/-- The declared type of a field. -/
inductive FieldType where
  | scalar (type : ScalarType)
  | struct
deriving Repr, DecidableEq

namespace FieldType

/-- The name of the type in documents. -/
def name : FieldType → String
  | scalar t => t.name
  | struct => "struct"

/-- The type of that name. -/
def ofName? (s : String) : Option FieldType :=
  match ScalarType.ofName? s with
  | some t => some (scalar t)
  | none => if s = "struct" then some struct else none

/-- A name is read back as the type that it names. -/
theorem ofName?_name (t : FieldType) : ofName? t.name = some t := by
  cases t with
  | scalar t => simp [ofName?, name, ScalarType.ofName?_name]
  | struct => decide

end FieldType

end TableExport
