import TableExport.Model.FieldType

/-!
# Styles of literal data

Outputs differ in how they write keys and values and in the brackets around collections. A style collects these
decisions for one output.

- `Brackets.wrap` joins items inside brackets.
- `Style` is the record of decisions; `quoting` is how the outputs of the library write values.
-/

namespace TableExport.Literal

/-- The opening and closing sign around a collection. -/
structure Brackets where
  opening : String
  closing : String
deriving Repr, DecidableEq

namespace Brackets

/-- Curly brackets. -/
def curly : Brackets := ⟨"\x7b", "\x7d"⟩

/-- Square brackets. -/
def square : Brackets := ⟨"[", "]"⟩

/-- The collection without items. -/
def empty (b : Brackets) : String :=
  b.opening ++ b.closing

/-- Items with commas between them, inside the brackets. -/
def wrap (b : Brackets) (items : List String) : String :=
  if items.isEmpty then b.empty
  else b.opening ++ " " ++ ", ".intercalate items ++ " " ++ b.closing

end Brackets

/-- How one output writes data. -/
structure Style where
  /-- The text of a value of a type. -/
  value : ScalarType → String → String
  /-- What stands in front of the value of a field or a table. -/
  fieldKey : String → String
  /-- What stands in front of the value of a map entry. -/
  mapKey : String → String
  /-- The brackets around the records of a table. -/
  collection : Brackets
  /-- The brackets around the values of a repeated field. -/
  array : Brackets
  /-- The brackets around a record, an instance or a map. -/
  object : Brackets

/-- Strings and enum values are quoted, all other values stand as they are. -/
def quoting (quote : String → String) (type : ScalarType) (text : String) : String :=
  if type.isQuoted then quote text else text

end TableExport.Literal
