import TableExport.Json.Quoted
import TableExport.Literal.Style

/-!
# The JSON style

Tables and repeated fields are arrays, records and maps are objects, and every key is quoted.
-/

namespace TableExport.Literal

/-- The JSON style. -/
def json : Style where
  value := quoting Json.quoted
  fieldKey name := Json.quoted name ++ ": "
  mapKey key := Json.quoted key ++ ": "
  collection := .square
  array := .square
  object := .curly

end TableExport.Literal
