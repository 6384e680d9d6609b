import TableExport.Literal.Style
import TableExport.Lua.Name

/-!
# The Lua style

Everything is a table constructor: fields have bare names where possible, map entries always quoted ones.
-/

namespace TableExport.Literal

/-- The Lua style. -/
def lua : Style where
  value := quoting Lua.quoted
  fieldKey name := Lua.tableKey name ++ " = "
  mapKey key := "[" ++ Lua.quoted key ++ "] = "
  collection := .curly
  array := .curly
  object := .curly

end TableExport.Literal
