import TableExport.Index.Plan
import TableExport.Layout.Fragment
import TableExport.Lua.Name

/-!
# Lookup maps in Lua

A lookup map is filled by a loop over the records of its table when the output is loaded; a key that several records
share leads to the last of them.

- `indexLoop` is the generated code of a map.
-/

namespace TableExport.Lua

open TableExport.Layout

/-- The code that fills a lookup map. -/
def indexLoop (spec : IndexSpec) : List Fragment :=
  let map := fieldAccess "tab" spec.mapName
  let table := fieldAccess "tab" spec.table
  let key := fieldAccess "rec" spec.key.name
  [.line ("-- " ++ spec.table ++ " by " ++ spec.key.name),
   .line (map ++ " = \x7b\x7d"),
   .block ("for _, rec in ipairs(" ++ table ++ ") do") [.line (map ++ "[" ++ key ++ "] = rec")] (some "end"),
   .blank]

end TableExport.Lua
