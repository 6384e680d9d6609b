import TableExport.Literal.Json
import TableExport.Printer.Basic
import TableExport.Render.Enum

/-!
# The JSON output

One object: a member for each table, and a last member with the enums. There is no comment, so the version does not
appear.
-/

namespace TableExport.Printer

open TableExport.Layout TableExport.Render

/-- The member of the enums. -/
def jsonEnums (ds : List Descriptor) : List Step :=
  let key := Json.quoted "Enum"
  if ds.isEmpty then [.line (key ++ ": \x7b\x7d")]
  else .line (key ++ ": \x7b") :: .indent :: renderEnums Literal.json ds ++ [.dedent, .line "\x7d"]

/-- The JSON printer. -/
def json : Printer where
  target := "json"
  tag := ".json"
  extension := "json"
  indent := .spaces 2
  buildsIndexes := false
  header _ := .ofSteps [.line "\x7b", .indent]
  tables := renderTables Literal.json true
  indexes _ := {}
  enums ds := .ofSteps (jsonEnums ds)
  footer _ := .ofSteps [.dedent, .line "\x7d"]

end TableExport.Printer
