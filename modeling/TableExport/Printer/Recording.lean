import TableExport.Literal.Plain
import TableExport.Printer.Basic
import TableExport.Render.Enum

/-!
# The recording output

The plainest output there is, to look at how a run goes: a line for each phase that has no data, and the data in the
plain style.

It also keeps a record of the phases that it is asked for and of the names of the tables that it is handed. Both follow
from how a run goes, for this printer as for any other, so they are not kept by the printer here: `Trace.entered` and
`Trace.tableNames` tell them.
-/

namespace TableExport.Printer

open TableExport.Layout TableExport.Render

/-- The recording printer. -/
def recording : Printer where
  target := "recording"
  tag := ".rec"
  extension := "txt"
  indent := .spaces 2
  buildsIndexes := true
  header _ := .ofSteps [.line "header"]
  tables := renderTables Literal.plain false
  indexes specs := .ofSteps (specs.map fun spec => .line spec.mapName)
  enums ds := .ofSteps (renderEnums Literal.plain ds)
  footer _ := .ofSteps [.line "footer"]

end TableExport.Printer
