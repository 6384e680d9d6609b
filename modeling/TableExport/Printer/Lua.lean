import TableExport.Literal.Lua
import TableExport.Lua.IndexLoop
import TableExport.Printer.Basic
import TableExport.Render.Enum

/-!
# The Lua output

A chunk that builds one table `tab`: the tables are entries of its constructor, lookup maps and enums are attached
afterwards, and the chunk returns it.
-/

namespace TableExport.Printer

open TableExport.Layout TableExport.Render

/-- The comments at the beginning. -/
def luaHeader (version : String) : Script RenderError :=
  (Script.ofSteps [.line "-- Generated by tabula"]).andThen
    ((Script.formatted ("-- Version: " ++ version ++ "\n")).andThen (.ofSteps [.blank]))

/-- The constructor of the tables. -/
def luaTables (ts : List Table) : Script RenderError :=
  if ts.isEmpty then .ofSteps [.line "local tab = \x7b\x7d", .blank]
  else
    (Script.ofSteps [.line "local tab = \x7b", .indent]).andThen
      ((renderTables Literal.lua false ts).andThen (.ofSteps [.dedent, .line "\x7d", .blank]))

/-- The constructor of the enums. -/
def luaEnums (ds : List Descriptor) : List Step :=
  if ds.isEmpty then [.line "tab.Enum = \x7b\x7d", .blank]
  else .line "tab.Enum = \x7b" :: .indent :: renderEnums Literal.lua ds ++ [.dedent, .line "\x7d", .blank]

/-- The Lua printer. -/
def lua : Printer where
  target := "lua"
  tag := ".lua"
  extension := "lua"
  indent := .tab
  buildsIndexes := true
  header x := luaHeader x.version
  tables := luaTables
  indexes specs := .ofSteps (specs.flatMap fun spec => stepsOf (Lua.indexLoop spec))
  enums ds := .ofSteps (luaEnums ds)
  footer _ := .ofSteps [.line "return tab"]

end TableExport.Printer
