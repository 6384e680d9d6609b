import TableExport.Layout.Script
import TableExport.Literal.Style
import TableExport.Model.Table
import TableExport.Render.Error

/-!
# Rendering tables

A table becomes an entry of the literal around it, with one record to a line. A record that names a field twice, or
holds an instance that does, stops the rendering there.

- `renderRecord` writes the literal of a record.
- `renderTable` and `renderTables` are the scripts of a table and of a list of tables.
-/

namespace TableExport.Render

open TableExport.Layout TableExport.Literal

/-- The text of an entry. -/
def entry (style : Style) (name value : String) : String :=
  style.fieldKey name ++ value

/-- The literals of leaves behind those whose names were seen; a repeated name is the failure. -/
def leafEntries (style : Style) (seen : List String) : List Leaf → Except String (List String)
  | [] => .ok []
  | l :: ls =>
    if seen.contains l.name then .error l.name
    else do
      let rest ← leafEntries style (l.name :: seen) ls
      return entry style l.name (style.value l.type l.value) :: rest

/-- The literal of an instance; the failure is the name of a repeated leaf. -/
def renderInstance (style : Style) (i : Instance) : Except String String := do
  return style.object.wrap (← leafEntries style [] i)

/-- The literal of a value; the failure is the name of a repeated leaf. -/
def renderValue (style : Style) : NodeValue → Except String String
  | .scalar type value => .ok (style.value type value)
  | .array type values => .ok (style.array.wrap (values.map (style.value type)))
  | .struct i => renderInstance style i
  | .structArray is => do return style.array.wrap (← is.mapM (renderInstance style))

/-- The literals of nodes behind those whose names were seen; the failure is the name of a repeated node, or of a
repeated leaf behind the name of its node. -/
def nodeEntries (style : Style) (seen : List String) : List Node → Except String (List String)
  | [] => .ok []
  | n :: ns =>
    if seen.contains n.name then .error n.name
    else
      match renderValue style n.value with
      | .error leaf => .error (n.name ++ "." ++ leaf)
      | .ok value => do
        let rest ← nodeEntries style (n.name :: seen) ns
        return entry style n.name value :: rest

/-- The literal of the record of a table with that index. -/
def renderRecord (style : Style) (table : String) (index : Nat) (r : Record) : Except RenderError String :=
  match nodeEntries style [] r with
  | .ok entries => .ok (style.object.wrap entries)
  | .error field => .error (.duplicateField table index field)

/-- The comma behind an entry that others follow. -/
def separator (separated : Bool) : String :=
  if separated then "," else ""

/-- The lines of the records of a table, the first of which has that index. -/
def renderRecords (style : Style) (table : String) : Nat → List Record → Script RenderError
  | _, [] => {}
  | index, r :: rs =>
    match renderRecord style table index r with
    | .error e => .fail e
    | .ok literal =>
      (Script.ofSteps [.line (literal ++ separator !rs.isEmpty)]).andThen (renderRecords style table (index + 1) rs)

/-- The script of a table. -/
def renderTable (style : Style) (t : Table) (separated : Bool) : Script RenderError :=
  if t.records.isEmpty then
    .ofSteps [.line (style.fieldKey t.name ++ style.collection.empty ++ separator separated)]
  else
    (Script.ofSteps [.line (style.fieldKey t.name ++ style.collection.opening), .indent]).andThen
      ((renderRecords style t.name 0 t.records).andThen
        (.ofSteps [.dedent, .line (style.collection.closing ++ separator separated)]))

/-- The script of tables inside one literal; `moreFollows` tells that the literal has another entry behind them. -/
def renderTables (style : Style) (moreFollows : Bool) : List Table → Script RenderError
  | [] => {}
  | t :: ts => (renderTable style t (moreFollows || !ts.isEmpty)).andThen (renderTables style moreFollows ts)

end TableExport.Render
