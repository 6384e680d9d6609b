import TableExport.Model.Table
import TableExport.Render.Error
import TableExport.Text.PascalCase

/-!
# Planning lookup maps

A field of a combine struct stands for the table of its name and links the descriptor of its records. Where that
descriptor declares index keys, the output builds a lookup map for each of them. The names of the maps share one
namespace with the emitted tables and the enums.

- `IndexSpec` describes one map, `IndexSpec.mapName` is its name.
- `planIndexes` lists the maps of an output or reports the first flaw.
-/

namespace TableExport

open TableExport.Text

/-- A lookup map over the records of a table. -/
structure IndexSpec where
  table : String
  /-- The field of its records that is the key. -/
  key : FieldDescriptor
deriving DecidableEq

/-- The name of a lookup map, such as `ItemById`. -/
def IndexSpec.mapName (s : IndexSpec) : String :=
  s.table ++ "By" ++ pascalCase s.key.name

/-- The name under which an output offers its enums. -/
def enumNamespace : String := "Enum"

namespace Index

/-- The maps of a table for the index keys of a descriptor, when those names are taken; and the names that are taken
afterwards. -/
def planKeys (d : Descriptor) (table : String) :
    List String → List (String × Option FieldDescriptor) → Except RenderError (List IndexSpec × List String)
  | taken, [] => .ok ([], taken)
  | _, (key, none) :: _ => .error (.unknownIndexKey d.name key)
  | taken, (_, some field) :: keys =>
    let spec : IndexSpec := ⟨table, field⟩
    if taken.contains spec.mapName then .error (.nameClash spec.mapName (.index table field.name))
    else do
      let (specs, taken) ← planKeys d table (spec.mapName :: taken) keys
      return (spec :: specs, taken)

/-- The maps that fields of a combine struct ask for. -/
def planFields (ds : List Descriptor) (tag : String) (emitted : List String) (owner : String) :
    List String → List FieldDescriptor → Except RenderError (List IndexSpec × List String)
  | taken, [] => .ok ([], taken)
  | taken, f :: fs =>
    match f.link with
    | none => planFields ds tag emitted owner taken fs
    | some link =>
      match descriptor? ds link with
      | none => .error (.unknownDescriptor owner f.name link)
      | some d =>
        if !d.tags.admits tag || d.indexes.isEmpty || !emitted.contains f.name then
          planFields ds tag emitted owner taken fs
        else do
          let (specs, taken) ← planKeys d f.name taken d.indexFields
          let (rest, taken) ← planFields ds tag emitted owner taken fs
          return (specs ++ rest, taken)

/-- The maps that combine structs ask for. -/
def planStructs (ds : List Descriptor) (tag : String) (emitted : List String) :
    List String → List Descriptor → Except RenderError (List IndexSpec × List String)
  | taken, [] => .ok ([], taken)
  | taken, c :: cs => do
    let (specs, taken) ← planFields ds tag emitted c.name taken c.fields
    let (rest, taken) ← planStructs ds tag emitted taken cs
    return (specs ++ rest, taken)

end Index

/-- The lookup maps of an output with that tag which emits the tables of those names. -/
def planIndexes (ds : List Descriptor) (tag : String) (emitted : List String) :
    Except RenderError (List IndexSpec) := do
  let (specs, _) ← Index.planStructs ds tag emitted (enumNamespace :: emitted) (combineStructs ds)
  return specs

end TableExport
