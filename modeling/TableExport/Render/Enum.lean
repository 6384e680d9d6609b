import TableExport.Layout.Builder
import TableExport.Literal.Style
import TableExport.Model.Descriptor
import TableExport.Render.Table

/-!
# Rendering enums

An enum becomes an entry of the literal around it: a map from the names of its members to their numbers.

- `renderEnum` and `renderEnums` are the steps of an enum and of a list of enums.
-/

namespace TableExport.Render

open TableExport.Layout TableExport.Literal

/-- The lines of the members of an enum. -/
def memberSteps (style : Style) : List FieldDescriptor → List Step
  | [] => []
  | f :: fs =>
    .line (style.mapKey f.name ++ toString f.ordinal.toInt ++ separator !fs.isEmpty) :: memberSteps style fs

/-- The steps of an enum. -/
def renderEnum (style : Style) (d : Descriptor) (separated : Bool) : List Step :=
  if d.fields.isEmpty then
    [.line (style.fieldKey d.name ++ style.object.empty ++ separator separated)]
  else
    .line (style.fieldKey d.name ++ style.object.opening) :: .indent :: memberSteps style d.fields ++
      [.dedent, .line (style.object.closing ++ separator separated)]

/-- The steps of enums inside one literal. -/
def renderEnums (style : Style) : List Descriptor → List Step
  | [] => []
  | d :: ds => renderEnum style d (!ds.isEmpty) ++ renderEnums style ds

end TableExport.Render
