import TableExport.Literal.Style
import TableExport.Text.Quoted

/-!
# The plain style

A style without a target language: names stand as they are, and texts are quoted as in messages.
-/

namespace TableExport.Literal

/-- The plain style. -/
def plain : Style where
  value := quoting Text.quoted
  fieldKey name := name ++ " = "
  mapKey key := "[" ++ Text.quoted key ++ "] = "
  collection := .curly
  array := .curly
  object := .curly

end TableExport.Literal
